import EdgeMapper.Proofs.Tasks
/-!
# What listeners do

While events are delivered, listeners act: their deeds are the actions that they perform, in order, up
to the end of the delivery. A delivery changes nothing but what its deeds change, so any part of the
workspace afterwards is its part before with the deeds replayed on it; and unless one cancels, every
listener of the audience is called, once.
-/

namespace EdgeMapper

/-- No listener ever cancels. They may fail. -/
def Behaviour.Steady (behaviour : Behaviour) : Prop :=
  ∀ w l event, (behaviour w l event).ending ≠ .cancelled

namespace Workspace

def performed : List Action → Workspace → List Action
  | [], _ => []
  | action :: rest, w =>
    match w.perform action with
    | some w => action :: performed rest w
    | none => []

def deeds (behaviour : Behaviour) (event : Event) : List ListenerId → Workspace → List Action
  | [], _ => []
  | l :: rest, w =>
    let reaction := behaviour w l event
    performed reaction.actions (w.hear l event) ++
      match performAll reaction.ending reaction.actions (w.hear l event) with
      | (_, .cancelled) => []
      | (w, .failed) => deeds behaviour event rest (w.note [failureEntry event])
      | (w, .returned) => deeds behaviour event rest w

end Workspace

namespace Task

/-- What the listeners do while an event is emitted. -/
def deedsOf (behaviour : Behaviour) (event : Event) (w : Workspace) : List Action :=
  w.deeds behaviour event (w.subscriptions.audience event)

def deeds (behaviour : Behaviour) (type : EventType) :
    List (String × List String) → Workspace → List Action
  | [], _ => []
  | (name, keys) :: rest, w =>
    match w.edge? name with
    | none => []
    | some e =>
      let event := Event.ofEdge type e keys
      deedsOf behaviour event w ++
        match emit behaviour event w with
        | (.ok _, w) => deeds behaviour type rest w
        | (.error _, _) => []

end Task

/-- A part of the workspace on which actions have this effect, and listeners no other. -/
structure Replays {σ : Type} (part : Workspace → σ) (effect : σ → Action → σ) : Prop where
  hear : ∀ w l event, part (w.hear l event) = part w
  note : ∀ w entries, part (w.note entries) = part w
  perform : ∀ w w' a, w.perform a = some w' → part w' = effect (part w) a

section

variable {σ : Type} {part : Workspace → σ} {effect : σ → Action → σ} {behaviour : Behaviour}

/-! ## Replaying deeds -/

theorem Replays.performAll (h : Replays part effect) (ending : Ending) (actions : List Action)
    (w : Workspace) :
    part (Workspace.performAll ending actions w).1 = (w.performed actions).foldl effect (part w) := by
  induction actions generalizing w with
  | nil => rfl
  | cons a rest ih =>
      rw [Workspace.performAll, Workspace.performed]
      cases hw : w.perform a with
      | none => rfl
      | some v =>
          simp only [List.foldl_cons]
          rw [ih, h.perform w v a hw]

theorem Replays.deliver (h : Replays part effect) (event : Event) (ls : List ListenerId)
    (w : Workspace) :
    part (w.deliver behaviour event ls).2 =
      (w.deeds behaviour event ls).foldl effect (part w) := by
  induction ls generalizing w with
  | nil => rfl
  | cons l rest ih =>
      have hcalled := h.performAll (behaviour w l event).ending (behaviour w l event).actions
        (w.hear l event)
      rw [h.hear] at hcalled
      rw [Workspace.deliver, Workspace.deeds, List.foldl_append, ← hcalled]
      rcases Workspace.performAll (behaviour w l event).ending (behaviour w l event).actions
        (w.hear l event) with ⟨v, ending⟩
      cases ending with
      | cancelled => rfl
      | failed =>
          simp only
          rw [ih, h.note]
      | returned =>
          simp only
          rw [← ih]
          rcases v.deliver behaviour event rest with ⟨result, u⟩
          cases result with
          | ok count => rfl
          | error failure => rfl

theorem Replays.emit (h : Replays part effect) (behaviour : Behaviour) (event : Event)
    (w : Workspace) :
    part (Task.emit behaviour event w).2 =
      (Task.deedsOf behaviour event w).foldl effect (part w) :=
  h.deliver event _ w

theorem Replays.announce (h : Replays part effect) (behaviour : Behaviour) (type : EventType)
    (items : List (String × List String)) (w : Workspace) :
    part (Task.announce behaviour type items w).2 =
      (Task.deeds behaviour type items w).foldl effect (part w) := by
  induction items generalizing w with
  | nil => rfl
  | cons item rest ih =>
      obtain ⟨name, keys⟩ := item
      rw [Task.announce, Task.deeds, Task.bind_apply, Task.edge_apply]
      cases w.edge? name with
      | none => rfl
      | some e =>
          simp only [Option.elim_some]
          have hemit := h.emit behaviour (Event.ofEdge type e keys) w
          rw [Task.bind_apply, List.foldl_append, ← hemit]
          rcases Task.emit behaviour (Event.ofEdge type e keys) w with ⟨result, v⟩
          cases result with
          | ok count => exact ih v
          | error failure => rfl

end

/-! ## Who is called -/

namespace Workspace

variable {w w' : Workspace} {behaviour : Behaviour}

theorem perform_heard {a : Action} (h : w.perform a = some w') : w'.heard = w.heard := by
  obtain ⟨_, _, _, rfl⟩ := perform_eq_some h
  rfl

theorem performAll_heard (ending : Ending) (actions : List Action) (w : Workspace) :
    (w.performAll ending actions).1.heard = w.heard :=
  performAll_kept (P := (·.heard = w.heard)) (fun _ _ _ _ hv hperform =>
    (perform_heard hperform).trans hv) ending rfl

theorem performAll_ending (ending : Ending) (actions : List Action) (w : Workspace) :
    (w.performAll ending actions).2 = ending ∨ (w.performAll ending actions).2 = .failed := by
  induction actions generalizing w with
  | nil => exact .inl rfl
  | cons a rest ih =>
      rw [performAll]
      cases w.perform a with
      | none => exact .inr rfl
      | some v => exact ih v

theorem deliver_heard (event : Event) (ls : List ListenerId) {count : Nat}
    (h : w.deliver behaviour event ls = (.ok count, w')) :
    w'.heard = w.heard ++ ls.map fun l => (l, event) := by
  induction ls generalizing w count with
  | nil =>
      obtain ⟨_, rfl⟩ := Prod.mk.inj h
      simp
  | cons l rest ih =>
      have hheard := performAll_heard (behaviour w l event).ending (behaviour w l event).actions
        (w.hear l event)
      have hcalled (v : Workspace) (hv : v.heard = (w.hear l event).heard)
          (hrest : w'.heard = v.heard ++ rest.map fun l => (l, event)) :
          w'.heard = w.heard ++ (l :: rest).map fun l => (l, event) :=
        calc w'.heard = v.heard ++ rest.map (fun l => (l, event)) := hrest
          _ = (w.heard ++ [(l, event)]) ++ rest.map (fun l => (l, event)) := by rw [hv]; rfl
          _ = w.heard ++ (l :: rest).map fun l => (l, event) := by simp
      rw [deliver] at h
      split at h
      · cases h
      · next v hperformed =>
          rw [hperformed] at hheard
          have hrest := ih h
          exact hcalled v hheard hrest
      · next v hperformed =>
          rw [hperformed] at hheard
          split at h
          · next others u hrest =>
              obtain ⟨_, rfl⟩ := Prod.mk.inj h
              exact hcalled v hheard (ih hrest)
          · cases h

theorem deliver_steady (h : behaviour.Steady) (event : Event) (ls : List ListenerId)
    (w : Workspace) : ∃ count w', w.deliver behaviour event ls = (.ok count, w') := by
  induction ls generalizing w with
  | nil => exact ⟨0, w, rfl⟩
  | cons l rest ih =>
      have hending := performAll_ending (behaviour w l event).ending (behaviour w l event).actions
        (w.hear l event)
      rw [deliver]
      cases hperformed : performAll (behaviour w l event).ending (behaviour w l event).actions
        (w.hear l event) with
      | mk v ending =>
          rw [hperformed] at hending
          cases ending with
          | cancelled => exact absurd (hending.resolve_right (by simp)).symm (h w l event)
          | failed => exact ih (v.note [failureEntry event])
          | returned =>
              obtain ⟨count, w', hrest⟩ := ih v
              simp only
              rw [hrest]
              exact ⟨count + 1, w', rfl⟩

end Workspace

theorem Task.emit_heard {behaviour : Behaviour} {event : Event} {w w' : Workspace} {count : Nat}
    (h : emit behaviour event w = (.ok count, w')) :
    w'.heard = w.heard ++ (w.subscriptions.audience event).map fun l => (l, event) :=
  Workspace.deliver_heard event _ h

theorem Task.emit_steady {behaviour : Behaviour} (h : behaviour.Steady) (event : Event)
    (w : Workspace) : ∃ count w', emit behaviour event w = (.ok count, w') ∧
      w'.heard = w.heard ++ (w.subscriptions.audience event).map fun l => (l, event) := by
  obtain ⟨count, w', hemit⟩ := Workspace.deliver_steady h event (w.subscriptions.audience event) w
  exact ⟨count, w', hemit, emit_heard hemit⟩

end EdgeMapper
