import EdgeMapper.Delivery
/-!
# Running tasks

What each primitive operation does to a workspace, how a sequence of operations is taken apart, and
what a delivery can change. Listeners only edit edges and change subscriptions, so whatever survives
those survives every announcement; the only failure of an announcement is a listener that cancels.
-/

namespace EdgeMapper

namespace Task

variable {α β : Type} {w w' : Workspace}

theorem bind_apply (x : Task α) (f : α → Task β) (w : Workspace) :
    (x >>= f) w = match x w with
      | (.ok a, v) => f a v
      | (.error failure, v) => (.error failure, v) := by
  change (do let (r, v) ← x w; (ExceptT.bindCont f r) v : Id _) = _
  cases hx : x w with
  | mk r v => cases r with
    | ok a => rfl
    | error failure => rfl

theorem bind_of_ok {x : Task α} {f : α → Task β} {a : α} (h : x w = (.ok a, w')) :
    (x >>= f) w = f a w' := by
  rw [bind_apply, h]

theorem bind_cases {x : Task α} {f : α → Task β} {result : Except Failure β}
    (h : (x >>= f) w = (result, w')) :
    (∃ a v, x w = (.ok a, v) ∧ f a v = (result, w')) ∨
      ∃ failure, x w = (.error failure, w') ∧ result = .error failure := by
  rw [bind_apply] at h
  split at h
  · next a v hx => exact .inl ⟨a, v, hx, h⟩
  · next failure v hx =>
      obtain ⟨rfl, rfl⟩ := Prod.mk.inj h
      exact .inr ⟨failure, hx, rfl⟩

theorem bind_eq_ok {x : Task α} {f : α → Task β} {b : β} (h : (x >>= f) w = (.ok b, w')) :
    ∃ a v, x w = (.ok a, v) ∧ f a v = (.ok b, w') := by
  rcases bind_cases h with hok | ⟨_, _, hfailure⟩
  · exact hok
  · cases hfailure

theorem map_apply (x : Task α) (f : α → β) (w : Workspace) :
    (x >>= fun a => pure (f a)) w = ((x w).1.map f, (x w).2) := by
  rw [bind_apply]
  rcases x w with ⟨r, v⟩
  cases r with
  | ok a => rfl
  | error failure => rfl

theorem ofExcept_apply (r : Except Failure α) (w : Workspace) : ofExcept r w = (r, w) := by
  cases r with
  | ok a => rfl
  | error failure => rfl

theorem note_apply (entries : List LogEntry) (w : Workspace) :
    note entries w = (.ok (), w.note entries) := rfl

theorem putEdge_apply (name : String) (e : Edge) (w : Workspace) :
    putEdge name e w = (.ok (), w.putEdge name e) := rfl

theorem edge_apply (name : String) (w : Workspace) :
    edge name w = ((w.edge? name).elim (.error (.unknownName name)) .ok, w) := by
  have hget : (get : Task Workspace) w = (.ok w, w) := rfl
  rw [edge, bind_of_ok hget]
  cases w.edge? name with
  | none => rfl
  | some e => rfl

theorem edge_of_some {name : String} {e : Edge} (he : w.edge? name = some e) :
    edge name w = (.ok e, w) := by
  rw [edge_apply, he]
  rfl

theorem edge_eq_ok {name : String} {e : Edge} (h : edge name w = (.ok e, w')) :
    w.edge? name = some e ∧ w' = w := by
  rw [edge_apply] at h
  obtain ⟨he, rfl⟩ := Prod.mk.inj h
  cases hw : w.edge? name with
  | none => rw [hw] at he; cases he
  | some found => rw [hw] at he; cases he; exact ⟨rfl, rfl⟩

theorem edge_eq_error {name : String} {failure : Failure}
    (h : edge name w = (.error failure, w')) : failure = .unknownName name ∧ w' = w := by
  rw [edge_apply] at h
  obtain ⟨he, rfl⟩ := Prod.mk.inj h
  cases hw : w.edge? name with
  | none => rw [hw] at he; cases he; exact ⟨rfl, rfl⟩
  | some found => rw [hw] at he; cases he

theorem ofExcept_bind_cases {r : Except Failure α} {f : α → Task β} {result : Except Failure β}
    (h : (ofExcept r >>= f) w = (result, w')) :
    (∃ a, r = .ok a ∧ f a w = (result, w')) ∨
      ∃ failure, r = .error failure ∧ result = .error failure ∧ w' = w := by
  rw [bind_apply, ofExcept_apply] at h
  cases r with
  | ok a => exact .inl ⟨a, rfl, h⟩
  | error failure =>
      obtain ⟨rfl, rfl⟩ := Prod.mk.inj h
      exact .inr ⟨failure, rfl, rfl, rfl⟩

theorem edge_bind_cases {name : String} {f : Edge → Task β} {result : Except Failure β}
    (h : (edge name >>= f) w = (result, w')) :
    (∃ e, w.edge? name = some e ∧ f e w = (result, w')) ∨
      result = .error (.unknownName name) ∧ w' = w := by
  rw [bind_apply, edge_apply] at h
  cases he : w.edge? name with
  | none =>
      rw [he] at h
      obtain ⟨rfl, rfl⟩ := Prod.mk.inj h
      exact .inr ⟨rfl, rfl⟩
  | some e =>
      rw [he] at h
      exact .inl ⟨e, rfl, h⟩

theorem send_apply (s : Cypher.Statement) (w : Workspace) :
    send s w = ((w.connection.send s).2, { w with connection := (w.connection.send s).1 }) := by
  change ofExcept (w.connection.send s).2 { w with connection := (w.connection.send s).1 } = _
  rw [ofExcept_apply]

/-! ## Where a task leads -/

/-- Every run of the task, also one that fails, leads to a related workspace. -/
def Leads (R : Workspace → Workspace → Prop) (t : Task α) : Prop := ∀ w, R w (t w).2

end Task

/-- A preorder on workspaces that does not look at the clock, the nodes, the connection and the log. -/
structure Workspace.Coarse (R : Workspace → Workspace → Prop) : Prop where
  trans : ∀ u v w, R u v → R v w → R u w
  aside : ∀ w clock nodes connection log,
    R w { w with clock := clock, nodes := nodes, connection := connection, log := log }

theorem Workspace.Coarse.refl {R : Workspace → Workspace → Prop} (h : Coarse R) (w : Workspace) :
    R w w :=
  h.aside w w.clock w.nodes w.connection w.log

theorem Workspace.coarse_of_part {σ : Type} {part : Workspace → σ}
    (h : ∀ w clock nodes connection log,
      part { w with clock := clock, nodes := nodes, connection := connection, log := log } = part w) :
    Coarse fun w w' => part w' = part w :=
  ⟨fun _ _ _ huv hvw => hvw.trans huv, h⟩

namespace Task

section

variable {α β : Type} {R : Workspace → Workspace → Prop}

theorem Leads.of_run {t : Task α} {w v : Workspace} {result : Except Failure α} (h : t.Leads R)
    (hrun : t w = (result, v)) : R w v := by
  have hlast := h w
  rwa [hrun] at hlast

theorem leads_bind_of_trans (htrans : ∀ u v w, R u v → R v w → R u w) {x : Task α} {f : α → Task β}
    (hx : x.Leads R) (hf : ∀ a, (f a).Leads R) : (x >>= f).Leads R := by
  intro w
  have hx := hx w
  rw [bind_apply]
  cases hrun : x w with
  | mk r v =>
      rw [hrun] at hx
      cases r with
      | ok a => exact htrans w v _ hx (hf a v)
      | error failure => exact hx

variable (h : Workspace.Coarse R)

include h

theorem leads_bind {x : Task α} {f : α → Task β} (hx : x.Leads R) (hf : ∀ a, (f a).Leads R) :
    (x >>= f).Leads R :=
  leads_bind_of_trans h.trans hx hf

theorem leads_pure (a : α) : (pure a : Task α).Leads R := fun w => h.refl w

theorem leads_ofExcept (r : Except Failure α) : (ofExcept r).Leads R := fun w => by
  rw [ofExcept_apply]
  exact h.refl w

theorem leads_edge (name : String) : (edge name).Leads R := fun w => by
  rw [edge_apply]
  exact h.refl w

theorem leads_note (entries : List LogEntry) : (note entries).Leads R := fun w =>
  h.aside w w.clock w.nodes w.connection (w.log ++ entries)

theorem leads_send (s : Cypher.Statement) : (send s).Leads R := fun w => by
  rw [send_apply]
  exact h.aside w w.clock w.nodes (w.connection.send s).1 w.log

theorem leads_mapM {f : α → Task β} (hf : ∀ a, (f a).Leads R) (items : List α) :
    (items.mapM f).Leads R := by
  induction items with
  | nil => exact leads_pure h []
  | cons a rest ih =>
      rw [List.mapM_cons]
      exact leads_bind h (hf a) fun b => leads_bind h ih fun bs => leads_pure h (b :: bs)

end

end Task

namespace Workspace

theorem edge?_putEdge (w : Workspace) (name other : String) (e : Edge) :
    (w.putEdge name e).edge? other = if other = name then some e else w.edge? other :=
  OrderedMap.get?_insert w.edges name other e

/-! ## Listeners -/

/-- What an action of a listener can do to an edge. -/
inductive Edited (name : String) (a : Action) (e : Edge) : Edge → Prop where
  | untouched : Edited name a e e
  | write {now : Instant} {key : String} {value : Value} (h : a = .write name key value) :
    Edited name a e (e.write now key value)
  | relabel {now : Instant} {label : String} (h : a = .relabel name label) :
    Edited name a e (e.relabel now label)

theorem Edited.ends_eq {name : String} {a : Action} {e e' : Edge} (h : Edited name a e e') :
    e'.id = e.id ∧ e'.start = e.start ∧ e'.finish = e.finish := by
  cases h with
  | untouched => exact ⟨rfl, rfl, rfl⟩
  | write h => exact ⟨rfl, rfl, rfl⟩
  | relabel h => exact ⟨rfl, rfl, rfl⟩

/-- A listener touches nothing but the clock, the edges and the subscriptions. -/
theorem perform_eq_some {w w' : Workspace} {a : Action} (h : w.perform a = some w') :
    ∃ clock edges subscriptions,
      w' = { w with clock := clock, edges := edges, subscriptions := subscriptions } := by
  cases a with
  | subscribe l topic => exact ⟨_, _, _, (Option.some.inj h).symm⟩
  | unsubscribe l => exact ⟨_, _, _, (Option.some.inj h).symm⟩
  | clear => exact ⟨_, _, _, (Option.some.inj h).symm⟩
  | write edge key value =>
      obtain ⟨e, _, rfl⟩ := Option.map_eq_some_iff.mp h
      exact ⟨_, _, _, rfl⟩
  | relabel edge label =>
      obtain ⟨e, _, rfl⟩ := Option.map_eq_some_iff.mp h
      exact ⟨_, _, _, rfl⟩

theorem perform_connection {w w' : Workspace} {a : Action} (h : w.perform a = some w') :
    w'.connection = w.connection := by
  obtain ⟨_, _, _, rfl⟩ := perform_eq_some h
  rfl

theorem perform_edge? {w w' : Workspace} {a : Action} (h : w.perform a = some w')
    {name : String} {e : Edge} (he : w.edge? name = some e) :
    ∃ e', w'.edge? name = some e' ∧ Edited name a e e' := by
  cases a with
  | subscribe l topic => obtain rfl := Option.some.inj h; exact ⟨e, he, .untouched⟩
  | unsubscribe l => obtain rfl := Option.some.inj h; exact ⟨e, he, .untouched⟩
  | clear => obtain rfl := Option.some.inj h; exact ⟨e, he, .untouched⟩
  | write edge key value =>
      obtain ⟨old, hold, rfl⟩ := Option.map_eq_some_iff.mp h
      by_cases hname : name = edge
      · subst hname
        obtain rfl := Option.some.inj (hold.symm.trans he)
        exact ⟨_, by rw [edge?_putEdge, if_pos rfl], .write rfl⟩
      · exact ⟨e, by rw [edge?_putEdge, if_neg hname]; exact he, .untouched⟩
  | relabel edge label =>
      obtain ⟨old, hold, rfl⟩ := Option.map_eq_some_iff.mp h
      by_cases hname : name = edge
      · subst hname
        obtain rfl := Option.some.inj (hold.symm.trans he)
        exact ⟨_, by rw [edge?_putEdge, if_pos rfl], .relabel rfl⟩
      · exact ⟨e, by rw [edge?_putEdge, if_neg hname]; exact he, .untouched⟩

/-- A property of workspaces that no listener can break. -/
structure Kept (behaviour : Behaviour) (P : Workspace → Prop) : Prop where
  hear : ∀ w l event, P w → P (w.hear l event)
  note : ∀ w entries, P w → P (w.note entries)
  perform : ∀ w l event, ∀ a ∈ (behaviour w l event).actions, ∀ v v', P v →
    v.perform a = some v' → P v'

theorem performAll_kept {P : Workspace → Prop} {actions : List Action}
    (h : ∀ a ∈ actions, ∀ v v', P v → v.perform a = some v' → P v') (ending : Ending)
    {w : Workspace} (hw : P w) : P (performAll ending actions w).1 := by
  induction actions generalizing w with
  | nil => exact hw
  | cons a rest ih =>
      rw [performAll]
      split
      · next v hv => exact ih (fun b hb => h b (by simp [hb])) (h a (by simp) w v hw hv)
      · exact hw

variable {behaviour : Behaviour} {P : Workspace → Prop}

theorem deliver_kept (h : Kept behaviour P) (event : Event) (ls : List ListenerId)
    {w : Workspace} (hw : P w) : P (w.deliver behaviour event ls).2 := by
  induction ls generalizing w with
  | nil => exact hw
  | cons l rest ih =>
      have hreaction := performAll_kept (h.perform w l event) (behaviour w l event).ending
        (h.hear w l event hw)
      rw [deliver]
      split
      · next v hv =>
          rw [hv] at hreaction
          exact hreaction
      · next v hv =>
          rw [hv] at hreaction
          exact ih (h.note v _ hreaction)
      · next v hv =>
          rw [hv] at hreaction
          have hrest := ih hreaction
          split
          · next count u hu =>
              rw [hu] at hrest
              exact hrest
          · next failure u hu =>
              rw [hu] at hrest
              exact hrest

theorem deliver_failure (event : Event) (ls : List ListenerId) {w w' : Workspace}
    {failure : Failure} (h : w.deliver behaviour event ls = (.error failure, w')) :
    failure = .cancelled := by
  induction ls generalizing w with
  | nil => cases h
  | cons l rest ih =>
      rw [deliver] at h
      split at h
      · cases h
        rfl
      · exact ih h
      · next v hv =>
          split at h
          · cases h
          · next other u hu =>
              cases h
              exact ih hu

end Workspace

namespace Task

open Workspace

variable {behaviour : Behaviour} {P : Workspace → Prop}

theorem emit_kept (h : Kept behaviour P) (event : Event) {w : Workspace} (hw : P w) :
    P (emit behaviour event w).2 :=
  deliver_kept h event _ hw

theorem announce_kept (h : Kept behaviour P) (type : EventType)
    (items : List (String × List String)) {w : Workspace} (hw : P w) :
    P (announce behaviour type items w).2 := by
  induction items generalizing w with
  | nil => exact hw
  | cons item rest ih =>
      obtain ⟨name, keys⟩ := item
      cases hrun : announce behaviour type ((name, keys) :: rest) w with
      | mk result w' =>
          rcases bind_cases hrun with ⟨e, v, hedge, hrest⟩ | ⟨failure, hedge, _⟩
          · obtain ⟨_, rfl⟩ := edge_eq_ok hedge
            have hemitted := emit_kept h (Event.ofEdge type e keys) hw
            rcases bind_cases hrest with ⟨count, u, hemit, hlast⟩ | ⟨failure, hemit, _⟩
            · rw [hemit] at hemitted
              have hnext := ih hemitted
              rw [hlast] at hnext
              exact hnext
            · rw [hemit] at hemitted
              exact hemitted
          · obtain ⟨_, rfl⟩ := edge_eq_error hedge
            exact hw

theorem kept_exists (behaviour : Behaviour) (names : List String) :
    Kept behaviour fun w => ∀ name ∈ names, ∃ e, w.edge? name = some e := by
  refine ⟨fun _ _ _ h => h, fun _ _ h => h, ?_⟩
  intro _ _ _ a _ v v' h hperform name hname
  obtain ⟨e, he⟩ := h name hname
  obtain ⟨e', he', _⟩ := perform_edge? hperform he
  exact ⟨e', he'⟩

theorem announce_failure (type : EventType) (items : List (String × List String))
    {w w' : Workspace} (hexists : ∀ name ∈ items.map Prod.fst, ∃ e, w.edge? name = some e)
    {failure : Failure} (h : announce behaviour type items w = (.error failure, w')) :
    failure = .cancelled := by
  induction items generalizing w with
  | nil => cases h
  | cons item rest ih =>
      obtain ⟨name, keys⟩ := item
      obtain ⟨found, hfound⟩ := hexists name (by simp)
      rcases bind_cases h with ⟨e, v, hedge, hrest⟩ | ⟨other, hedge, _⟩
      · obtain ⟨_, rfl⟩ := edge_eq_ok hedge
        rcases bind_cases hrest with ⟨count, u, hemit, hlast⟩ | ⟨other, hemit, hother⟩
        · refine ih ?_ hlast
          have hkept := emit_kept (kept_exists behaviour (rest.map Prod.fst))
            (Event.ofEdge type e keys) (fun n hn => hexists n (by simp [hn]))
          rw [hemit] at hkept
          exact hkept
        · cases hother
          exact deliver_failure _ _ hemit
      · rw [edge_apply, hfound] at hedge
        cases hedge

end Task

end EdgeMapper
