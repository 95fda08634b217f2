import EdgeMapper.Proofs.Hearing
/-!
# One delivery, call by call

Who is called during a delivery is settled when it starts: those who listen to the type of the event, to
everything and to its edge, each at its first place. What the listeners do meanwhile to the subscriptions
has no part in it; only a cancellation ends the delivery before the last of them. A delivery is taken
apart here into its calls, each with what the listener did and how it ended, and from these everything
follows that it leaves behind: the answer, the log, and the subscriptions.
-/

namespace EdgeMapper

/-- Those who listen to the event, as often as they do: to its type, to everything, to its edge. -/
def Subscriptions.candidates (s : Subscriptions) (event : Event) : List ListenerId :=
  s.listeners (.type event.type) ++ s.listeners .everything ++
    match event.id with
    | some id => s.listeners (.edge id)
    | none => []

/-- The listeners are the candidates, each once, in the order in which they come first. -/
structure InFirstPlaces (ls candidates : List ListenerId) : Prop where
  mem : ∀ l, l ∈ ls ↔ l ∈ candidates
  nodup : ls.Nodup
  ordered : ls.Pairwise fun l m => candidates.idxOf l < candidates.idxOf m

structure Response where
  listener : ListenerId
  deeds : List Action
  ending : Ending

def Workspace.respond (behaviour : Behaviour) (event : Event) (l : ListenerId) (w : Workspace) :
    Response × Workspace :=
  let reaction := behaviour w l event
  let (v, ending) := (w.hear l event).performAll reaction.ending reaction.actions
  (⟨l, (w.hear l event).performed reaction.actions, ending⟩,
    if ending = .failed then v.note [failureEntry event] else v)

inductive Responds (behaviour : Behaviour) (event : Event) :
    Workspace → List Response → Workspace → Prop where
  | nil (w : Workspace) : Responds behaviour event w [] w
  | cons {w v w' : Workspace} {l : ListenerId} {r : Response} {rs : List Response}
    (h : w.respond behaviour event l = (r, v)) (hrest : Responds behaviour event v rs w') :
    Responds behaviour event w (r :: rs) w'

/-- How far the listeners were called, and the answer: all of them, and how many did not fail; or up to
the first that cancelled. -/
inductive Ends (ls : List ListenerId) (rs : List Response) : Except Failure Nat → Prop where
  | all (hcalled : rs.map (·.listener) = ls) (hnone : ∀ r ∈ rs, r.ending ≠ .cancelled) :
    Ends ls rs (.ok (rs.countP (·.ending ≠ .failed)))
  | cancelled (before : List Response) (last : Response) (hrs : rs = before ++ [last])
    (hcalled : rs.map (·.listener) <+: ls) (hnone : ∀ r ∈ before, r.ending ≠ .cancelled)
    (hlast : last.ending = .cancelled) : Ends ls rs (.error .cancelled)

/-- What responses leave behind: the calls, one entry in the log for each that failed, and the
subscriptions as the listeners have changed them. -/
structure Workspace.After (w : Workspace) (event : Event) (rs : List Response) (v : Workspace) :
    Prop where
  heard : v.heard = w.heard ++ rs.map fun r => (r.listener, event)
  log : v.log = w.log ++ (rs.filter (·.ending = .failed)).map fun _ => failureEntry event
  subscriptions : v.subscriptions = (rs.flatMap (·.deeds)).foldl Subscriptions.act w.subscriptions

/-- The delivery of an event from one workspace to another, with its answer. -/
structure Delivered (behaviour : Behaviour) (event : Event) (w w' : Workspace)
    (result : Except Failure Nat) (ls : List ListenerId) (rs : List Response) : Prop where
  audience : InFirstPlaces ls (w.subscriptions.candidates event)
  responds : Responds behaviour event w rs w'
  ends : Ends ls rs result
  after : w.After event rs w'
  meanwhile : ∀ before, before <+: rs →
    ∃ v, Responds behaviour event w before v ∧ w.After event before v

section

variable {behaviour : Behaviour} {event : Event} {w v w' : Workspace} {l : ListenerId} {r : Response}
  {rs : List Response} {ls : List ListenerId}

theorem inFirstPlaces_audience (s : Subscriptions) (event : Event) :
    InFirstPlaces (s.audience event) (s.candidates event) where
  mem _ := mem_firstOccurrences
  nodup := nodup_firstOccurrences _
  ordered := pairwise_firstOccurrences _

namespace Workspace

/-! ## One call -/

theorem performAll_log (ending : Ending) (actions : List Action) (w : Workspace) :
    (w.performAll ending actions).1.log = w.log := by
  refine performAll_kept (P := (·.log = w.log)) (fun _ _ v v' hv hperform => ?_) ending rfl
  obtain ⟨_, _, _, rfl⟩ := perform_eq_some hperform
  exact hv

theorem respond_of_performed {u : Workspace} {ending : Ending}
    (h : (w.hear l event).performAll (behaviour w l event).ending (behaviour w l event).actions =
      (u, ending)) :
    w.respond behaviour event l =
      (⟨l, (w.hear l event).performed (behaviour w l event).actions, ending⟩,
        if ending = .failed then u.note [failureEntry event] else u) := by
  simp only [respond, h]

theorem respond_listener (h : w.respond behaviour event l = (r, v)) : r.listener = l := by
  obtain ⟨rfl, _⟩ := Prod.mk.inj h
  rfl

theorem After.single (h : w.respond behaviour event l = (r, v)) : w.After event [r] v := by
  rcases hperformed : (w.hear l event).performAll (behaviour w l event).ending
    (behaviour w l event).actions with ⟨u, ending⟩
  obtain ⟨rfl, rfl⟩ := Prod.mk.inj ((respond_of_performed hperformed).symm.trans h)
  have hu : u = ((w.hear l event).performAll (behaviour w l event).ending
    (behaviour w l event).actions).1 := by rw [hperformed]
  have hheard : u.heard = w.heard ++ [(l, event)] := by rw [hu, performAll_heard]; rfl
  have hlog : u.log = w.log := by rw [hu, performAll_log]; rfl
  have hsubscriptions : u.subscriptions = ((w.hear l event).performed
      (behaviour w l event).actions).foldl Subscriptions.act w.subscriptions := by
    rw [hu, replays_subscriptions.performAll]; rfl
  by_cases hfailed : ending = .failed
  · subst hfailed
    exact ⟨hheard, congrArg (· ++ [failureEntry event]) hlog, hsubscriptions.trans (by simp)⟩
  · rw [if_neg hfailed]
    exact ⟨hheard, by simp [hfailed, hlog], hsubscriptions.trans (by simp)⟩

theorem After.nil (w : Workspace) (event : Event) : w.After event [] w :=
  ⟨by simp, by simp, rfl⟩

theorem After.append {rs' : List Response} (h : w.After event rs v) (h' : v.After event rs' w') :
    w.After event (rs ++ rs') w' where
  heard := by rw [h'.heard, h.heard, List.append_assoc, List.map_append]
  log := by rw [h'.log, h.log, List.append_assoc, List.filter_append, List.map_append]
  subscriptions := by
    rw [h'.subscriptions, h.subscriptions, List.flatMap_append, List.foldl_append]

theorem deliver_of_cancelled (h : w.respond behaviour event l = (r, v)) (hr : r.ending = .cancelled)
    (rest : List ListenerId) : w.deliver behaviour event (l :: rest) = (.error .cancelled, v) := by
  rcases hperformed : (w.hear l event).performAll (behaviour w l event).ending
    (behaviour w l event).actions with ⟨u, ending⟩
  obtain ⟨rfl, rfl⟩ := Prod.mk.inj ((respond_of_performed hperformed).symm.trans h)
  obtain rfl : ending = .cancelled := hr
  simp only [deliver, hperformed]
  rfl

theorem deliver_of_not_cancelled (h : w.respond behaviour event l = (r, v))
    (hr : r.ending ≠ .cancelled) (rest : List ListenerId) :
    w.deliver behaviour event (l :: rest) =
      ((v.deliver behaviour event rest).1.map (· + [r].countP (·.ending ≠ .failed)),
        (v.deliver behaviour event rest).2) := by
  rcases hperformed : (w.hear l event).performAll (behaviour w l event).ending
    (behaviour w l event).actions with ⟨u, ending⟩
  obtain ⟨rfl, rfl⟩ := Prod.mk.inj ((respond_of_performed hperformed).symm.trans h)
  rw [deliver, hperformed]
  cases ending with
  | cancelled => exact absurd rfl hr
  | failed =>
      rw [if_pos rfl]
      dsimp only
      rcases (u.note [failureEntry event]).deliver behaviour event rest with ⟨_ | count, w'⟩
      · rfl
      · rfl
  | returned =>
      rw [if_neg Ending.noConfusion]
      dsimp only
      rcases u.deliver behaviour event rest with ⟨_ | count, w'⟩
      · rfl
      · rfl

end Workspace

/-! ## All calls -/

theorem Responds.after (h : Responds behaviour event w rs v) : w.After event rs v := by
  induction h with
  | nil w => exact .nil w event
  | cons hcall _ ih => exact (Workspace.After.single hcall).append ih

theorem Responds.split {before after : List Response}
    (h : Responds behaviour event w (before ++ after) w') :
    ∃ v, Responds behaviour event w before v ∧ Responds behaviour event v after w' := by
  induction before generalizing w with
  | nil => exact ⟨w, .nil w, h⟩
  | cons r before ih =>
      cases h with
      | cons hcall hrest =>
          obtain ⟨v, hbefore, hafter⟩ := ih hrest
          exact ⟨v, .cons hcall hbefore, hafter⟩

theorem Ends.cons {result : Except Failure Nat} (hr : r.ending ≠ .cancelled) (h : Ends ls rs result) :
    Ends (r.listener :: ls) (r :: rs) (result.map (· + [r].countP (·.ending ≠ .failed))) := by
  cases h with
  | all hcalled hnone =>
      have hcount : rs.countP (·.ending ≠ .failed) + [r].countP (·.ending ≠ .failed) =
          (r :: rs).countP (·.ending ≠ .failed) := by
        rw [← List.singleton_append (l := rs), List.countP_append, Nat.add_comm]
      rw [Except.map, hcount]
      exact .all (by rw [List.map_cons, hcalled]) (List.forall_mem_cons.mpr ⟨hr, hnone⟩)
  | cancelled before last hrs hcalled hnone hlast =>
      exact .cancelled (r :: before) last (by rw [hrs, List.cons_append])
        (List.cons_prefix_cons.mpr ⟨rfl, hcalled⟩) (List.forall_mem_cons.mpr ⟨hr, hnone⟩) hlast

theorem Workspace.deliver_responds (behaviour : Behaviour) (event : Event) (ls : List ListenerId)
    (w : Workspace) : ∃ rs, Responds behaviour event w rs (w.deliver behaviour event ls).2 ∧
      Ends ls rs (w.deliver behaviour event ls).1 := by
  induction ls generalizing w with
  | nil => exact ⟨[], .nil w, .all rfl nofun⟩
  | cons l rest ih =>
      rcases hcall : w.respond behaviour event l with ⟨r, v⟩
      obtain rfl := respond_listener hcall
      -- the rest is called in the workspace that this listener has left, or not at all
      by_cases hr : r.ending = .cancelled
      · rw [deliver_of_cancelled hcall hr]
        exact ⟨[r], .cons hcall (.nil v), .cancelled [] r rfl
          (List.cons_prefix_cons.mpr ⟨rfl, List.nil_prefix⟩) nofun hr⟩
      · obtain ⟨rs, hresponds, hends⟩ := ih v
        rw [deliver_of_not_cancelled hcall hr]
        exact ⟨r :: rs, .cons hcall hresponds, hends.cons hr⟩

end

/-- An event is delivered to those who listened to it when the delivery started, each once and in the
order of their first places, until one cancels; the answer counts those that did not fail, each failure
is logged once, and the subscriptions are changed by the listeners alone. -/
theorem deliveries_keep_to_their_audience (behaviour : Behaviour) (event : Event) (w : Workspace) :
    ∃ ls rs, Delivered behaviour event w (Task.emit behaviour event w).2
      (Task.emit behaviour event w).1 ls rs := by
  obtain ⟨rs, hresponds, hends⟩ :=
    w.deliver_responds behaviour event (w.subscriptions.audience event)
  refine ⟨_, rs, inFirstPlaces_audience w.subscriptions event, hresponds, hends, hresponds.after, ?_⟩
  rintro before ⟨after, rfl⟩
  obtain ⟨v, hbefore, _⟩ := hresponds.split
  exact ⟨v, hbefore, hbefore.after⟩

end EdgeMapper
