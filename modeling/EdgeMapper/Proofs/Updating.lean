import EdgeMapper.Proofs.Cypher.Effect
import EdgeMapper.Proofs.Writing
/-!
# Updating edges

What a call that updates one edge or several can come to: nothing to write, a refusal before anything
is sent, a failure after the statement was sent, or an accepted answer, after which the edges are
committed and announced.
-/

namespace EdgeMapper

open Cypher (Statement)

/-- What a call that writes these edges does, and whether it was accepted. -/
inductive Updates (behaviour : Behaviour) (written : List (String × Edge)) (w w' : Workspace) :
    Bool → Prop where
  | idle (hwritten : written = []) (hedges : w'.edges = w.edges)
    (hreceived : w'.received = w.received) : Updates behaviour written w w' true
  | refused (hedges : w'.edges = w.edges) (hreceived : w'.received = w.received) :
    Updates behaviour written w w' false
  | failed (s : Statement) (hcarried : Carried (written.map Prod.snd) s) (hedges : w'.edges = w.edges)
    (hreceived : w'.received = w.received ++ [s]) : Updates behaviour written w w' false
  | accepted (s : Statement) (v : Workspace) (items : List (String × List String))
    (hcarried : Carried (written.map Prod.snd) s) (hedges : v.edges = commitAll written w.edges)
    (hreceived : v.received = w.received ++ [s])
    (hannounced : (Task.announce behaviour .updated items v).2 = w') :
    Updates behaviour written w w' true

/-- The edges that a call on these names writes: each as it is, and all dirty ones of them unless the
call fails. -/
structure Selected (names : List String) (w : Workspace) (written : List (String × Edge))
    (success : Bool) : Prop where
  sound : ∀ p ∈ written, p.1 ∈ names ∧ w.edge? p.1 = some p.2
  complete : success = true → ∀ name ∈ names, ∀ e, w.edge? name = some e → e.isDirty = true →
    (name, e) ∈ written

def Called (behaviour : Behaviour) (names : List String) (w w' : Workspace) (success : Bool) :
    Prop :=
  ∃ written, Selected names w written success ∧ Updates behaviour written w w' success

namespace Writer

variable {w w' : Workspace}

theorem selected_nothing {names : List String} : Selected names w [] false :=
  ⟨by simp, by simp⟩

theorem selected_single {name : String} {e : Edge} {success : Bool} (he : w.edge? name = some e) :
    Selected [name] w [(name, e)] success := by
  refine ⟨by simpa using he, ?_⟩
  intro _ other hother found hfound _
  obtain rfl := List.mem_singleton.mp hother
  obtain rfl := Option.some.inj (he.symm.trans hfound)
  exact List.mem_singleton_self _

theorem selected_clean {name : String} {e : Edge} {success : Bool} (he : w.edge? name = some e)
    (hclean : e.isDirty = false) : Selected [name] w [] success := by
  refine ⟨by simp, ?_⟩
  intro _ other hother found hfound hdirty
  obtain rfl := List.mem_singleton.mp hother
  obtain rfl := Option.some.inj (he.symm.trans hfound)
  rw [hclean] at hdirty
  cases hdirty

theorem selected_filter {names : List String} {edges : List (String × Edge)} {success : Bool}
    (hnames : edges.map Prod.fst = names) (hfound : ∀ p ∈ edges, w.edge? p.1 = some p.2) :
    Selected names w (edges.filter (·.2.isDirty)) success := by
  subst hnames
  refine ⟨?_, ?_⟩
  · intro p hp
    have hp := List.mem_of_mem_filter hp
    exact ⟨List.mem_map_of_mem hp, hfound p hp⟩
  · intro _ name hname e he hdirty
    obtain ⟨p, hp, rfl⟩ := List.mem_map.mp hname
    obtain rfl := Option.some.inj ((hfound p hp).symm.trans he)
    exact List.mem_filter.mpr ⟨hp, hdirty⟩

/-! ## Calls -/

theorem updates_of_writing {α β : Type} {behaviour : Behaviour} {written : List (String × Edge)}
    {r : Except Failure Statement} {entries : Statement → List LogEntry} {reply : Except Failure α}
    {message : String} {b : β} {result : Except Failure β}
    (hfound : ∀ p ∈ written, w.edge? p.1 = some p.2)
    (hcarried : ∀ s, r = .ok s → Carried (written.map Prod.snd) s)
    (hrefused : ∀ failure, r = .error failure → failure ≠ .cancelled)
    (hreply : ∀ failure, reply = .error failure → failure ≠ .cancelled)
    (h : writing behaviour written r entries reply message b w = (result, w')) :
    Updates behaviour written w w' (accepted result) := by
  cases r with
  | error failure =>
      obtain ⟨rfl, rfl⟩ := Prod.mk.inj h
      rw [accepted_error (hrefused failure rfl)]
      exact .refused rfl rfl
  | ok s =>
      have hreceived : (w.sent s (entries s)).received = w.received ++ [s] := w.received_sent s _
      cases reply with
      | error failure =>
          obtain ⟨rfl, rfl⟩ := Prod.mk.inj h
          rw [accepted_error (hreply failure rfl)]
          exact .failed s (hcarried s rfl) rfl hreceived
      | ok a =>
          obtain ⟨haccepted, hannounced⟩ := announcing_committed hfound h
          rw [haccepted]
          exact .accepted s (committed written message (w.sent s (entries s))) _ (hcarried s rfl) rfl
            hreceived hannounced

theorem update_called {writer : Writer} {behaviour : Behaviour} {name : String}
    {result : Except Failure Bool} (h : writer.update behaviour name w = (result, w')) :
    Called behaviour [name] w w' (accepted result) := by
  rcases update_cases h with ⟨hrejected, rfl⟩ | ⟨e, he, ⟨hclean, rfl, hsame⟩ | ⟨_, hwriting⟩⟩
  · rw [hrejected]
    exact ⟨[], selected_nothing, .refused rfl rfl⟩
  · refine ⟨[], selected_clean he hclean, .idle rfl ?_ ?_⟩
    · rw [hsame]
    · rw [hsame]
      rfl
  · refine ⟨[(name, e)], selected_single he, ?_⟩
    exact updates_of_writing (by simpa using he) (fun s hs => carried_update rfl hs)
      (fun _ => update_failure) (fun _ => replied_failure fun _ _ => returned_failure) hwriting

theorem updateMany_called {behaviour : Behaviour} {names : List String}
    {result : Except Failure Nat} (h : updateMany behaviour names w = (result, w')) :
    Called behaviour names w w' (accepted result) := by
  rcases updateMany_cases h with
    ⟨hrejected, rfl⟩ | ⟨edges, hnames, hfound, ⟨hnone, rfl, rfl⟩ | ⟨dirty, rfl, _, hwriting⟩⟩
  · rw [hrejected]
    exact ⟨[], selected_nothing, .refused rfl rfl⟩
  · exact ⟨_, selected_filter hnames hfound, .idle hnone rfl rfl⟩
  · refine ⟨_, selected_filter hnames hfound, ?_⟩
    exact updates_of_writing (fun p hp => hfound p (List.mem_of_mem_filter hp))
      (fun s hs => carried_batch hs) (fun _ => batchUpdate_failure)
      (fun _ => replied_failure fun _ _ => checkReturned_failure) hwriting

end Writer

end EdgeMapper
