import EdgeMapper.Proofs.Commands
import EdgeMapper.Proofs.Cypher.Effect
/-!
# What a preparation comes to

Before a call announces anything it has asked the connection once, and either something was wrong,
which is never a cancellation, or its edges have been brought up to date. The main statement says for
every kind of call what has become of the edges then, and which events are left to be announced.
-/

namespace EdgeMapper

open Cypher (Statement Batch.numbered Batch.relName)

/-! ## Requests -/

theorem create_failure {e : Edge} {o : Cypher.Options} {failure : Failure}
    (h : Statement.create e o = .error failure) : failure ≠ .cancelled := by
  unfold Statement.create at h
  split at h
  · obtain rfl := Except.error.inj h
    nofun
  · cases h

theorem delete_failure {e : Edge} {o : Cypher.Options} {failure : Failure}
    (h : Statement.delete e o = .error failure) : failure ≠ .cancelled := by
  have htarget := Cypher.map_eq_error_iff.mp h
  unfold Statement.target at htarget
  split at htarget
  · obtain rfl := Except.error.inj htarget
    nofun
  · split at htarget
    · obtain rfl := Except.error.inj htarget
      nofun
    · cases htarget

theorem batchCreate_failure {edges : List Edge} {withReturn : Bool} {failure : Failure}
    (h : Cypher.Batch.create edges withReturn = .error failure) : failure ≠ .cancelled := by
  unfold Cypher.Batch.create at h
  split at h
  · obtain rfl := Except.error.inj h
    nofun
  · exact Writer.bind_failure (Cypher.map_eq_error_iff.mp h)

theorem ids_failure {items : List (Nat × Edge)} {failure : Failure}
    (h : Cypher.Batch.ids items = .error failure) : failure ≠ .cancelled := by
  induction items with
  | nil => cases h
  | cons item rest ih =>
      obtain ⟨i, e⟩ := item
      unfold Cypher.Batch.ids at h
      split at h
      · obtain rfl := Except.error.inj h
        nofun
      · exact ih (Cypher.map_eq_error_iff.mp h)

theorem batchDelete_failure {edges : List Edge} {failure : Failure}
    (h : Cypher.Batch.delete edges = .error failure) : failure ≠ .cancelled := by
  unfold Cypher.Batch.delete at h
  split at h
  · obtain rfl := Except.error.inj h
    nofun
  · exact ids_failure (Cypher.map_eq_error_iff.mp h)

theorem send_failure {s : Statement} {w w' : Workspace} {failure : Failure}
    (h : Task.send s w = (.error failure, w')) : failure ≠ .cancelled := by
  rw [Task.send_apply] at h
  obtain ⟨hsent, _⟩ := Prod.mk.inj h
  unfold Connection.send at hsent
  split at hsent
  · cases hsent
  · cases hsent
  · obtain rfl := Except.error.inj hsent
    nofun

/-- What comes of asking the connection about these edges: it answers with a row, or something is
wrong, but that is no cancellation. -/
structure Asked (names : List String) (w v : Workspace) (result : Except Failure Row) : Prop where
  edges : v.edges = w.edges
  row : ∀ row, result = .ok row → w.connection.Answers row
  known : ∀ row, result = .ok row → ∀ name ∈ names, ∃ e, w.edge? name = some e
  failure : ∀ failure, result = .error failure → failure ≠ .cancelled

section

variable {w v : Workspace} {names : List String}

theorem asked_unknown {name : String} {result : Except Failure Row}
    (hresult : result = .error (.unknownName name)) (hv : v = w) : Asked names w v result := by
  subst hresult hv
  refine ⟨rfl, nofun, nofun, fun failure hfailure => ?_⟩
  obtain rfl := Except.error.inj hfailure
  nofun

theorem edges_of_found {edges : List (String × Edge)} (hfound : ∀ p ∈ edges, w.edge? p.1 = some p.2) :
    ((edges.map Prod.fst).mapM Task.edge : Task _) w = (.ok (edges.map Prod.snd), w) := by
  induction edges with
  | nil => rfl
  | cons p rest ih =>
      obtain ⟨hp, hrest⟩ := List.forall_mem_cons.mp hfound
      rw [List.map_cons, List.mapM_cons, Task.bind_of_ok (Task.edge_of_some hp),
        Task.bind_of_ok (ih hrest)]
      rfl

theorem edges_cases (names : List String) (w : Workspace) :
    (∃ edges : List (String × Edge), edges.map Prod.fst = names ∧
      (∀ p ∈ edges, w.edge? p.1 = some p.2) ∧
      (names.mapM Task.edge : Task _) w = (.ok (edges.map Prod.snd), w)) ∨
    ∃ name, (names.mapM Task.edge : Task _) w = (.error (.unknownName name), w) := by
  induction names with
  | nil => exact .inl ⟨[], rfl, by simp, rfl⟩
  | cons name rest ih =>
      rw [List.mapM_cons, Task.bind_apply, Task.edge_apply]
      cases he : w.edge? name with
      | none => exact .inr ⟨name, rfl⟩
      | some e =>
          simp only [Option.elim_some]
          rw [Task.bind_apply]
          rcases ih with ⟨edges, rfl, hfound, hrest⟩ | ⟨other, hother⟩
          · rw [hrest]
            exact .inl ⟨(name, e) :: edges, rfl, List.forall_mem_cons.mpr ⟨he, hfound⟩, rfl⟩
          · rw [hother]
            exact .inr ⟨other, rfl⟩

theorem known_of_found {edges : List (String × Edge)} (hfound : ∀ p ∈ edges, w.edge? p.1 = some p.2) :
    ∀ name ∈ edges.map Prod.fst, ∃ e, w.edge? name = some e :=
  List.forall_mem_map.mpr fun p hp => ⟨p.2, hfound p hp⟩

namespace Writer

theorem exchange_asked {r : Except Failure Statement} {entries : Statement → List LogEntry}
    {fault : AnswerFault} {result : Except Failure Row}
    (hknown : ∀ name ∈ names, ∃ e, w.edge? name = some e)
    (hr : ∀ failure, r = .error failure → failure ≠ .cancelled)
    (h : ((Task.ofExcept r >>= fun s => Task.note (entries s) >>= fun _ => pure s) >>= fun s =>
      Task.send s >>= firstRow fault) w = (result, v)) : Asked names w v result := by
  rw [request_apply] at h
  cases r with
  | error failure =>
      obtain ⟨rfl, rfl⟩ := Prod.mk.inj h
      refine ⟨rfl, nofun, nofun, fun _ hfailure => ?_⟩
      rw [← Except.error.inj hfailure]
      exact hr failure rfl
  | ok s =>
      obtain ⟨rfl, rfl⟩ := Prod.mk.inj h
      exact ⟨rfl, fun _ => Connection.answer_eq_ok_iff.mp, fun _ _ => hknown,
        fun _ => Connection.answer_failure⟩

theorem request_asked {writer : Writer} {name : String} {result : Except Failure Row}
    (h : writer.request name w = (result, v)) : Asked [name] w v result := by
  rcases Task.edge_bind_cases h with ⟨e, he, h⟩ | ⟨hunknown, hsame⟩
  · exact exchange_asked (by simpa using ⟨e, he⟩) (fun _ => create_failure) h
  · exact asked_unknown hunknown hsame

theorem requestMany_apply {edges : List (String × Edge)}
    (hfound : ∀ p ∈ edges, w.edge? p.1 = some p.2) :
    requestMany (edges.map Prod.fst) w =
      match Cypher.Batch.create (edges.map Prod.snd) true with
      | .error failure => (.error failure, w)
      | .ok s => (w.connection.answer .nothingCreatedInBatch,
          w.sent s (Cypher.Batch.remarks .create (edges.map Prod.snd))) := by
  rw [requestMany, Task.bind_of_ok (edges_of_found hfound)]
  exact request_apply (Cypher.Batch.create (edges.map Prod.snd) true)
    (fun _ => Cypher.Batch.remarks .create (edges.map Prod.snd)) .nothingCreatedInBatch w

theorem requestMany_asked {result : Except Failure Row}
    (h : requestMany names w = (result, v)) : Asked names w v result := by
  rcases edges_cases names w with ⟨edges, rfl, hfound, hedges⟩ | ⟨name, hunknown⟩
  · rw [requestMany, Task.bind_of_ok hedges] at h
    exact exchange_asked (known_of_found hfound) (fun _ => batchCreate_failure) h
  · rw [requestMany, Task.bind_apply, hunknown] at h
    obtain ⟨rfl, rfl⟩ := Prod.mk.inj h
    exact asked_unknown rfl rfl

end Writer

end

/-! ## Preparations -/

namespace Command

def names : Command → List String
  | create _ name => [name]
  | createMany names => names
  | update _ name => [name]
  | updateMany names => names
  | delete _ name => [name]
  | deleteMany names => names

def columns : Command → List (String × String)
  | create writer name => [(writer.binding, name)]
  | createMany names => (Batch.numbered names).map fun (i, name) => (Batch.relName i, name)
  | _ => []

/-- What a call has done when it turns to the listeners, and what it is going to announce. -/
inductive Prepared (c : Command) (w v : Workspace) : List (String × List String) → Prop where
  | created {row : Row} (htype : c.type = .created) (hanswer : w.connection.Answers row)
    (hnames : c.columns.map Prod.snd = c.names)
    (hconfirmed : ∀ p ∈ c.columns, Confirmed row p.1 p.2 w v) :
    Prepared c w v (c.names.map fun name => (name, []))
  | idle {edges : List (String × Edge)} (htype : c.type = .updated)
    (hnames : edges.map Prod.fst = c.names) (hfound : ∀ p ∈ edges, w.edge? p.1 = some p.2)
    (hclean : edges.filter (·.2.isDirty) = []) (hedges : v.edges = w.edges)
    (hreceived : v.received = w.received) : Prepared c w v []
  | updated {edges dirty : List (String × Edge)} {s : Statement} (htype : c.type = .updated)
    (hnames : edges.map Prod.fst = c.names) (hfound : ∀ p ∈ edges, w.edge? p.1 = some p.2)
    (hdirty : edges.filter (·.2.isDirty) = dirty) (hedges : v.edges = commitAll dirty w.edges)
    (hreceived : v.received = w.received ++ [s]) (hcarried : Carried (dirty.map Prod.snd) s)
    (hkeys : ChangesKeys s (dirty.map fun p => (p.2.id, p.2.ledger.changedKeys))) :
    Prepared c w v (Writer.announcements dirty)
  | deleted (htype : c.type = .deleted) (hknown : ∀ name ∈ c.names, ∃ e, w.edge? name = some e)
    (hedges : v.edges = w.edges) : Prepared c w v (c.names.map fun name => (name, []))

/-- What a preparation comes to: a failure that is no cancellation, or something to announce. -/
structure Outcome (c : Command) (w v : Workspace)
    (result : Except Failure (List (String × List String))) : Prop where
  advances : w.Advances v
  prepared : ∀ items, result = .ok items → Prepared c w v items
  failure : ∀ failure, result = .error failure → failure ≠ .cancelled

section

variable {c : Command} {w v : Workspace}

theorem Outcome.of_failure {failure : Failure} (hadvances : w.Advances v)
    (hfailure : failure ≠ .cancelled) : Outcome c w v (.error failure) := by
  refine ⟨hadvances, nofun, fun _ h => ?_⟩
  rw [← Except.error.inj h]
  exact hfailure

theorem Outcome.of_prepared {items : List (String × List String)} (hadvances : w.Advances v)
    (h : Prepared c w v items) : Outcome c w v (.ok items) := by
  refine ⟨hadvances, fun _ hitems => ?_, nofun⟩
  rw [← Except.ok.inj hitems]
  exact h

theorem committed_of_written {edges dirty : List (String × Edge)}
    (hfound : ∀ p ∈ edges, w.edge? p.1 = some p.2) (hdirty : edges.filter (·.2.isDirty) = dirty)
    (hedges : v.edges = commitAll dirty w.edges) :
    ∀ p ∈ dirty, w.edge? p.1 = some p.2 ∧ v.edge? p.1 = some p.2.commit := by
  have hwritten (p) (hp : p ∈ dirty) : w.edge? p.1 = some p.2 := by
    rw [← hdirty] at hp
    exact hfound p (List.mem_of_mem_filter hp)
  intro p hp
  refine ⟨hwritten p hp, ?_⟩
  rw [Workspace.edge?, hedges]
  exact get?_commitAll hwritten hp w.edges

theorem Prepared.known {items : List (String × List String)} (h : Prepared c w v items) :
    ∀ item ∈ items, ∃ e, v.edge? item.1 = some e := by
  cases h with
  | created _ _ hnames hconfirmed =>
      rw [← hnames, List.map_map]
      intro item hitem
      obtain ⟨p, hp, rfl⟩ := List.mem_map.mp hitem
      obtain ⟨_, _, e', _, _, he', _⟩ := hconfirmed p hp
      exact ⟨e', he'⟩
  | idle => exact fun _ hitem => absurd hitem (by simp)
  | updated _ _ hfound hdirty hedges =>
      intro item hitem
      obtain ⟨p, hp, rfl⟩ := List.mem_map.mp hitem
      exact ⟨p.2.commit, (committed_of_written hfound hdirty hedges p hp).2⟩
  | deleted _ hknown hedges =>
      intro item hitem
      obtain ⟨name, hname, rfl⟩ := List.mem_map.mp hitem
      obtain ⟨e, he⟩ := hknown name hname
      exact ⟨e, by rw [Workspace.edge?, hedges]; exact he⟩

open Writer
open Workspace (coarse_advances advances_of_edges)

theorem Outcome.of_unknown {name : String} : Outcome c w w (.error (.unknownName name)) :=
  .of_failure (coarse_advances.refl w) nofun

/-! ### Creating -/

theorem create_outcome {writer : Writer} {name : String}
    {result : Except Failure (List (String × List String))}
    (h : (create writer name).prepare w = (result, v)) : Outcome (create writer name) w v result := by
  rcases Task.bind_cases h with ⟨row, u, hrequest, h₁⟩ | ⟨failure, hrequest, rfl⟩
  swap
  · have hasked := request_asked hrequest
    exact .of_failure (advances_of_edges hasked.edges) (hasked.failure failure rfl)
  have hasked := request_asked hrequest
  have hsame := advances_of_edges hasked.edges
  rcases Task.bind_cases h₁ with ⟨_, t, happly, h₂⟩ | ⟨failure, happly, rfl⟩
  swap
  · have happlied := applyCreated_applied happly
    exact .of_failure (coarse_advances.trans _ _ _ hsame happlied.advances) (happlied.failure rfl)
  have happlied := applyCreated_applied happly
  have hadvances := coarse_advances.trans _ _ _ hsame happlied.advances
  obtain ⟨e, he⟩ := hasked.known row rfl name (by simp)
  obtain ⟨e', he', _⟩ := hadvances name e he
  rw [Task.bind_of_ok (Task.edge_of_some he'), Task.bind_of_ok (info_apply _ t)] at h₂
  obtain ⟨rfl, hv⟩ := Prod.mk.inj h₂
  have hnoted : t.Advances v := advances_of_edges (by rw [← hv]; rfl)
  refine .of_prepared (coarse_advances.trans _ _ _ hadvances hnoted)
    (.created rfl (hasked.row row rfl) rfl ?_)
  have hconfirmed := ((happlied.confirmed_edge rfl).earlier he hsame).later hnoted
  simpa [columns] using hconfirmed

theorem createMany_outcome {names : List String}
    {result : Except Failure (List (String × List String))}
    (h : (createMany names).prepare w = (result, v)) : Outcome (createMany names) w v result := by
  rcases Task.bind_cases h with ⟨row, u, hrequest, h₁⟩ | ⟨failure, hrequest, rfl⟩
  swap
  · have hasked := requestMany_asked hrequest
    exact .of_failure (advances_of_edges hasked.edges) (hasked.failure failure rfl)
  have hasked := requestMany_asked hrequest
  have hsame := advances_of_edges hasked.edges
  have hadvances := leads_applyAllCreated row (Batch.numbered names)
  rcases Task.bind_cases h₁ with ⟨_, t, happly, h₂⟩ | ⟨failure, happly, rfl⟩
  swap
  · have happlied := hadvances.of_run happly
    exact .of_failure (coarse_advances.trans _ _ _ hsame happlied) (applyAllCreated_failure happly)
  have happlied := hadvances.of_run happly
  rw [Task.bind_of_ok (info_apply _ t)] at h₂
  obtain ⟨rfl, hv⟩ := Prod.mk.inj h₂
  have hnoted : t.Advances v := advances_of_edges (by rw [← hv]; rfl)
  have hnumbered : (Batch.numbered names).map Prod.snd = names := Cypher.Batch.map_snd_numbered names
  have hknown (item) (hitem : item ∈ Batch.numbered names) : ∃ e, w.edge? item.2 = some e := by
    refine hasked.known row rfl item.2 ?_
    rw [← hnumbered]
    exact List.mem_map_of_mem hitem
  have hexists (item) (hitem : item ∈ Batch.numbered names) : ∃ e, u.edge? item.2 = some e := by
    obtain ⟨e, he⟩ := hknown item hitem
    exact ⟨e, by rw [Workspace.edge?, hasked.edges]; exact he⟩
  refine .of_prepared (coarse_advances.trans _ _ _ (coarse_advances.trans _ _ _ hsame happlied) hnoted)
    (.created rfl (hasked.row row rfl) ?_ ?_)
  · rw [columns, List.map_map]
    exact hnumbered
  · intro p hp
    obtain ⟨item, hitem, rfl⟩ := List.mem_map.mp hp
    obtain ⟨e, he⟩ := hknown item hitem
    exact ((applyAllCreated_confirmed hexists happly item hitem).earlier he hsame).later hnoted

/-! ### Updating -/

theorem conclude_apply (written : List (String × Edge)) (message : String) (w : Workspace) :
    conclude written message w = (.ok (announcements written), committed written message w) := by
  rw [conclude, Task.bind_of_ok (forM_putEdge written w)]
  rfl

/-- What can come of writing edges with one statement: it is not compiled, or there is no row or one that
is not as it should be, or the edges are committed. -/
inductive Written {α : Type} (dirty : List (String × Edge)) (r : Except Failure Statement)
    (fault : AnswerFault) (check : Row → Except Failure α) (w v : Workspace) :
    Except Failure (List (String × List String)) → Prop where
  | uncompiled {failure : Failure} (hr : r = .error failure) (hsame : v = w) :
    Written dirty r fault check w v (.error failure)
  | unanswered {s : Statement} {failure : Failure} (hr : r = .ok s)
    (hanswer : w.connection.answer fault = .error failure) (hedges : v.edges = w.edges) :
    Written dirty r fault check w v (.error failure)
  | unchecked {s : Statement} {row : Row} {failure : Failure} (hr : r = .ok s)
    (hanswer : w.connection.Answers row) (hcheck : check row = .error failure)
    (hedges : v.edges = w.edges) : Written dirty r fault check w v (.error failure)
  | committed {s : Statement} {row : Row} {a : α} (hr : r = .ok s)
    (hanswer : w.connection.Answers row) (hcheck : check row = .ok a)
    (hedges : v.edges = commitAll dirty w.edges) (hreceived : v.received = w.received ++ [s]) :
    Written dirty r fault check w v (.ok (announcements dirty))

theorem written_apply {α : Type} {dirty : List (String × Edge)} {r : Except Failure Statement}
    {entries : Statement → List LogEntry} {fault : AnswerFault} {check : Row → Except Failure α}
    {message : String} {result : Except Failure (List (String × List String))}
    (h : ((Task.ofExcept r >>= fun s => Task.note (entries s) >>= fun _ => pure s) >>= fun s =>
      Task.send s >>= fun rows => firstRow fault rows >>= fun row =>
      Task.ofExcept (check row) >>= fun _ => conclude dirty message) w = (result, v)) :
    Written dirty r fault check w v result := by
  rw [exchange_apply] at h
  cases r with
  | error failure =>
      obtain ⟨rfl, rfl⟩ := Prod.mk.inj h
      exact .uncompiled rfl rfl
  | ok s =>
      cases hanswer : w.connection.answer fault with
      | error failure =>
          rw [hanswer] at h
          obtain ⟨rfl, rfl⟩ := Prod.mk.inj h
          exact .unanswered rfl hanswer rfl
      | ok row =>
          rw [hanswer] at h
          have hrow : w.connection.Answers row := Connection.answer_eq_ok_iff.mp hanswer
          rcases Task.ofExcept_bind_cases h with ⟨a, ha, h₁⟩ | ⟨failure, hfailure, rfl, rfl⟩
          · rw [conclude_apply] at h₁
            obtain ⟨rfl, rfl⟩ := Prod.mk.inj h₁
            exact .committed rfl hrow ha rfl (w.received_sent s (entries s))
          · exact .unchecked rfl hrow hfailure rfl

theorem written_outcome {α : Type} {edges dirty : List (String × Edge)} {r : Except Failure Statement}
    {fault : AnswerFault} {check : Row → Except Failure α}
    {result : Except Failure (List (String × List String))}
    (htype : c.type = .updated) (hnames : edges.map Prod.fst = c.names)
    (hfound : ∀ p ∈ edges, w.edge? p.1 = some p.2) (hdirty : edges.filter (·.2.isDirty) = dirty)
    (hr : ∀ failure, r = .error failure → failure ≠ .cancelled)
    (hcarried : ∀ s, r = .ok s → Carried (dirty.map Prod.snd) s)
    (hkeys : ∀ s, r = .ok s → ChangesKeys s (dirty.map fun p => (p.2.id, p.2.ledger.changedKeys)))
    (hcheck : ∀ row failure, check row = .error failure → failure ≠ .cancelled)
    (h : Written dirty r fault check w v result) : Outcome c w v result := by
  have hwritten (p) (hp : p ∈ dirty) : w.edge? p.1 = some p.2 := by
    rw [← hdirty] at hp
    exact hfound p (List.mem_of_mem_filter hp)
  cases h with
  | uncompiled hfailure hsame =>
      exact .of_failure (advances_of_edges (congrArg Workspace.edges hsame)) (hr _ hfailure)
  | unanswered _ hanswer hedges =>
      exact .of_failure (advances_of_edges hedges) (Connection.answer_failure hanswer)
  | unchecked _ _ hfailure hedges =>
      exact .of_failure (advances_of_edges hedges) (hcheck _ _ hfailure)
  | committed hs _ _ hedges hreceived =>
      exact .of_prepared (advances_commitAll hwritten hedges)
        (.updated htype hnames hfound hdirty hedges hreceived (hcarried _ hs) (hkeys _ hs))

theorem update_outcome {writer : Writer} {name : String}
    {result : Except Failure (List (String × List String))}
    (h : (update writer name).prepare w = (result, v)) : Outcome (update writer name) w v result := by
  rcases Task.edge_bind_cases h with ⟨e, he, h₁⟩ | ⟨rfl, rfl⟩
  swap
  · exact .of_unknown
  have hfound : ∀ p ∈ [(name, e)], w.edge? p.1 = some p.2 := by simpa using he
  have hnames : [(name, e)].map Prod.fst = (update writer name).names := rfl
  cases hdirty : e.isDirty with
  | false =>
      rw [if_neg (by simp [hdirty])] at h₁
      obtain ⟨rfl, rfl⟩ := Prod.mk.inj h₁
      exact .of_prepared (advances_of_edges rfl)
        (.idle rfl hnames hfound (by simp [hdirty]) rfl rfl)
  | true =>
      rw [if_pos hdirty] at h₁
      exact written_outcome rfl hnames hfound (by simp [hdirty])
        (fun _ => update_failure) (fun _ => carried_update rfl) (fun _ => changesKeys_update)
        (fun _ _ => returned_failure) (written_apply h₁)

theorem updateMany_outcome {names : List String}
    {result : Except Failure (List (String × List String))}
    (h : (updateMany names).prepare w = (result, v)) : Outcome (updateMany names) w v result := by
  rcases named_cases names w with ⟨edges, rfl, hfound⟩ | ⟨name, hunknown⟩
  swap
  · rw [prepare, Task.bind_apply, hunknown] at h
    obtain ⟨rfl, rfl⟩ := Prod.mk.inj h
    exact .of_unknown
  rw [prepare, Task.bind_of_ok (named_apply hfound)] at h
  by_cases hclean : edges.filter (·.2.isDirty) = []
  · rw [hclean] at h
    obtain ⟨rfl, rfl⟩ := Prod.mk.inj h
    exact .of_prepared (coarse_advances.refl w) (.idle rfl rfl hfound hclean rfl rfl)
  · rw [if_neg (by simpa using hclean)] at h
    refine written_outcome rfl rfl hfound rfl (fun _ => batchUpdate_failure) (fun _ => carried_batch)
      (fun s hs => ?_) (fun _ _ => checkReturned_failure) (written_apply h)
    simpa [Function.comp_def] using changesKeys_batch hs

/-! ### Deleting -/

theorem deleted_outcome {r : Except Failure Statement} {entries : Statement → List LogEntry}
    {message : String} {result : Except Failure (List (String × List String))}
    (htype : c.type = .deleted) (hknown : ∀ name ∈ c.names, ∃ e, w.edge? name = some e)
    (hr : ∀ failure, r = .error failure → failure ≠ .cancelled)
    (h : ((Task.ofExcept r >>= fun s => Task.note (entries s) >>= fun _ => pure s) >>= fun s =>
      Task.send s >>= fun _ => info message >>= fun _ =>
      pure (c.names.map fun name => (name, []))) w = (result, v)) : Outcome c w v result := by
  cases r with
  | error failure =>
      obtain ⟨rfl, rfl⟩ := Prod.mk.inj h
      exact .of_failure (coarse_advances.refl w) (hr failure rfl)
  | ok s =>
      have hcompiled : ((Task.ofExcept (.ok s) >>= fun s => Task.note (entries s) >>= fun _ =>
          pure s) : Task Statement) w = (.ok s, w.note (entries s)) := rfl
      rw [Task.bind_of_ok hcompiled] at h
      have hsends := Task.leads_send Workspace.coarse_edges s
      rcases Task.bind_cases h with ⟨_, u, hsend, h₁⟩ | ⟨failure, hsend, rfl⟩
      · have hsame := hsends.of_run hsend
        obtain ⟨rfl, rfl⟩ := Prod.mk.inj h₁
        exact .of_prepared (advances_of_edges hsame) (.deleted htype hknown hsame)
      · have hsame := hsends.of_run hsend
        exact .of_failure (advances_of_edges hsame) (send_failure hsend)

theorem delete_outcome {writer : Writer} {name : String}
    {result : Except Failure (List (String × List String))}
    (h : (delete writer name).prepare w = (result, v)) : Outcome (delete writer name) w v result := by
  rcases Task.edge_bind_cases h with ⟨e, he, h₁⟩ | ⟨rfl, rfl⟩
  · exact deleted_outcome rfl (by simpa [names] using ⟨e, he⟩) (fun _ => delete_failure) h₁
  · exact .of_unknown

theorem deleteMany_outcome {names : List String}
    {result : Except Failure (List (String × List String))}
    (h : (deleteMany names).prepare w = (result, v)) : Outcome (deleteMany names) w v result := by
  rcases edges_cases names w with ⟨edges, rfl, hfound, hedges⟩ | ⟨name, hunknown⟩
  · rw [prepare, Task.bind_of_ok hedges] at h
    exact deleted_outcome rfl (known_of_found hfound) (fun _ => batchDelete_failure) h
  · rw [prepare, Task.bind_apply, hunknown] at h
    obtain ⟨rfl, rfl⟩ := Prod.mk.inj h
    exact .of_unknown

theorem prepare_outcome {result : Except Failure (List (String × List String))}
    (h : c.prepare w = (result, v)) : Outcome c w v result := by
  cases c with
  | create writer name => exact create_outcome h
  | createMany names => exact createMany_outcome h
  | update writer name => exact update_outcome h
  | updateMany names => exact updateMany_outcome h
  | delete writer name => exact delete_outcome h
  | deleteMany names => exact deleteMany_outcome h

end

end Command

/-! ## What a preparation keeps -/

/-- A preorder on workspaces along all that a preparation does: the connection is asked and the log is
written, edges are brought up to date with rows, and edges that were found are committed. -/
structure Command.Respected (R : Workspace → Workspace → Prop) : Prop where
  trans : ∀ u v w, R u v → R v w → R u w
  ask : ∀ w connection log, R w { w with connection := connection, log := log }
  apply : ∀ name row column startColumn finishColumn,
    (Writer.applyCreated name row column startColumn finishColumn).Leads R
  commit : ∀ w written, (∀ p ∈ written, w.edge? p.1 = some p.2) →
    R w { w with edges := commitAll written w.edges }

namespace Command.Respected

open Writer

variable {R : Workspace → Workspace → Prop} (h : Command.Respected R) {w : Workspace}

include h

theorem refl (w : Workspace) : R w w := h.ask w w.connection w.log

theorem edge {β : Type} {name : String} {f : Edge → Task β}
    (hf : ∀ e, w.edge? name = some e → R w (f e w).2) : R w ((Task.edge name >>= f) w).2 := by
  rw [Task.bind_apply, Task.edge_apply]
  cases he : w.edge? name with
  | none => exact h.refl w
  | some e => exact hf e he

theorem edges {β : Type} {names : List String} {f : List Edge → Task β}
    (hf : ∀ es, R w (f es w).2) : R w ((names.mapM Task.edge >>= f) w).2 := by
  rcases edges_cases names w with ⟨found, _, _, hrun⟩ | ⟨name, hrun⟩
  · rw [Task.bind_of_ok hrun]
    exact hf _
  · rw [Task.bind_apply, hrun]
    exact h.refl w

theorem exchange {β : Type} {r : Except Failure Statement} {entries : Statement → List LogEntry}
    {fault : AnswerFault} {rest : Row → Task β}
    (hrest : ∀ row s, R (w.sent s (entries s)) (rest row (w.sent s (entries s))).2) :
    R w (((Task.ofExcept r >>= fun s => Task.note (entries s) >>= fun _ => pure s) >>= fun s =>
      Task.send s >>= fun rows => firstRow fault rows >>= rest) w).2 := by
  rw [exchange_apply]
  cases r with
  | error failure => exact h.refl w
  | ok s =>
      have hsent : R w (w.sent s (entries s)) := h.ask w _ _
      cases w.connection.answer fault with
      | error failure => exact hsent
      | ok row => exact h.trans _ _ _ hsent (hrest row s)

theorem delete {β : Type} {r : Except Failure Statement} {entries : Statement → List LogEntry}
    {message : String} {b : β} :
    R w (((Task.ofExcept r >>= fun s => Task.note (entries s) >>= fun _ => pure s) >>= fun s =>
      Task.send s >>= fun _ => info message >>= fun _ => pure b) w).2 := by
  cases r with
  | error failure => exact h.refl w
  | ok s =>
      have hcompiled : ((Task.ofExcept (.ok s) >>= fun s => Task.note (entries s) >>= fun _ =>
          pure s) : Task Statement) w = (.ok s, w.note (entries s)) := rfl
      rw [Task.bind_of_ok hcompiled, Task.bind_apply, Task.send_apply]
      cases ((w.note (entries s)).connection.send s).2 with
      | error failure => exact h.ask w _ _
      | ok rows => exact h.ask w _ _

theorem message {β : Type} (message : String) (b : β) :
    (info message >>= fun _ => pure b : Task β).Leads R := fun w => h.ask w _ _

theorem conclude {α : Type} {written : List (String × Edge)} {message : String}
    {check : Except Failure α} (hfound : ∀ p ∈ written, w.edge? p.1 = some p.2) :
    R w ((Task.ofExcept check >>= fun _ => Command.conclude written message) w).2 := by
  cases check with
  | error failure => exact h.refl w
  | ok a =>
      rw [Task.bind_of_ok (Task.ofExcept_apply _ w), conclude_apply]
      exact h.trans _ _ _ (h.commit w written hfound) (h.ask _ _ _)

theorem applyAll (row : Row) (items : List (Nat × String)) : (applyAllCreated row items).Leads R := by
  induction items with
  | nil => exact h.refl
  | cons item rest ih => exact Task.leads_bind_of_trans h.trans (h.apply _ row _ _ _) fun _ => ih

theorem prepare (c : Command) : c.prepare.Leads R := by
  intro w
  cases c with
  | create writer name =>
      simp only [Command.prepare, request, bind_assoc]
      refine h.edge fun e _ => h.exchange fun row s => ?_
      refine Task.leads_bind_of_trans h.trans (h.apply name row _ _ _) (fun _ v => ?_) _
      exact h.edge fun e _ => h.message _ _ v
  | createMany names =>
      simp only [Command.prepare, requestMany, bind_assoc]
      refine h.edges fun es => h.exchange fun row s => ?_
      exact Task.leads_bind_of_trans h.trans (h.applyAll row _) (fun _ => h.message _ _) _
  | update writer name =>
      refine h.edge fun e he => ?_
      have hfound : ∀ p ∈ [(name, e)], w.edge? p.1 = some p.2 := by simpa using he
      split
      · exact h.exchange fun row s => h.conclude hfound
      · exact h.ask w _ _
  | updateMany names =>
      rcases named_cases names w with ⟨edges, rfl, hfound⟩ | ⟨name, hunknown⟩
      · rw [Command.prepare, Task.bind_of_ok (named_apply hfound)]
        split
        · exact h.refl w
        · exact h.exchange fun row s => h.conclude fun p hp => hfound p (List.mem_of_mem_filter hp)
      · rw [Command.prepare, Task.bind_apply, hunknown]
        exact h.refl w
  | delete writer name => exact h.edge fun e _ => h.delete
  | deleteMany names => exact h.edges fun es => h.delete

end Command.Respected

def Workspace.audible (w : Workspace) : List (ListenerId × Event) × Subscriptions :=
  (w.heard, w.subscriptions)

/-- The task calls no listener and changes no subscription. -/
def Task.Silent {α : Type} (t : Task α) : Prop := t.Leads fun w w' => w'.audible = w.audible

theorem Workspace.coarse_audible : Coarse fun w w' => w'.audible = w.audible :=
  coarse_of_part fun _ _ _ _ _ => rfl

theorem Task.silent_putEdge (name : String) (e : Edge) : (putEdge name e).Silent := fun _ => rfl

theorem Writer.silent_applyCreated (name : String) (row : Row)
    (column startColumn finishColumn : String) :
    (applyCreated name row column startColumn finishColumn).Silent :=
  applyCreated_of_steps @Task.Silent (Task.leads_bind Workspace.coarse_audible)
    (Task.leads_ofExcept Workspace.coarse_audible) (Task.leads_edge Workspace.coarse_audible name)
    (Task.silent_putEdge name) (leads_fetched Workspace.coarse_audible row)

theorem Command.respected_audible : Respected fun w w' => w'.audible = w.audible where
  trans := Workspace.coarse_audible.trans
  ask w connection log := Workspace.coarse_audible.aside w w.clock w.nodes connection log
  apply := Writer.silent_applyCreated
  commit _ _ _ := rfl

theorem Writer.silent_applyAllCreated (row : Row) (items : List (Nat × String)) :
    (applyAllCreated row items).Silent :=
  Command.respected_audible.applyAll row items

namespace Command

theorem silent_prepare (c : Command) : c.prepare.Silent := respected_audible.prepare c

theorem run_cases {behaviour : Behaviour} {c : Command} {w w' : Workspace}
    {result : Except Failure Unit} (h : c.run behaviour w = (result, w')) :
    (∃ failure, result = .error failure ∧ c.prepare w = (.error failure, w')) ∨
    ∃ items v, c.prepare w = (.ok items, v) ∧
      Task.announce behaviour c.type items v = (result, w') := by
  rw [run_eq] at h
  rcases Task.bind_cases h with ⟨items, v, hprepare, hannounce⟩ | ⟨failure, hprepare, rfl⟩
  · exact .inr ⟨items, v, hprepare, hannounce⟩
  · exact .inl ⟨failure, rfl, hprepare⟩

theorem prepared_of_accepted {behaviour : Behaviour} {c : Command} {w w' : Workspace}
    {result : Except Failure Unit} (h : c.run behaviour w = (result, w'))
    (haccepted : accepted result = true) : ∃ items v, c.prepare w = (.ok items, v) ∧
      Prepared c w v items ∧ Task.announce behaviour c.type items v = (result, w') := by
  rcases run_cases h with ⟨failure, rfl, hprepare⟩ | ⟨items, v, hprepare, hannounce⟩
  · rw [accepted_error ((prepare_outcome hprepare).failure failure rfl)] at haccepted
    cases haccepted
  · exact ⟨items, v, hprepare, (prepare_outcome hprepare).prepared items rfl, hannounce⟩

end Command

end EdgeMapper
