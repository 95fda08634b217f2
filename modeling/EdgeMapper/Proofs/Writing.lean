import EdgeMapper.Proofs.Exchange
/-!
# Writing changes

A call that updates one edge or several, once it is known which edges are dirty: it sends one statement,
and either fails without a trace or commits all of these edges and announces them. The main statements
bring both kinds of call into this form.
-/

namespace EdgeMapper

open Cypher (Statement Batch.numbered)

/-- The call succeeded, or it was cancelled by a listener after the answer had been accepted. -/
def accepted {α : Type} : Except Failure α → Bool
  | .ok _ => true
  | .error .cancelled => true
  | .error _ => false

theorem accepted_error {α : Type} {failure : Failure} (h : failure ≠ .cancelled) :
    accepted (.error failure : Except Failure α) = false := by
  unfold accepted
  split
  · next heq => cases heq
  · next heq => exact absurd (Except.error.inj heq) h
  · rfl

theorem accepted_map {α β : Type} (f : α → β) (result : Except Failure α) :
    accepted (result.map f) = accepted result := by
  cases result with
  | ok a => rfl
  | error failure => cases failure <;> rfl

/-- An announcement of edges that exist is never the reason why a call is not accepted. -/
theorem Task.announce_accepted {behaviour : Behaviour} {type : EventType}
    {items : List (String × List String)} {w w' : Workspace} {result : Except Failure Unit}
    (hexists : ∀ item ∈ items, ∃ e, w.edge? item.1 = some e)
    (h : announce behaviour type items w = (result, w')) : accepted result = true := by
  cases result with
  | ok a => rfl
  | error failure =>
      rw [announce_failure type items (List.forall_mem_map.mpr hexists) h]
      rfl

def commitAll (written : List (String × Edge)) (edges : OrderedMap String Edge) :
    OrderedMap String Edge :=
  written.foldl (fun edges p => edges.insert p.1 p.2.commit) edges

theorem get?_commitAll_of_not_mem {written : List (String × Edge)} {name : String}
    (h : name ∉ written.map Prod.fst) (edges : OrderedMap String Edge) :
    (commitAll written edges).get? name = edges.get? name := by
  induction written generalizing edges with
  | nil => rfl
  | cons p rest ih =>
      simp only [List.map_cons, List.mem_cons, not_or] at h
      rw [commitAll, List.foldl_cons, ← commitAll, ih h.2, OrderedMap.get?_insert, if_neg h.1]

theorem get?_commitAll {written : List (String × Edge)} {w : Workspace}
    (hfound : ∀ p ∈ written, w.edge? p.1 = some p.2) {p : String × Edge} (hp : p ∈ written)
    (edges : OrderedMap String Edge) :
    (commitAll written edges).get? p.1 = some p.2.commit := by
  induction written generalizing edges with
  | nil => cases hp
  | cons q rest ih =>
      rw [commitAll, List.foldl_cons, ← commitAll]
      by_cases hrest : p.1 ∈ rest.map Prod.fst
      · obtain ⟨q', hq', hname⟩ := List.mem_map.mp hrest
        obtain rfl : q' = p := by
          have hq := hfound q' (by simp [hq'])
          rw [hname, hfound p hp] at hq
          exact Prod.ext hname (Option.some.inj hq).symm
        exact ih (fun r hr => hfound r (by simp [hr])) hq' _
      · have hhead : p = q := by
          refine (List.mem_cons.mp hp).resolve_right fun h => hrest (List.mem_map_of_mem h)
        rw [get?_commitAll_of_not_mem hrest, hhead, OrderedMap.get?_insert, if_pos rfl]

namespace Writer

variable {w w' : Workspace}

def announcements (written : List (String × Edge)) : List (String × List String) :=
  written.map fun p => (p.1, p.2.ledger.changedKeys)

def committed (written : List (String × Edge)) (message : String) (w : Workspace) : Workspace :=
  { w with edges := commitAll written w.edges }.note [⟨.info, .writer, message⟩]

def announcing {β : Type} (behaviour : Behaviour) (written : List (String × Edge)) (b : β) :
    Task β := do
  Task.announce behaviour .updated (announcements written)
  pure b

/-- What a call does that writes these edges: with a statement and a reply that are as they should be
the edges are committed and announced, and otherwise nothing happens to them. -/
def writing {α β : Type} (behaviour : Behaviour) (written : List (String × Edge))
    (r : Except Failure Statement) (entries : Statement → List LogEntry) (reply : Except Failure α)
    (message : String) (b : β) (w : Workspace) : Except Failure β × Workspace :=
  match r with
  | .error failure => (.error failure, w)
  | .ok s =>
    match reply with
    | .error failure => (.error failure, w.sent s (entries s))
    | .ok _ => announcing behaviour written b (committed written message (w.sent s (entries s)))

theorem writing_apply {α β : Type} (behaviour : Behaviour) (written : List (String × Edge))
    (r : Except Failure Statement) (entries : Statement → List LogEntry) (fault : AnswerFault)
    (check : Row → Except Failure α) (message : String) (b : β) {commit : Task Unit}
    (hcommit : ∀ v, commit v = (.ok (), { v with edges := commitAll written v.edges })) :
    ((Task.ofExcept r >>= fun s => Task.note (entries s) >>= fun _ => pure s) >>= fun s =>
      Task.send s >>= fun rows => firstRow fault rows >>= fun row =>
      Task.ofExcept (check row) >>= fun _ => commit >>= fun _ => info message >>= fun _ =>
      Task.announce behaviour .updated (announcements written) >>= fun _ => pure b) w =
      writing behaviour written r entries ((w.connection.answer fault).bind check) message b w := by
  rw [exchange_apply]
  cases r with
  | error failure => rfl
  | ok s =>
      cases w.connection.answer fault with
      | error failure => rfl
      | ok row =>
          change (Task.ofExcept (check row) >>= _) (w.sent s (entries s)) =
            match check row with
            | .error failure => (.error failure, w.sent s (entries s))
            | .ok _ => announcing behaviour written b
              (committed written message (w.sent s (entries s)))
          cases check row with
          | error failure => rfl
          | ok a => exact Task.bind_of_ok (hcommit (w.sent s (entries s)))

theorem forM_putEdge (written : List (String × Edge)) (w : Workspace) :
    (written.forM fun (name, e) => Task.putEdge name e.commit : Task Unit) w =
      (.ok (), { w with edges := commitAll written w.edges }) := by
  induction written generalizing w with
  | nil => rfl
  | cons p rest ih =>
      change (Task.putEdge p.1 p.2.commit >>= fun _ => rest.forM _) w = _
      rw [Task.bind_of_ok (Task.putEdge_apply p.1 p.2.commit w), ih]
      rfl

theorem announcing_committed {β : Type} {behaviour : Behaviour} {written : List (String × Edge)}
    (hfound : ∀ p ∈ written, w.edge? p.1 = some p.2) {message : String} {v : Workspace} {b : β}
    {result : Except Failure β}
    (h : announcing behaviour written b (committed written message v) = (result, w')) :
    accepted result = true ∧ (Task.announce behaviour .updated (announcements written)
      (committed written message v)).2 = w' := by
  rcases Task.bind_cases h with ⟨_, u, hannounce, hpure⟩ | ⟨failure, hannounce, rfl⟩
  · obtain ⟨rfl, rfl⟩ := Prod.mk.inj hpure
    exact ⟨rfl, by rw [hannounce]⟩
  · have hexists : ∀ name ∈ (announcements written).map Prod.fst,
        ∃ e, (committed written message v).edge? name = some e := by
      intro name hname
      rw [announcements, List.map_map] at hname
      obtain ⟨p, hp, rfl⟩ := List.mem_map.mp hname
      exact ⟨p.2.commit, get?_commitAll hfound hp v.edges⟩
    obtain rfl := Task.announce_failure .updated _ hexists hannounce
    exact ⟨rfl, by rw [hannounce]⟩

theorem update_dirty (writer : Writer) (behaviour : Behaviour) {name : String} {e : Edge}
    (he : w.edge? name = some e) (hdirty : e.isDirty = true) :
    writer.update behaviour name w =
      writing behaviour [(name, e)] (Statement.update e writer.options) (Statement.remarks .update e)
        ((w.connection.answer (.nothingUpdated e.id)).bind fun row => returned row writer.binding)
        ("Updated relationship " ++ Literal.ofId e.id) true w := by
  have hcommit (v : Workspace) : Task.putEdge name e.commit v =
      (.ok (), { v with edges := commitAll [(name, e)] v.edges }) := rfl
  rw [update, Task.bind_of_ok (Task.edge_of_some he), if_pos hdirty]
  exact writing_apply behaviour [(name, e)] (Statement.update e writer.options)
    (Statement.remarks .update e) (.nothingUpdated e.id) (fun row => returned row writer.binding) _ true
    hcommit

theorem update_clean (writer : Writer) (behaviour : Behaviour) {name : String} {e : Edge}
    (he : w.edge? name = some e) (hclean : e.isDirty = false) :
    writer.update behaviour name w =
      (.ok false, w.note (if e.ledger.modified then [unwritable e] else [])) := by
  rw [update, Task.bind_of_ok (Task.edge_of_some he), if_neg (by simp [hclean])]
  rfl

theorem named_apply {edges : List (String × Edge)} (hfound : ∀ p ∈ edges, w.edge? p.1 = some p.2) :
    ((edges.map Prod.fst).mapM fun name => do pure (name, ← Task.edge name) : Task _) w =
      (.ok edges, w) := by
  induction edges with
  | nil => rfl
  | cons p rest ih =>
      have hedge : (Task.edge p.1 >>= fun e => pure (p.1, e) : Task _) w = (.ok p, w) := by
        rw [Task.bind_of_ok (Task.edge_of_some (hfound p (by simp)))]
        rfl
      rw [List.map_cons, List.mapM_cons, Task.bind_of_ok hedge,
        Task.bind_of_ok (ih fun q hq => hfound q (by simp [hq]))]
      rfl

theorem named_cases (names : List String) (w : Workspace) :
    (∃ edges : List (String × Edge), edges.map Prod.fst = names ∧
      ∀ p ∈ edges, w.edge? p.1 = some p.2) ∨
    ∃ name, (names.mapM fun name => do pure (name, ← Task.edge name) : Task _) w =
      (.error (.unknownName name), w) := by
  induction names with
  | nil => exact .inl ⟨[], rfl, by simp⟩
  | cons name rest ih =>
      rw [List.mapM_cons]
      cases he : w.edge? name with
      | none =>
          refine .inr ⟨name, ?_⟩
          rw [Task.bind_apply, Task.bind_apply, Task.edge_apply, he]
          rfl
      | some e =>
          have hnamed : (Task.edge name >>= fun e => pure (name, e) : Task _) w =
              (.ok (name, e), w) := by
            rw [Task.bind_of_ok (Task.edge_of_some he)]
            rfl
          rcases ih with ⟨edges, rfl, hfound⟩ | ⟨other, hother⟩
          · exact .inl ⟨(name, e) :: edges, rfl, List.forall_mem_cons.mpr ⟨he, hfound⟩⟩
          · refine .inr ⟨other, ?_⟩
            rw [Task.bind_of_ok hnamed, Task.bind_apply, hother]

theorem updateMany_apply (behaviour : Behaviour) {edges dirty : List (String × Edge)}
    (hfound : ∀ p ∈ edges, w.edge? p.1 = some p.2) (hdirty : edges.filter (·.2.isDirty) = dirty)
    (hne : dirty ≠ []) :
    updateMany behaviour (edges.map Prod.fst) w =
      writing behaviour dirty (Cypher.Batch.update (dirty.map Prod.snd) true)
        (fun _ => Cypher.Batch.remarks .update (dirty.map Prod.snd))
        ((w.connection.answer (.nothingUpdatedInBatch (dirty.map (·.2.id)))).bind fun row =>
          checkReturned row ((Batch.numbered dirty).map Prod.fst))
        ("Updated " ++ toString dirty.length ++ " relationships") dirty.length w := by
  rw [updateMany, Task.bind_of_ok (named_apply hfound), hdirty, if_neg (by simpa using hne)]
  exact writing_apply behaviour dirty _ _ _ _ _ _ (forM_putEdge dirty)

theorem updateMany_clean (behaviour : Behaviour) {edges : List (String × Edge)}
    (hfound : ∀ p ∈ edges, w.edge? p.1 = some p.2) (hclean : edges.filter (·.2.isDirty) = []) :
    updateMany behaviour (edges.map Prod.fst) w = (.ok 0, w) := by
  rw [updateMany, Task.bind_of_ok (named_apply hfound), hclean]
  rfl

theorem update_cases {writer : Writer} {behaviour : Behaviour} {name : String}
    {result : Except Failure Bool} (h : writer.update behaviour name w = (result, w')) :
    (accepted result = false ∧ w' = w) ∨ ∃ e, w.edge? name = some e ∧
      (e.isDirty = false ∧ result = .ok false ∧ w' = { w with log := w'.log } ∨
        e.isDirty = true ∧ writing behaviour [(name, e)] (Statement.update e writer.options)
          (Statement.remarks .update e)
          ((w.connection.answer (.nothingUpdated e.id)).bind fun row => returned row writer.binding)
          ("Updated relationship " ++ Literal.ofId e.id) true w = (result, w')) := by
  cases he : w.edge? name with
  | none =>
      rw [update, Task.bind_apply, Task.edge_apply, he] at h
      obtain ⟨rfl, rfl⟩ := Prod.mk.inj h
      exact .inl ⟨rfl, rfl⟩
  | some e =>
      refine .inr ⟨e, rfl, ?_⟩
      cases hdirty : e.isDirty with
      | false =>
          rw [update_clean writer behaviour he hdirty] at h
          obtain ⟨rfl, rfl⟩ := Prod.mk.inj h
          exact .inl ⟨rfl, rfl, rfl⟩
      | true =>
          rw [update_dirty writer behaviour he hdirty] at h
          exact .inr ⟨rfl, h⟩

theorem updateMany_cases {behaviour : Behaviour} {names : List String} {result : Except Failure Nat}
    (h : updateMany behaviour names w = (result, w')) :
    (accepted result = false ∧ w' = w) ∨
    ∃ edges : List (String × Edge), edges.map Prod.fst = names ∧
      (∀ p ∈ edges, w.edge? p.1 = some p.2) ∧
      (edges.filter (·.2.isDirty) = [] ∧ result = .ok 0 ∧ w' = w ∨
        ∃ dirty, edges.filter (·.2.isDirty) = dirty ∧ dirty ≠ [] ∧
          writing behaviour dirty (Cypher.Batch.update (dirty.map Prod.snd) true)
            (fun _ => Cypher.Batch.remarks .update (dirty.map Prod.snd))
            ((w.connection.answer (.nothingUpdatedInBatch (dirty.map (·.2.id)))).bind fun row =>
              checkReturned row ((Batch.numbered dirty).map Prod.fst))
            ("Updated " ++ toString dirty.length ++ " relationships") dirty.length w =
            (result, w')) := by
  rcases named_cases names w with ⟨edges, rfl, hfound⟩ | ⟨name, hunknown⟩
  · refine .inr ⟨edges, rfl, hfound, ?_⟩
    by_cases hnone : edges.filter (·.2.isDirty) = []
    · rw [updateMany_clean behaviour hfound hnone] at h
      obtain ⟨rfl, rfl⟩ := Prod.mk.inj h
      exact .inl ⟨hnone, rfl, rfl⟩
    · rw [updateMany_apply behaviour hfound rfl hnone] at h
      exact .inr ⟨_, rfl, hnone, h⟩
  · rw [updateMany, Task.bind_apply, hunknown] at h
    obtain ⟨rfl, rfl⟩ := Prod.mk.inj h
    exact .inl ⟨rfl, rfl⟩

end Writer

end EdgeMapper
