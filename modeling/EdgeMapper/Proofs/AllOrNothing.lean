import EdgeMapper.Proofs.Cypher.Collisions
import EdgeMapper.Proofs.Writing
/-!
# All or nothing

A call that updates edges checks everything before it touches the first of them: the statement must
compile, the answer must have a row, and that row must hold every relationship that was written. So a
call that fails leaves the edges as they were and tells nobody, and one that is accepted commits them
all. The main statement says when a call is accepted and what is left behind when it is not.
-/

namespace EdgeMapper

open Cypher (Statement Batch.Clash Batch.relName Batch.exists_update_iff Batch.sound_numbered_iff
  Batch.map_fst_numbered)

structure UpdateReady (w : Workspace) (binding : String) (e : Edge) : Prop where
  id : e.id ≠ none
  answered : ∃ row, w.connection.Answers row ∧ HoldsRecord row binding

/-- Nothing is in the way of updating these edges at once: all have ids, no two of them spell the same
parameter, and the first row of the answer holds a record for every position. -/
structure BatchReady (w : Workspace) (dirty : List Edge) : Prop where
  ids : ∀ e ∈ dirty, e.id ≠ none
  names : ∀ i k j l, ¬ Batch.Clash (·.ledger.pending) dirty i k j l
  answered : ∃ row, w.connection.Answers row ∧
    ∀ i ∈ List.range' 1 dirty.length, HoldsRecord row (Batch.relName i)

/-- What comes of a call that is to write these edges with this statement. It is ready when nothing is
wrong with the edges and the answer. -/
structure AllOrNothing {α : Type} (behaviour : Behaviour) (written : List (String × Edge))
    (compiled : Except Failure Statement) (ready : Prop) (w w' : Workspace)
    (result : Except Failure α) : Prop where
  ready : accepted result = true ↔ ready
  all : accepted result = true → ∃ v,
    (Task.announce behaviour .updated (Writer.announcements written) v).2 = w' ∧
    v = { w with edges := commitAll written w.edges, connection := v.connection, log := v.log }
  nothing : ∀ failure, result = .error failure → failure ≠ .cancelled →
    w' = { w with connection := w'.connection, log := w'.log }
  sent : ∀ s, compiled = .ok s → w'.received = w.received ++ [s]
  unsent : ∀ failure, compiled = .error failure →
    result = .error failure ∧ w'.received = w.received

namespace Writer

variable {α β : Type} {behaviour : Behaviour} {written : List (String × Edge)} {w w' : Workspace}

theorem binding_ofBinding (binding : String) : (ofBinding binding).binding ≠ "" := by
  unfold ofBinding
  split
  · decide
  · next h => exact h

theorem allOrNothing_writing {r : Except Failure Statement} {entries : Statement → List LogEntry}
    {reply : Except Failure α} {message : String} {b : β} {ready : Prop} {result : Except Failure β}
    (hfound : ∀ p ∈ written, w.edge? p.1 = some p.2)
    (hcompiled : ∀ failure, r = .error failure → failure ≠ .cancelled)
    (hreply : ∀ failure, reply = .error failure → failure ≠ .cancelled)
    (hready : ready ↔ (∃ s, r = .ok s) ∧ ∃ a, reply = .ok a)
    (h : writing behaviour written r entries reply message b w = (result, w')) :
    AllOrNothing behaviour written r ready w w' result := by
  cases r with
  | error failure =>
      obtain ⟨rfl, rfl⟩ := Prod.mk.inj h
      have hrejected : accepted (.error failure : Except Failure β) = false :=
        accepted_error (hcompiled failure rfl)
      exact
        { ready := by simp [hrejected, hready]
          all := by simp [hrejected]
          nothing := fun _ _ _ => rfl
          sent := nofun
          unsent := fun _ hfailure => ⟨by rw [Except.error.inj hfailure], rfl⟩ }
  | ok s =>
      have hreceived : (w.sent s (entries s)).received = w.received ++ [s] := w.received_sent s _
      cases reply with
      | error failure =>
          obtain ⟨rfl, rfl⟩ := Prod.mk.inj h
          have hrejected : accepted (.error failure : Except Failure β) = false :=
            accepted_error (hreply failure rfl)
          exact
            { ready := by simp [hrejected, hready]
              all := by simp [hrejected]
              nothing := fun _ _ _ => rfl
              sent := fun t ht => by rw [← Except.ok.inj ht, hreceived]
              unsent := nofun }
      | ok a =>
          obtain ⟨haccepted, hannounced⟩ := announcing_committed hfound h
          exact
            { ready := by simp [haccepted, hready]
              all := fun _ => ⟨_, hannounced, rfl⟩
              nothing := by
                rintro failure rfl hfailure
                rw [accepted_error hfailure] at haccepted
                cases haccepted
              sent := fun t ht => by
                rw [← hannounced, received_announce, ← Except.ok.inj ht, ← hreceived]
                rfl
              unsent := nofun }

/-! ## Updating one edge -/

theorem update_allOrNothing (binding : String) {name : String} {e : Edge}
    (he : w.edge? name = some e) (hdirty : e.isDirty = true) {result : Except Failure Bool}
    (h : (ofBinding binding).update behaviour name w = (result, w')) :
    AllOrNothing behaviour [(name, e)] (Statement.update e (ofBinding binding).options)
      (UpdateReady w (ofBinding binding).binding e) w w' result := by
  rw [update_dirty _ _ he hdirty] at h
  refine allOrNothing_writing (by simpa using he) (fun _ => update_failure) ?_ ?_ h
  · exact fun _ => replied_failure fun _ _ => returned_failure
  · rw [Cypher.exists_update_iff (binding_ofBinding binding), exists_reply_iff]
    simp only [exists_returned_iff]
    exact ⟨fun h => ⟨h.id, h.answered⟩, fun h => ⟨h.1, h.2⟩⟩

/-! ## Updating several edges -/

theorem updateMany_allOrNothing {edges dirty : List (String × Edge)}
    (hfound : ∀ p ∈ edges, w.edge? p.1 = some p.2) (hdirty : edges.filter (·.2.isDirty) = dirty)
    (hne : dirty ≠ []) {result : Except Failure Nat}
    (h : updateMany behaviour (edges.map Prod.fst) w = (result, w')) :
    AllOrNothing behaviour dirty (Cypher.Batch.update (dirty.map Prod.snd) true)
      (BatchReady w (dirty.map Prod.snd)) w w' result := by
  rw [updateMany_apply behaviour hfound hdirty hne] at h
  have hwritten (p) (hp : p ∈ dirty) : w.edge? p.1 = some p.2 := by
    rw [← hdirty] at hp
    exact hfound p (List.mem_of_mem_filter hp)
  refine allOrNothing_writing hwritten (fun _ => batchUpdate_failure) ?_ ?_ h
  · exact fun _ => replied_failure fun _ _ => checkReturned_failure
  · have hlength : (dirty.map Prod.snd).length = dirty.length := List.length_map _
    rw [Batch.exists_update_iff (by simpa using hne), Batch.sound_numbered_iff, exists_reply_iff,
      Batch.map_fst_numbered, ← hlength]
    simp only [exists_checkReturned_iff]
    exact ⟨fun h => ⟨⟨h.ids, h.names⟩, h.answered⟩, fun h => ⟨h.1.1, h.1.2, h.2⟩⟩

end Writer

/-- Updating one edge or several is all or nothing, whatever the connection answers and the listeners
do, and it is known beforehand which of the two it will be. -/
theorem updates_are_all_or_nothing (behaviour : Behaviour) (binding : String) (w w' : Workspace) :
    (∀ name e result, w.edge? name = some e →
      (Writer.ofBinding binding).update behaviour name w = (result, w') →
      (e.isDirty = true →
        AllOrNothing behaviour [(name, e)] (Statement.update e (Writer.ofBinding binding).options)
          (UpdateReady w (Writer.ofBinding binding).binding e) w w' result) ∧
      (e.isDirty = false → result = .ok false ∧ w' = { w with log := w'.log })) ∧
    ∀ (edges : List (String × Edge)) result, (∀ p ∈ edges, w.edge? p.1 = some p.2) →
      Writer.updateMany behaviour (edges.map Prod.fst) w = (result, w') →
      let dirty := edges.filter (·.2.isDirty)
      (dirty ≠ [] →
        AllOrNothing behaviour dirty (Cypher.Batch.update (dirty.map Prod.snd) true)
          (BatchReady w (dirty.map Prod.snd)) w w' result) ∧
      (dirty = [] → result = .ok 0 ∧ w' = w) := by
  constructor
  · intro name e result he h
    refine ⟨fun hdirty => Writer.update_allOrNothing binding he hdirty h, fun hclean => ?_⟩
    rw [Writer.update_clean _ _ he hclean] at h
    obtain ⟨rfl, rfl⟩ := Prod.mk.inj h
    exact ⟨rfl, rfl⟩
  · intro edges result hfound h
    refine ⟨fun hne => Writer.updateMany_allOrNothing hfound rfl hne h, fun hnone => ?_⟩
    rw [Writer.updateMany_clean _ hfound hnone] at h
    obtain ⟨rfl, rfl⟩ := Prod.mk.inj h
    exact ⟨rfl, rfl⟩

/-- A batch with a clean edge first, answered by a row without columns. -/
theorem updates_are_all_or_nothing_misanswered :
    ∃ (w w' : Workspace) (clean dirty : Edge) (failure : Failure),
      w.edge? "likes" = some clean ∧ w.edge? "knows" = some dirty ∧
      Writer.updateMany (fun _ _ _ => {}) ["likes", "knows"] w = (.error failure, w') ∧
      failure ≠ .cancelled ∧ ¬ BatchReady w [dirty] ∧ w'.received.length = 1 ∧
      w' = { w with connection := w'.connection, log := w'.log } := by
  let clean : Edge :=
    { id := some 3, start := ⟨1, none⟩, finish := ⟨2, none⟩, label := "LIKES", created := ⟨0⟩,
      updated := ⟨0⟩ }
  let dirty : Edge :=
    { clean with id := some 7, label := "KNOWS", ledger := clean.ledger.set "since" (.int 2) }
  let w : Workspace :=
    { edges := .ofList [("likes", clean), ("knows", dirty)],
      connection := { upcoming := [.rows [∅]] } }
  let edges : List (String × Edge) := [("likes", clean), ("knows", dirty)]
  let w' : Workspace := (Writer.updateMany (fun _ _ _ => {}) ["likes", "knows"] w).2
  have hcall : Writer.updateMany (fun _ _ _ => {}) (edges.map Prod.fst) w =
      (.error (.badAnswer (.noColumn (Batch.relName 1))), w') := rfl
  have hfound : ∀ p ∈ edges, w.edge? p.1 = some p.2 := by
    simp only [edges, List.forall_mem_cons]
    exact ⟨rfl, rfl, by simp⟩
  let result : Except Failure Nat := .error (.badAnswer (.noColumn (Batch.relName 1)))
  have hlaw : AllOrNothing (fun _ _ _ => {}) [("knows", dirty)] (Cypher.Batch.update [dirty] true)
      (BatchReady w [dirty]) w w' result :=
    ((updates_are_all_or_nothing (fun _ _ _ => {}) "" w w').2 edges _ hfound hcall).1
      (List.cons_ne_nil _ _)
  refine ⟨w, w', clean, dirty, _, rfl, rfl, hcall, by simp, ?_, rfl, hlaw.nothing _ rfl (by simp)⟩
  rw [← hlaw.ready]
  decide

end EdgeMapper
