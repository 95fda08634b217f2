import EdgeMapper.Proofs.Cypher.Phrases
import EdgeMapper.Proofs.Tasks
import EdgeMapper.Writer
/-!
# One statement and its answer

Every call that writes compiles a statement, sends it and looks at the first row of the answer before
it touches an edge. The main statements say when there is such a row and when it holds the records that
it should, that nothing that goes wrong on the way is a cancellation, and that until then only the
connection and the log have changed.
-/

namespace EdgeMapper

open Cypher (Statement Batch.relName Batch.numbered)

def Workspace.received (w : Workspace) : List Statement := w.connection.received

theorem received_announce (behaviour : Behaviour) (type : EventType)
    (items : List (String × List String)) (w : Workspace) :
    (Task.announce behaviour type items w).2.received = w.received := by
  refine Task.announce_kept (P := fun v => v.received = w.received) ⟨?_, ?_, ?_⟩ _ _ rfl
  · exact fun _ _ _ h => h
  · exact fun _ _ h => h
  · intro _ _ _ a _ v v' hv hperform
    rw [← hv, Workspace.received, Workspace.perform_connection hperform]
    rfl

/-! ## Answers -/

namespace Connection

/-- The next answer has rows, and this is the first of them. -/
def Answers (c : Connection) (row : Row) : Prop :=
  ∃ rows, c.upcoming.head? = some (.rows (row :: rows))

def answer (c : Connection) (fault : AnswerFault) : Except Failure Row :=
  match c.upcoming with
  | .rows (row :: _) :: _ => .ok row
  | .lost :: _ => .error .connectionLost
  | _ => .error (.badAnswer fault)

theorem answer_eq_ok_iff {c : Connection} {fault : AnswerFault} {row : Row} :
    c.answer fault = .ok row ↔ c.Answers row := by
  unfold answer Answers
  split
  · next first rows rest heq =>
      rw [heq, List.head?_cons]
      constructor
      · intro h
        obtain rfl := Except.ok.inj h
        exact ⟨rows, rfl⟩
      · rintro ⟨rows', h⟩
        obtain ⟨rfl, _⟩ := List.cons.inj (Answer.rows.inj (Option.some.inj h))
        rfl
  · next rest heq =>
      rw [heq, List.head?_cons]
      exact ⟨nofun, nofun⟩
  · next hrows _ =>
      refine ⟨nofun, ?_⟩
      rintro ⟨rows, h⟩
      obtain ⟨rest, heq⟩ := List.head?_eq_some_iff.mp h
      exact absurd heq (hrows row rows rest)

theorem answers_unique {c : Connection} {row other : Row} (h : c.Answers row)
    (h' : c.Answers other) : row = other := by
  obtain ⟨rows, hrows⟩ := h
  obtain ⟨others, hothers⟩ := h'
  exact (List.cons.inj (Answer.rows.inj (Option.some.inj (hrows.symm.trans hothers)))).1

theorem answer_eq (c : Connection) (fault : AnswerFault) (s : Statement) :
    c.answer fault = match (c.send s).2 with
      | .ok (row :: _) => .ok row
      | .ok [] => .error (.badAnswer fault)
      | .error failure => .error failure := by
  obtain ⟨upcoming, received⟩ := c
  cases upcoming with
  | nil => rfl
  | cons next rest =>
      cases next with
      | lost => rfl
      | rows rows =>
          cases rows with
          | nil => rfl
          | cons row others => rfl

theorem answer_failure {c : Connection} {fault : AnswerFault} {failure : Failure}
    (h : c.answer fault = .error failure) : failure ≠ .cancelled := by
  unfold answer at h
  split at h
  · cases h
  · cases h
    nofun
  · cases h
    nofun

end Connection

theorem received_send (s : Statement) (w : Workspace) :
    ({ w with connection := (w.connection.send s).1 } : Workspace).received =
      w.received ++ [s] := by
  unfold Workspace.received Connection.send
  split
  · rfl
  · rfl
  · rfl

def Workspace.sent (w : Workspace) (s : Statement) (entries : List LogEntry) : Workspace :=
  { w.note entries with connection := (w.connection.send s).1 }

theorem Workspace.received_sent (w : Workspace) (s : Statement) (entries : List LogEntry) :
    (w.sent s entries).received = w.received ++ [s] :=
  received_send s w

/-- The record of a relationship stands in this column. -/
def HoldsRecord (row : Row) (column : String) : Prop :=
  ∃ value record, row.get? column = some value ∧ EdgeRecord.ofValue value = .ok record

namespace Writer

theorem info_apply (message : String) (w : Workspace) :
    info message w = (.ok (), w.note [⟨.info, .writer, message⟩]) :=
  Task.note_apply _ w

theorem firstRow_apply (fault : AnswerFault) (rows : List Row) (w : Workspace) :
    firstRow fault rows w = (rows.head?.elim (.error (.badAnswer fault)) .ok, w) := by
  cases rows with
  | nil => rfl
  | cons row rest => rfl

theorem returned_eq_error {row : Row} {column : String} {failure : Failure}
    (h : returned row column = .error failure) : ∃ fault, failure = (Failure.badAnswer fault).told := by
  unfold returned at h
  split at h
  · exact ⟨.noColumn column, (Except.error.inj h).symm⟩
  · split at h
    · cases h
    · exact ⟨_, (Except.error.inj h).symm⟩

theorem checkReturned_eq_error {row : Row} {positions : List Nat} {failure : Failure}
    (h : checkReturned row positions = .error failure) :
    ∃ fault, failure = (Failure.badAnswer fault).told := by
  induction positions with
  | nil => cases h
  | cons i rest ih =>
      unfold checkReturned at h
      split at h
      · exact ih h
      · next other hother =>
          cases h
          exact returned_eq_error hother

theorem returned_failure {row : Row} {column : String} {failure : Failure}
    (h : returned row column = .error failure) : failure ≠ .cancelled := by
  obtain ⟨fault, rfl⟩ := returned_eq_error h
  exact Failure.told_ne_cancelled nofun

theorem checkReturned_failure {row : Row} {positions : List Nat} {failure : Failure}
    (h : checkReturned row positions = .error failure) : failure ≠ .cancelled := by
  obtain ⟨fault, rfl⟩ := checkReturned_eq_error h
  exact Failure.told_ne_cancelled nofun

theorem exists_returned_iff {row : Row} {column : String} :
    (∃ record, returned row column = .ok record) ↔ HoldsRecord row column := by
  unfold returned HoldsRecord
  cases row.get? column with
  | none => exact ⟨nofun, nofun⟩
  | some value =>
      cases hvalue : EdgeRecord.ofValue value with
      | ok record =>
          simp only [hvalue]
          exact ⟨fun _ => ⟨value, record, rfl, hvalue⟩, fun _ => ⟨record, rfl⟩⟩
      | error fault =>
          simp only [hvalue]
          refine ⟨nofun, ?_⟩
          rintro ⟨other, record, hother, hrecord⟩
          obtain rfl := Option.some.inj hother
          rw [hvalue] at hrecord
          cases hrecord

theorem exists_checkReturned_iff {row : Row} {positions : List Nat} :
    (∃ checked, checkReturned row positions = .ok checked) ↔
      ∀ i ∈ positions, HoldsRecord row (Batch.relName i) := by
  induction positions with
  | nil => simp [checkReturned]
  | cons i rest ih =>
      rw [List.forall_mem_cons, ← ih, ← exists_returned_iff, checkReturned]
      cases returned row (Batch.relName i) with
      | ok record => exact ⟨fun h => ⟨⟨record, rfl⟩, h⟩, fun h => h.2⟩
      | error failure =>
          refine ⟨nofun, ?_⟩
          rintro ⟨⟨record, hrecord⟩, _⟩
          cases hrecord

theorem exists_reply_iff {α : Type} {c : Connection} {fault : AnswerFault}
    {check : Row → Except Failure α} :
    (∃ a, (c.answer fault).bind check = .ok a) ↔ ∃ row, c.Answers row ∧ ∃ a, check row = .ok a := by
  have hanswers (row) : c.Answers row ↔ c.answer fault = .ok row := Connection.answer_eq_ok_iff.symm
  simp only [hanswers]
  cases c.answer fault with
  | error failure => exact ⟨nofun, nofun⟩
  | ok row =>
      constructor
      · rintro ⟨a, ha⟩
        exact ⟨row, rfl, a, ha⟩
      · rintro ⟨_, hrow, a, ha⟩
        obtain rfl := Except.ok.inj hrow
        exact ⟨a, ha⟩

theorem replied_failure {α : Type} {c : Connection} {fault : AnswerFault}
    {check : Row → Except Failure α}
    (hcheck : ∀ row failure, check row = .error failure → failure ≠ .cancelled) {failure : Failure}
    (h : (c.answer fault).bind check = .error failure) : failure ≠ .cancelled := by
  cases hanswer : c.answer fault with
  | error other =>
      rw [hanswer] at h
      obtain rfl := Except.error.inj h
      exact Connection.answer_failure hanswer
  | ok row =>
      rw [hanswer] at h
      exact hcheck row failure h

/-! ## Refusals -/

theorem update_failure {e : Edge} {o : Cypher.Options} {failure : Failure}
    (h : Statement.update e o = .error failure) : failure ≠ .cancelled := by
  have htarget := Cypher.map_eq_error_iff.mp h
  unfold Statement.target at htarget
  split at htarget
  · cases htarget
    simp
  · split at htarget
    · cases htarget
      simp
    · cases htarget

theorem bind_failure {bound : OrderedMap String Value} {entries : List (String × Value)}
    {failure : Failure} (h : Cypher.Batch.bind bound entries = .error failure) :
    failure ≠ .cancelled := by
  induction entries generalizing bound with
  | nil => cases h
  | cons entry rest ih =>
      obtain ⟨name, value⟩ := entry
      unfold Cypher.Batch.bind at h
      split at h
      · cases h
        simp
      · exact ih h

theorem targets_failure {items : List (Nat × Edge)} {bound : OrderedMap String Value}
    {failure : Failure} (h : Cypher.Batch.targets items bound = .error failure) :
    failure ≠ .cancelled := by
  induction items generalizing bound with
  | nil => cases h
  | cons item rest ih =>
      obtain ⟨i, e⟩ := item
      unfold Cypher.Batch.targets at h
      split at h
      · cases h
        simp
      · split at h
        · next other hbind =>
            cases h
            exact bind_failure hbind
        · exact ih (Cypher.map_eq_error_iff.mp h)

theorem batchUpdate_failure {edges : List Edge} {withReturn : Bool} {failure : Failure}
    (h : Cypher.Batch.update edges withReturn = .error failure) : failure ≠ .cancelled := by
  unfold Cypher.Batch.update at h
  split at h
  · cases h
    simp
  · exact targets_failure (Cypher.map_eq_error_iff.mp h)

/-! ## Exchanges -/

/-- Compiling, sending and looking at the first row touch only the connection and the log. -/
theorem exchange_apply {β : Type} (r : Except Failure Statement) (entries : Statement → List LogEntry)
    (fault : AnswerFault) (rest : Row → Task β) (w : Workspace) :
    ((Task.ofExcept r >>= fun s => Task.note (entries s) >>= fun _ => pure s) >>= fun s =>
      Task.send s >>= fun rows => firstRow fault rows >>= rest) w =
      match r with
      | .error failure => (.error failure, w)
      | .ok s =>
        match w.connection.answer fault with
        | .error failure => (.error failure, w.sent s (entries s))
        | .ok row => rest row (w.sent s (entries s)) := by
  cases r with
  | error failure => rfl
  | ok s =>
      have hcompiled : ((Task.ofExcept (.ok s) >>= fun s => Task.note (entries s) >>= fun _ =>
          pure s) : Task Statement) w = (.ok s, w.note (entries s)) := rfl
      have hconnection : (w.note (entries s)).connection = w.connection := rfl
      rw [Task.bind_of_ok hcompiled, Task.bind_apply, Task.send_apply, hconnection,
        w.connection.answer_eq fault s]
      cases hanswer : (w.connection.send s).2 with
      | error failure => rfl
      | ok rows =>
          cases rows with
          | nil => rfl
          | cons row others => rfl

theorem request_apply (r : Except Failure Statement) (entries : Statement → List LogEntry)
    (fault : AnswerFault) (w : Workspace) :
    ((Task.ofExcept r >>= fun s => Task.note (entries s) >>= fun _ => pure s) >>= fun s =>
      Task.send s >>= firstRow fault) w =
      match r with
      | .error failure => (.error failure, w)
      | .ok s => (w.connection.answer fault, w.sent s (entries s)) := by
  have happly := exchange_apply r entries fault pure w
  simp only [bind_pure] at happly
  rw [happly]
  cases r with
  | error failure => rfl
  | ok s =>
      cases w.connection.answer fault with
      | error failure => rfl
      | ok row => rfl

end Writer

end EdgeMapper
