import EdgeMapper.Proofs.Exchange
/-!
# Rows that confirm an edge

A row confirms an edge when it holds the edge's record, and at each endpoint either no node or the one
that belongs there. The record is looked at first, then the id, then the records of both nodes, and
last the ids of these; so a row that does not confirm the edge is rejected for one reason, and the edge
keeps what it had been given before that was found. The main statement says so for every row.
-/

namespace EdgeMapper

/-- The columns in which a row holds an edge and the nodes at its endpoints. -/
structure Columns where
  edge : String
  start : String
  finish : String

def Columns.single (binding : String) : Columns := ⟨binding, "fromNode", "toNode"⟩

/-- The node record in a column; what is no record at all counts as absent. -/
def Writer.nodeRecord (row : Row) (column : String) : Except RecordFault (Option NodeRecord) :=
  match row.get? column with
  | some (.record tag fields) => (NodeRecord.ofValue (.record tag fields)).map some
  | _ => .ok none

open Writer (returned nodeRecord applyCreated)

/-- The row holds a record that can be the record of this edge. -/
structure Identifies (row : Row) (columns : Columns) (e : Edge) (record : EdgeRecord) : Prop where
  found : returned row columns.edge = .ok record
  free : e.id = none ∨ e.id = some record.id

/-- The row holds a record of this edge, and no node that is not at its endpoints. -/
structure Confirms (row : Row) (columns : Columns) (e : Edge) (record : EdgeRecord)
    (start finish : Option NodeRecord) : Prop extends Identifies row columns e record where
  fromStart : nodeRecord row columns.start = .ok start
  fromFinish : nodeRecord row columns.finish = .ok finish
  atStart : ∀ node, start = some node → node.id = e.start.id
  atFinish : ∀ node, finish = some node → node.id = e.finish.id

inductive Workspace.TakenIn (w : Workspace) : Option NodeRecord → Option (NodeRef × Node) → Prop where
  | nothing : TakenIn w none none
  | node {record : NodeRecord} {ref : NodeRef} {now : Instant}
    (h : w.node? ref = some (Node.ofRecord now record)) :
    TakenIn w (some record) (some (ref, Node.ofRecord now record))

/-- What is found to be wrong with a row, and what the edge is then. -/
inductive Rejects (row : Row) (columns : Columns) (w : Workspace) (e : Edge) : Failure → Edge → Prop where
  | record {fault : AnswerFault} (h : returned row columns.edge = .error (Failure.badAnswer fault).told) :
    Rejects row columns w e (.badAnswer fault) e
  | id {record : EdgeRecord} {current : Int} (h : returned row columns.edge = .ok record)
    (hcurrent : e.id = some current) (hother : record.id ≠ current) :
    Rejects row columns w e (.idAssigned current (some record.id)) e
  | startRecord {record : EdgeRecord} {fault : RecordFault} (h : Identifies row columns e record)
    (hstart : nodeRecord row columns.start = .error fault) :
    Rejects row columns w e (.badRecord fault) { e with id := some record.id }
  | finishRecord {record : EdgeRecord} {start : Option NodeRecord} {fault : RecordFault}
    (h : Identifies row columns e record) (hstart : nodeRecord row columns.start = .ok start)
    (hfinish : nodeRecord row columns.finish = .error fault) :
    Rejects row columns w e (.badRecord fault) { e with id := some record.id }
  | start {record : EdgeRecord} {node : NodeRecord} {finish : Option NodeRecord}
    (h : Identifies row columns e record) (hstart : nodeRecord row columns.start = .ok (some node))
    (hfinish : nodeRecord row columns.finish = .ok finish) (hother : node.id ≠ e.start.id) :
    Rejects row columns w e (.refused (.wrongStart (some node.id) e.start.id))
      { e with id := some record.id }
  | finish {record : EdgeRecord} {node : NodeRecord} {start : Option NodeRecord}
    {s : Option (NodeRef × Node)} (h : Identifies row columns e record)
    (hstart : nodeRecord row columns.start = .ok start)
    (hfinish : nodeRecord row columns.finish = .ok (some node))
    (hat : ∀ node, start = some node → node.id = e.start.id) (hother : node.id ≠ e.finish.id)
    (hs : w.TakenIn start s) :
    Rejects row columns w e (.refused (.wrongFinish (some node.id) e.finish.id))
      { e with id := some record.id, start := e.start.attach s }

/-- What comes of bringing an edge up to date with a row, and what the edge is then. -/
inductive Tried (row : Row) (columns : Columns) (w : Workspace) (e : Edge) :
    Except Failure Unit → Edge → Prop where
  | confirmed {record : EdgeRecord} {start finish : Option NodeRecord}
    {s f : Option (NodeRef × Node)} (h : Confirms row columns e record start finish)
    (hs : w.TakenIn start s) (hf : w.TakenIn finish f) :
    Tried row columns w e (.ok ())
      { e with id := some record.id, start := e.start.attach s, finish := e.finish.attach f,
               ledger := .ofProperties e.ledger.current }
  | rejected {failure : Failure} {e' : Edge} (h : Rejects row columns w e failure e') :
    Tried row columns w e (.error failure.told) e'

/-! ## Storing an edge -/

def Workspace.Stored (w : Workspace) (name : String) (e : Edge) (w' : Workspace) : Prop :=
  ∀ other, w'.edge? other = if other = name then some e else w.edge? other

section

variable {w v u : Workspace} {name : String} {e : Edge}

theorem Workspace.stored_self (he : w.edge? name = some e) : w.Stored name e w := fun other => by
  split
  · next hname => rw [hname, he]
  · rfl

theorem Workspace.stored_putEdge (w : Workspace) (name : String) (e : Edge) :
    w.Stored name e (w.putEdge name e) := fun other => edge?_putEdge w name other e

theorem Workspace.Stored.of_edges (h : w.Stored name e v) (hsame : u.edges = v.edges) :
    w.Stored name e u := fun other => by
  rw [edge?, hsame]
  exact h other

theorem Workspace.Stored.putEdge (h : w.Stored name e v) (f : Edge) :
    w.Stored name f (v.putEdge name f) := fun other => by
  rw [edge?_putEdge, h other]
  split
  · rfl
  · rfl

end

/-! ## Fetching nodes -/

def Workspace.takeIn (w : Workspace) : Option NodeRecord → Option (NodeRef × Node) × Workspace
  | none => (none, w)
  | some record =>
    let node := Node.ofRecord w.tick.1 record
    (some ((w.tick.2.addNode node).1, node), (w.tick.2.addNode node).2)

section

variable {w v : Workspace} {r : Option NodeRecord} {node : Option (NodeRef × Node)} {s : Endpoint}

theorem Writer.fetched_apply (row : Row) (column : String) (w : Workspace) :
    fetched row column w = match nodeRecord row column with
      | .error fault => (.error (Failure.badRecord fault).told, w)
      | .ok r => (.ok (w.takeIn r).1, (w.takeIn r).2) := by
  unfold fetched nodeRecord
  cases row.get? column with
  | none => rfl
  | some value =>
      cases value with
      | record tag fields =>
          simp only
          cases NodeRecord.ofValue (.record tag fields) with
          | ok record => rfl
          | error fault => rfl
      | _ => rfl

@[simp] theorem Workspace.edges_takeIn (w : Workspace) (r : Option NodeRecord) :
    (w.takeIn r).2.edges = w.edges := by
  cases r with
  | none => rfl
  | some record => rfl

@[simp] theorem Workspace.connection_takeIn (w : Workspace) (r : Option NodeRecord) :
    (w.takeIn r).2.connection = w.connection := by
  cases r with
  | none => rfl
  | some record => rfl

theorem Workspace.node?_takeIn {ref : NodeRef} {node : Node} (h : w.node? ref = some node) :
    (w.takeIn r).2.node? ref = some node := by
  cases r with
  | none => exact h
  | some record =>
      obtain ⟨hlt, _⟩ := List.getElem?_eq_some_iff.mp h
      exact (List.getElem?_append_left hlt).trans h

theorem Workspace.takenIn_takeIn (w : Workspace) (r : Option NodeRecord) :
    (w.takeIn r).2.TakenIn r (w.takeIn r).1 := by
  cases r with
  | none => exact .nothing
  | some record =>
      have hnode : (w.takeIn (some record)).2.node? ⟨w.nodes.length⟩ =
          some (Node.ofRecord w.tick.1 record) := List.getElem?_concat_length
      exact .node hnode

theorem Workspace.TakenIn.imp (h : w.TakenIn r node)
    (hnodes : ∀ ref n, w.node? ref = some n → v.node? ref = some n) : v.TakenIn r node := by
  cases h with
  | nothing => exact .nothing
  | node h => exact .node (hnodes _ _ h)

theorem Workspace.TakenIn.of_nodes (h : w.TakenIn r node) (hnodes : v.nodes = w.nodes) :
    v.TakenIn r node :=
  h.imp fun ref n hn => by
    rw [Workspace.node?, hnodes]
    exact hn

theorem Workspace.TakenIn.takes (h : w.TakenIn r node)
    (hat : ∀ record, r = some record → record.id = s.id) : s.Takes node := by
  cases h with
  | nothing => nofun
  | @node record ref now _ =>
      intro p hp
      obtain rfl := Option.some.inj hp
      exact congrArg some (hat record rfl)

end

/-! ## Bringing an edge up to date -/

section

variable {w w' u : Workspace} {name : String} {e e' : Edge} {row : Row} {columns : Columns}
  {record : EdgeRecord} {start finish : Option NodeRecord} {result : Except Failure Unit}

theorem Tried.same (h : Tried row columns w e result e') :
    e'.label = e.label ∧ (result ≠ .ok () → e'.ledger = e.ledger) := by
  cases h with
  | confirmed => exact ⟨rfl, fun hfailed => absurd rfl hfailed⟩
  | rejected h => cases h <;> exact ⟨rfl, fun _ => rfl⟩

theorem Tried.of_nodes (h : Tried row columns w e result e') (hnodes : w'.nodes = w.nodes) :
    Tried row columns w' e result e' := by
  cases h with
  | confirmed h hs hf => exact .confirmed h (hs.of_nodes hnodes) (hf.of_nodes hnodes)
  | rejected h =>
      refine .rejected ?_
      cases h with
      | record h => exact .record h
      | id h hcurrent hother => exact .id h hcurrent hother
      | startRecord h hstart => exact .startRecord h hstart
      | finishRecord h hstart hfinish => exact .finishRecord h hstart hfinish
      | start h hstart hfinish hother => exact .start h hstart hfinish hother
      | finish h hstart hfinish hat hother hs =>
          exact .finish h hstart hfinish hat hother (hs.of_nodes hnodes)

theorem Tried.failure (h : Tried row columns w e result e') {failure : Failure}
    (hresult : result = .error failure) : failure ≠ .cancelled := by
  cases h with
  | confirmed => cases hresult
  | rejected h =>
      obtain rfl := Except.error.inj hresult
      exact Failure.told_ne_cancelled (by cases h <;> nofun)

theorem Writer.applyCreated_apply {column startColumn finishColumn : String} {identified : Edge}
    (hrecord : returned row column = .ok record) (he : w.edge? name = some e)
    (hid : e.assignId (some record.id) = .ok identified) :
    applyCreated name row column startColumn finishColumn w =
      match nodeRecord row startColumn with
      | .error fault => (.error (Failure.badRecord fault).told, w.putEdge name identified)
      | .ok start =>
        let v := (w.putEdge name identified).takeIn start
        match nodeRecord row finishColumn with
        | .error fault => (.error (Failure.badRecord fault).told, v.2)
        | .ok finish =>
          let u := v.2.takeIn finish
          match identified.resolve v.1 u.1 with
          | (attached, some failure) => (.error failure, u.2.putEdge name attached)
          | (attached, none) => (.ok (), (u.2.putEdge name attached).putEdge name attached.commit) := by
  rw [applyCreated, hrecord, Task.bind_of_ok (Task.ofExcept_apply _ w),
    Task.bind_of_ok (Task.edge_of_some he), hid, Task.bind_of_ok (Task.ofExcept_apply _ w),
    Task.bind_of_ok (Task.putEdge_apply _ _ w), Task.bind_apply, fetched_apply]
  cases nodeRecord row startColumn with
  | error fault => rfl
  | ok start =>
      simp only
      rw [Task.bind_apply, fetched_apply]
      cases nodeRecord row finishColumn with
      | error fault => rfl
      | ok finish =>
          simp only
          rcases identified.resolve _ _ with ⟨attached, _ | failure⟩
          · rfl
          · rfl

theorem tried_attached {s f : Option (NodeRef × Node)} (h : Identifies row columns e record)
    (hstart : nodeRecord row columns.start = .ok start)
    (hfinish : nodeRecord row columns.finish = .ok finish) (hs : u.TakenIn start s)
    (hf : u.TakenIn finish f) (hstored : w.Stored name { e with id := some record.id } u)
    (happly : (match { e with id := some record.id }.resolve s f with
      | (attached, some failure) => (.error failure, u.putEdge name attached)
      | (attached, none) => (.ok (), (u.putEdge name attached).putEdge name attached.commit)) =
      (result, w')) :
    ∃ e', w.Stored name e' w' ∧ w'.connection = u.connection ∧ Tried row columns w' e result e' := by
  let identified : Edge := { e with id := some record.id }
  by_cases hat : ∀ node, start = some node → node.id = e.start.id
  · have htakes : identified.start.Takes s := hs.takes hat
    by_cases hat' : ∀ node, finish = some node → node.id = e.finish.id
    · have hresolve := Edge.resolve_of_takes htakes (hf.takes hat' : identified.finish.Takes f)
      rw [hresolve] at happly
      obtain ⟨rfl, rfl⟩ := Prod.mk.inj happly
      exact ⟨_, (hstored.putEdge _).putEdge _, rfl,
        .confirmed ⟨h, hstart, hfinish, hat, hat'⟩ (hs.of_nodes rfl) (hf.of_nodes rfl)⟩
    · simp only [Classical.not_forall] at hat'
      obtain ⟨node, rfl, hother⟩ := hat'
      cases hf with
      | @node _ ref now _ =>
          have hresolve := Edge.resolve_of_wrong_finish (p := (ref, Node.ofRecord now node)) htakes
            fun hid => hother (Option.some.inj hid)
          rw [hresolve] at happly
          obtain ⟨rfl, rfl⟩ := Prod.mk.inj happly
          exact ⟨_, hstored.putEdge _, rfl,
            .rejected (.finish h hstart hfinish hat hother (hs.of_nodes rfl))⟩
  · simp only [Classical.not_forall] at hat
    obtain ⟨node, rfl, hother⟩ := hat
    cases hs with
    | @node _ ref now _ =>
        have hresolve := Edge.resolve_of_wrong_start (e := identified)
          (p := (ref, Node.ofRecord now node)) f fun hid => hother (Option.some.inj hid)
        rw [hresolve] at happly
        obtain ⟨rfl, rfl⟩ := Prod.mk.inj happly
        exact ⟨_, hstored.putEdge _, rfl, .rejected (.start h hstart hfinish hother)⟩

theorem tried_identified (he : w.edge? name = some e) (h : Identifies row columns e record)
    (happly : applyCreated name row columns.edge columns.start columns.finish w = (result, w')) :
    ∃ e', w.Stored name e' w' ∧ w'.connection = w.connection ∧ Tried row columns w' e result e' := by
  let identified : Edge := { e with id := some record.id }
  have hput : w.Stored name identified (w.putEdge name identified) := w.stored_putEdge name identified
  rw [Writer.applyCreated_apply h.found he (Edge.assignId_own h.free)] at happly
  cases hstart : nodeRecord row columns.start with
  | error fault =>
      rw [hstart] at happly
      obtain ⟨rfl, rfl⟩ := Prod.mk.inj happly
      exact ⟨identified, hput, rfl, .rejected (.startRecord h hstart)⟩
  | ok start =>
      rw [hstart] at happly
      let v := (w.putEdge name identified).takeIn start
      have hv : w.Stored name identified v.2 := hput.of_edges (Workspace.edges_takeIn _ start)
      have hvconnection : v.2.connection = w.connection := Workspace.connection_takeIn _ start
      cases hfinish : nodeRecord row columns.finish with
      | error fault =>
          rw [hfinish] at happly
          obtain ⟨rfl, rfl⟩ := Prod.mk.inj happly
          exact ⟨identified, hv, hvconnection, .rejected (.finishRecord h hstart hfinish)⟩
      | ok finish =>
          rw [hfinish] at happly
          let u := v.2.takeIn finish
          have hu : w.Stored name identified u.2 := hv.of_edges (Workspace.edges_takeIn _ finish)
          have hs : u.2.TakenIn start v.1 :=
            (Workspace.takenIn_takeIn _ start).imp fun _ _ => Workspace.node?_takeIn
          have hf : u.2.TakenIn finish u.1 := Workspace.takenIn_takeIn _ finish
          obtain ⟨e', hstored, hconnection, htried⟩ :=
            tried_attached h hstart hfinish hs hf hu happly
          refine ⟨e', hstored, ?_, htried⟩
          rw [hconnection, Workspace.connection_takeIn]
          exact hvconnection

/-- Whatever the row holds, it confirms the edge or is rejected, and it decides what the edge is then. -/
theorem applyCreated_tried (columns : Columns) (he : w.edge? name = some e)
    (h : applyCreated name row columns.edge columns.start columns.finish w = (result, w')) :
    ∃ e', w.Stored name e' w' ∧ w'.connection = w.connection ∧ Tried row columns w' e result e' := by
  have hself : w.Stored name e w := w.stored_self he
  cases hrecord : returned row columns.edge with
  | error failure =>
      obtain ⟨fault, rfl⟩ := Writer.returned_eq_error hrecord
      rw [applyCreated, hrecord] at h
      obtain ⟨rfl, rfl⟩ := Prod.mk.inj h
      exact ⟨e, hself, rfl, .rejected (.record hrecord)⟩
  | ok record =>
      by_cases hfree : e.id = none ∨ e.id = some record.id
      · exact tried_identified he ⟨hrecord, hfree⟩ h
      · rw [not_or] at hfree
        obtain ⟨current, hcurrent⟩ := Option.ne_none_iff_exists'.mp hfree.1
        have hother : record.id ≠ current := fun hsame => hfree.2 (hsame ▸ hcurrent)
        rw [applyCreated, hrecord, Task.bind_of_ok (Task.ofExcept_apply _ w),
          Task.bind_of_ok (Task.edge_of_some he),
          Edge.assignId_other hcurrent fun hsame => hother (Option.some.inj hsame)] at h
        obtain ⟨rfl, rfl⟩ := Prod.mk.inj h
        exact ⟨e, hself, rfl, .rejected (.id hrecord hcurrent hother)⟩

end

end EdgeMapper
