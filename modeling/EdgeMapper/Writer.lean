import EdgeMapper.Cypher.Batch
import EdgeMapper.Delivery
/-!
# Writing edges

Runs compiled statements and applies their results. Compiling never touches an edge: this is where
ids are assigned and recorded changes are committed, and only once the server has returned the
relationship that it wrote. Events are emitted after all edges of a call have been brought up to
date.
-/

namespace EdgeMapper

open Cypher (Statement Options Batch.relName Batch.startName Batch.finishName
  Batch.numbered)

/-- Writes edges under an alias, which is never empty. -/
structure Writer where
  binding : String := "rel"

namespace Writer

def ofBinding (binding : String) : Writer := if binding = "" then {} else ⟨binding⟩

def options (writer : Writer) : Options := { binding := writer.binding }

def info (message : String) : Task Unit := Task.note [⟨.info, .writer, message⟩]

def compile (operation : Operation) (e : Edge) (o : Options) : Task Statement := do
  let s ← Task.ofExcept (Statement.ofEdge operation e o)
  Task.note (Statement.remarks operation e s)
  pure s

def compileBatch (operation : Operation) (edges : List Edge) (withReturn : Bool) :
    Task Statement := do
  let s ← Task.ofExcept (Cypher.Batch.ofEdges operation edges withReturn)
  Task.note (Cypher.Batch.remarks operation edges)
  pure s

def firstRow (fault : AnswerFault) : List Row → Task Row
  | [] => throw (.badAnswer fault)
  | row :: _ => pure row

/-- The relationship record in a column of a row. It is not dated: what is made of it is dropped once its
id is known, and a steady clock that has gone on in the meantime is still a steady clock. -/
def returned (row : Row) (column : String) : Except Failure EdgeRecord :=
  match row.get? column with
  | none => .error (.badAnswer (.noColumn column))
  | some value =>
    match EdgeRecord.ofValue value with
    | .ok record => .ok record
    | .error fault => .error (Failure.badAnswer (.notARelationship column fault)).told

/-- The node record in a column of a row; what is no record at all counts as absent. -/
def fetched (row : Row) (column : String) : Task (Option (NodeRef × Node)) := do
  match row.get? column with
  | some (.record tag fields) =>
    match NodeRecord.ofValue (.record tag fields) with
    | .ok record => do
      let n := Node.ofRecord (← Task.now) record
      let ref ← modifyGet (·.addNode n)
      pure (some (ref, n))
    | .error fault => throw (Failure.badRecord fault).told
  | _ => pure none

def applyCreated (name : String) (row : Row) (column startColumn finishColumn : String) :
    Task Unit := do
  let record ← Task.ofExcept (returned row column)
  let e ← Task.edge name
  let e ← Task.ofExcept (e.assignId (some record.id))
  Task.putEdge name e
  let start ← fetched row startColumn
  let finish ← fetched row finishColumn
  let (e, failure) := e.resolve start finish
  Task.putEdge name e
  match failure with
  | some failure => throw failure
  | none => Task.putEdge name e.commit

def create (writer : Writer) (behaviour : Behaviour) (name : String) : Task String := do
  let e ← Task.edge name
  let s ← compile .create e writer.options
  let row ← firstRow .nothingCreated (← Task.send s)
  applyCreated name row writer.binding "fromNode" "toNode"
  let e ← Task.edge name
  info ("Created relationship " ++ Literal.ofId e.id ++ " (" ++ e.label ++ ")")
  Task.announce behaviour .created [(name, [])]
  pure name

def applyAllCreated (row : Row) : List (Nat × String) → Task Unit
  | [] => pure ()
  | (i, name) :: rest => do
    applyCreated name row (Batch.relName i) (Batch.startName i) (Batch.finishName i)
    applyAllCreated row rest

def createMany (behaviour : Behaviour) (names : List String) : Task (List String) := do
  let edges ← names.mapM Task.edge
  let s ← compileBatch .create edges true
  let row ← firstRow .nothingCreatedInBatch (← Task.send s)
  applyAllCreated row (Batch.numbered names)
  info ("Created " ++ toString names.length ++ " relationships")
  Task.announce behaviour .created (names.map fun name => (name, []))
  pure names

def unwritable (e : Edge) : LogEntry :=
  ⟨.warning, .writer, "Relationship " ++ Literal.ofId e.id ++ " has a label change to "
    ++ Literal.ofText e.label
    ++ " that cannot be written; delete it and create a new one instead"⟩

/-- Writes the recorded property changes; answers whether there were any. A change of the label alone
is never written, for a relationship cannot be relabelled: it is logged, and the edge stays
modified. -/
def update (writer : Writer) (behaviour : Behaviour) (name : String) : Task Bool := do
  let e ← Task.edge name
  if e.isDirty then
    let s ← compile .update e writer.options
    let row ← firstRow (.nothingUpdated e.id) (← Task.send s)
    let _ ← Task.ofExcept (returned row writer.binding)
    Task.putEdge name e.commit
    info ("Updated relationship " ++ Literal.ofId e.id)
    Task.announce behaviour .updated [(name, e.ledger.changedKeys)]
    pure true
  else
    Task.note (if e.ledger.modified then [unwritable e] else [])
    pure false

def checkReturned (row : Row) : List Nat → Except Failure Unit
  | [] => .ok ()
  | i :: rest =>
    match returned row (Batch.relName i) with
    | .ok _ => checkReturned row rest
    | .error failure => .error failure

/-- Writes the recorded changes of all dirty edges with one statement; answers how many there were.
Nothing is committed unless the server returned every one of them. -/
def updateMany (behaviour : Behaviour) (names : List String) : Task Nat := do
  let edges ← names.mapM fun name => do pure (name, ← Task.edge name)
  let dirty := edges.filter (·.2.isDirty)
  if dirty.isEmpty then pure 0
  else
    let s ← compileBatch .update (dirty.map Prod.snd) true
    let row ← firstRow (.nothingUpdatedInBatch (dirty.map (·.2.id))) (← Task.send s)
    Task.ofExcept (checkReturned row ((Batch.numbered dirty).map Prod.fst))
    dirty.forM fun (name, e) => Task.putEdge name e.commit
    info ("Updated " ++ toString dirty.length ++ " relationships")
    Task.announce behaviour .updated (dirty.map fun (name, e) => (name, e.ledger.changedKeys))
    pure dirty.length

def delete (writer : Writer) (behaviour : Behaviour) (name : String) : Task Unit := do
  let e ← Task.edge name
  let s ← compile .delete e writer.options
  let _ ← Task.send s
  info ("Deleted relationship " ++ Literal.ofId e.id)
  Task.announce behaviour .deleted [(name, [])]

def deleteMany (behaviour : Behaviour) (names : List String) : Task Unit := do
  let edges ← names.mapM Task.edge
  let s ← compileBatch .delete edges true
  let _ ← Task.send s
  info ("Deleted " ++ toString names.length ++ " relationships")
  Task.announce behaviour .deleted (names.map fun name => (name, []))

end Writer

end EdgeMapper
