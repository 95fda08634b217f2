import EdgeMapper.Writer
/-!
# Sessions

A workspace in which nodes and listeners have names as well as edges, the listeners follow scripts,
and one writer is in use. A name that is taken can be given anew; what had it before lives on where
it is still referred to: as the node of an endpoint, or among the subscriptions.
-/

namespace EdgeMapper

open Cypher (Statement Options Direction)

inductive ScriptLine where
  | subscribe (listener : String) (topic : Topic)
  | unsubscribe (listener : String)
  | clear
  | write (edge key : String) (value : Value)
  | relabel (edge label : String)
  | unknown

/-- What a listener does whenever it is called. -/
structure Script where
  name : String
  lines : List ScriptLine := []
  ending : Ending := .returned

structure Session where
  workspace : Workspace := {}
  nodeNames : OrderedMap String NodeRef := ∅
  listenerNames : OrderedMap String ListenerId := ∅
  scripts : List Script := []
  writer : Writer := {}

namespace Session

def script? (s : Session) (l : ListenerId) : Option Script := s.scripts[l.index]?

private def action? (s : Session) : ScriptLine → Option Action
  | .subscribe listener topic => (s.listenerNames.get? listener).map (.subscribe · topic)
  | .unsubscribe listener => (s.listenerNames.get? listener).map .unsubscribe
  | .clear => some .clear
  | .write edge key value => some (.write edge key value)
  | .relabel edge label => some (.relabel edge label)
  | .unknown => none

/-- The script with its names looked up; it fails at the first line that cannot be carried out. -/
private def reaction (s : Session) (ending : Ending) : List ScriptLine → Reaction
  | [] => ⟨[], ending⟩
  | line :: rest =>
    match s.action? line with
    | none => ⟨[], .failed⟩
    | some action =>
      let after := reaction s ending rest
      ⟨action :: after.actions, after.ending⟩

def behaviour (s : Session) : Behaviour := fun _ l _ =>
  match s.script? l with
  | some script => s.reaction script.ending script.lines
  | none => {}

def withoutRecords (s : Session) : Session :=
  { s with workspace :=
    { s.workspace with
      heard := [], log := [], connection := { s.workspace.connection with received := [] } } }

/-- The names of the edges that both sessions hold and that were edited in between, in order. -/
def touched (before after : Session) : List String :=
  (before.workspace.edges.entries.filterMap fun (name, old) =>
    match after.workspace.edge? name with
    | some new => if new.created = old.created ∧ new.updated ≠ old.updated then some name else none
    | none => none).mergeSort (· ≤ ·)

end Session

abbrev SessionTask (α : Type) := ExceptT Failure (StateM Session) α

namespace SessionTask

def onWorkspace {α : Type} (t : Task α) : SessionTask α := fun s =>
  let (result, w) := t s.workspace
  (result, { s with workspace := w })

private def ofExcept {α : Type} (result : Except Failure α) : SessionTask α :=
  onWorkspace (Task.ofExcept result)

private def read {α : Type} (reading : Reading α) : SessionTask α :=
  ofExcept (reading.mapError .invalid)

private def now : SessionTask Instant := onWorkspace Task.now

/-! ## Nodes -/

def node (name : String) : SessionTask (NodeRef × Node) := do
  let s ← get
  match s.nodeNames.get? name with
  | none => throw (.unknownName name)
  | some ref =>
    match s.workspace.node? ref with
    | none => throw (.unknownName name)
    | some n => pure (ref, n)

private def addNode (name : String) (n : Node) : SessionTask Unit :=
  modify fun s =>
    let (ref, w) := s.workspace.addNode n
    { s with workspace := w, nodeNames := s.nodeNames.insert name ref }

private def modifyNode (name : String) (f : Node → Node) : SessionTask Unit := do
  let (ref, _) ← node name
  modify fun s => { s with workspace := s.workspace.modifyNode ref f }

def makeNode (name : String) (id labels properties : Option Value) : SessionTask Unit := do
  addNode name (← read (Node.ofInput (← now) id labels properties))

def decodeNode (name : String) (value : Value) : SessionTask Unit := do
  match NodeRecord.ofValue value with
  | .ok record => addNode name (Node.ofRecord (← now) record)
  | .error fault => throw (Failure.badRecord fault).told

def writeNode (name key : String) (value : Value) : SessionTask Unit :=
  modifyNode name (·.write key value)

def readNode (name key : String) : SessionTask Value := do
  let (_, n) ← node name
  pure (n.ledger.read key)

def assignNodeId (name : String) (id : Option Int) : SessionTask Unit :=
  modifyNode name (·.assignId id)

/-! ## Edges -/

def edge (name : String) : SessionTask Edge := onWorkspace (Task.edge name)

private def putEdge (name : String) (e : Edge) : SessionTask Unit :=
  onWorkspace (Task.putEdge name e)

private def modifyEdge (name : String) (f : Edge → Edge) : SessionTask Unit :=
  onWorkspace (Task.modifyEdge name f)

def relateIds (name : String) (start finish label direction properties : Option Value) :
    SessionTask Unit := do
  let created ← now
  let updated ← now
  putEdge name (← ofExcept (Edge.ofIds created updated start finish label direction properties))

def relateNodes (name start finish : String) (label direction properties : Option Value) :
    SessionTask Unit := do
  let s ← node start
  let f ← node finish
  let created ← now
  let updated ← now
  putEdge name (← ofExcept (Edge.between created updated s f label direction properties))

def decodeEdge (name : String) (value : Value) : SessionTask Unit := do
  match EdgeRecord.ofValue value with
  | .ok record => do
    let created ← now
    let updated ← now
    putEdge name (Edge.ofRecord created updated record)
  | .error fault => throw (Failure.badRecord fault).told

def writeEdge (name key : String) (value : Value) : SessionTask Unit := do
  let e ← edge name
  putEdge name (e.write (← now) key value)

def readEdge (name key : String) : SessionTask Value := do pure ((← edge name).ledger.read key)

def relabelEdge (name label : String) : SessionTask Unit := do
  let e ← edge name
  putEdge name (e.relabel (← now) label)

def turnEdge (name : String) (direction : Direction) : SessionTask Unit :=
  modifyEdge name (·.turn direction)

def commitEdge (name : String) : SessionTask Unit := modifyEdge name Edge.commit

def markEdgeModified (name : String) : SessionTask Unit := modifyEdge name Edge.markModified

def assignEdgeId (name : String) (id : Option Int) : SessionTask Unit := do
  putEdge name (← ofExcept ((← edge name).assignId id))

def adoptEdgeId (name : String) (value : Value) : SessionTask Unit := do
  putEdge name (← ofExcept ((← edge name).adoptId value))

private def node? : Option String → SessionTask (Option (NodeRef × Node))
  | none => pure none
  | some name => do pure (some (← node name))

def resolveEdge (name : String) (start finish : Option String) : SessionTask Unit := do
  let e ← edge name
  let s ← node? start
  let f ← node? finish
  let (e, failure) := e.resolve s f
  putEdge name e
  match failure with
  | some failure => throw failure
  | none => pure ()

/-! ## Statements -/

def compile (name kind : String) (o : Options) : SessionTask Statement := do
  let e ← edge name
  match Operation.ofName? kind with
  | some operation => onWorkspace (Writer.compile operation e o)
  | none => throw (.refused (.unknownOperation kind))

def compileBatch (operation : Operation) (names : List String) (withReturn : Bool) :
    SessionTask Statement := do
  let edges ← names.mapM edge
  onWorkspace (Writer.compileBatch operation edges withReturn)

/-! ## Events -/

private def listener (name : String) : SessionTask ListenerId := do
  match (← get).listenerNames.get? name with
  | some l => pure l
  | none => throw (.unknownName name)

private def modifySubscriptions (f : Subscriptions → Subscriptions) : SessionTask Unit :=
  modify fun s =>
    { s with workspace := { s.workspace with subscriptions := f s.workspace.subscriptions } }

def define (script : Script) : SessionTask Unit :=
  modify fun s =>
    { s with
      scripts := s.scripts ++ [script]
      listenerNames := s.listenerNames.insert script.name ⟨s.scripts.length⟩ }

def subscribe (name : String) (topic : Topic) : SessionTask Unit := do
  let l ← listener name
  modifySubscriptions (·.subscribe l topic)

def unsubscribe (name : String) : SessionTask Unit := do
  let l ← listener name
  modifySubscriptions (·.unsubscribe l)

def clear : SessionTask Unit := modifySubscriptions fun _ => .clear

private def withBehaviour {α : Type} (t : Behaviour → Task α) : SessionTask α := do
  onWorkspace (t (← get).behaviour)

def emit (event : Reading Event) : SessionTask Nat := do
  let event ← read event
  withBehaviour fun b => Task.emit b event

def emitFor (type : EventType) (name : String) (keys : List String) : SessionTask Nat := do
  let e ← edge name
  withBehaviour fun b => Task.emit b (Event.ofEdge type e keys)

/-! ## Writing -/

/-- Takes a new writer into use, and answers the alias it writes under. -/
def useBinding (binding : String) : SessionTask String := do
  let writer := Writer.ofBinding binding
  modify fun s => { s with writer := writer }
  pure writer.binding

def expect (answer : Answer) : SessionTask Unit :=
  onWorkspace (modify fun w => { w with connection := w.connection.expect answer })

private def withWriter {α : Type} (t : Writer → Behaviour → Task α) : SessionTask α := do
  let s ← get
  onWorkspace (t s.writer s.behaviour)

def create (name : String) : SessionTask String := withWriter fun w b => w.create b name

def createMany (names : List String) : SessionTask (List String) :=
  withWriter fun _ b => Writer.createMany b names

def update (name : String) : SessionTask Bool := withWriter fun w b => w.update b name

def updateMany (names : List String) : SessionTask Nat :=
  withWriter fun _ b => Writer.updateMany b names

def delete (name : String) : SessionTask Unit := withWriter fun w b => w.delete b name

def deleteMany (names : List String) : SessionTask Unit :=
  withWriter fun _ b => Writer.deleteMany b names

end SessionTask

end EdgeMapper
