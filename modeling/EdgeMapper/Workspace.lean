import EdgeMapper.Connection
import EdgeMapper.Subscriptions
/-!
# Workspaces

Everything that a series of operations works on: the clock, the nodes and edges, the subscriptions,
the connection, and what has been heard and logged so far. A `Task` is an operation on a workspace
that may fail; what it changed before it failed stays changed.
-/

namespace EdgeMapper

/-- A clock with the readings it is going to give. After these it moves on by one microsecond at
every reading. -/
structure Clock where
  upcoming : List Instant := []
  last : Instant := ⟨0⟩
  deriving DecidableEq

def Clock.read (c : Clock) : Instant × Clock :=
  match c.upcoming with
  | t :: rest => (t, ⟨rest, t⟩)
  | [] => (⟨c.last.micros + 1⟩, ⟨[], ⟨c.last.micros + 1⟩⟩)

structure Workspace where
  clock : Clock := {}
  nodes : List Node := []
  edges : OrderedMap String Edge := ∅
  subscriptions : Subscriptions := {}
  connection : Connection := {}
  heard : List (ListenerId × Event) := []
  log : List LogEntry := []

namespace Workspace

def node? (w : Workspace) (ref : NodeRef) : Option Node := w.nodes[ref.index]?

def edge? (w : Workspace) (name : String) : Option Edge := w.edges.get? name

def tick (w : Workspace) : Instant × Workspace :=
  let (now, clock) := w.clock.read
  (now, { w with clock := clock })

def addNode (w : Workspace) (n : Node) : NodeRef × Workspace :=
  (⟨w.nodes.length⟩, { w with nodes := w.nodes ++ [n] })

def modifyNode (w : Workspace) (ref : NodeRef) (f : Node → Node) : Workspace :=
  { w with nodes := w.nodes.modify ref.index f }

def putEdge (w : Workspace) (name : String) (e : Edge) : Workspace :=
  { w with edges := w.edges.insert name e }

def note (w : Workspace) (entries : List LogEntry) : Workspace := { w with log := w.log ++ entries }

def hear (w : Workspace) (l : ListenerId) (event : Event) : Workspace :=
  { w with heard := w.heard ++ [(l, event)] }

def writeProperty (w : Workspace) (name key : String) (value : Value) : Option Workspace :=
  (w.edge? name).map fun e =>
    let (now, w) := w.tick
    w.putEdge name (e.write now key value)

def relabel (w : Workspace) (name label : String) : Option Workspace :=
  (w.edge? name).map fun e =>
    let (now, w) := w.tick
    w.putEdge name (e.relabel now label)

end Workspace

abbrev Task (α : Type) := ExceptT Failure (StateM Workspace) α

namespace Task

def ofExcept {α : Type} : Except Failure α → Task α
  | .ok a => pure a
  | .error failure => throw failure

def edge (name : String) : Task Edge := do
  match (← get).edge? name with
  | some e => pure e
  | none => throw (.unknownName name)

def putEdge (name : String) (e : Edge) : Task Unit := modify (·.putEdge name e)

def modifyEdge (name : String) (f : Edge → Edge) : Task Unit := do putEdge name (f (← edge name))

def now : Task Instant := modifyGet (·.tick)

def note (entries : List LogEntry) : Task Unit := modify (·.note entries)

def send (s : Cypher.Statement) : Task (List Row) := do
  let (connection, answer) := (← get).connection.send s
  modify fun w => { w with connection := connection }
  ofExcept answer

end Task

end EdgeMapper
