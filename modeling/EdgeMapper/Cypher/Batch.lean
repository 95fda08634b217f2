import EdgeMapper.Cypher.Statement
/-!
# Statements for several edges

One statement for a whole list of edges. The edge at position `i`, counted from one, is bound to
`rel<i>`, its endpoints to `fromNode<i>` and `toNode<i>`, and its parameters end in `<i>`. Two edges
can still spell the same parameter, as `a1` at position 1 and `a` at position 11 do, and then the
batch is refused. Ids are taken to fit sixty-four bits, as in a statement for one edge.
-/

namespace EdgeMapper.Cypher.Batch

open Statement (suffixed assignments removals clause)

/-- An edge that has an id, at its position in a batch. -/
structure Target where
  position : Nat
  id : Int
  edge : Edge

def relName (position : Nat) : String := "rel" ++ toString position

def startName (position : Nat) : String := "fromNode" ++ toString position

def finishName (position : Nat) : String := "toNode" ++ toString position

def numbered {α : Type} (items : List α) : List (Nat × α) :=
  items.zipIdx.map fun (item, index) => (index + 1, item)

def bind (bound : OrderedMap String Value) :
    List (String × Value) → Except Failure (OrderedMap String Value)
  | [] => .ok bound
  | (name, value) :: rest =>
    if bound.contains name then .error (.refused (.sharedParameter name))
    else bind (bound.insert name value) rest

def created (position : Nat) (e : Edge) : Template :=
  relationship (startName position) (finishName position) [.fixed (relName position)] e.label
    (propertyMap e.ledger.current.keys (toString position)) e.direction

def create (edges : List Edge) (withReturn : Bool) : Except Failure Statement :=
  if edges.isEmpty then .error (.refused .emptyBatch)
  else
    let items := numbered edges
    let entries := items.flatMap fun (i, e) => suffixed e.ledger.current (toString i)
    (bind ∅ entries).map fun parameters =>
      { template := Template.lines (
          (items.flatMap fun (i, e) =>
              [matchNode (startName i) e.start.id, matchNode (finishName i) e.finish.id])
            ++ [.fixed "CREATE " :: Template.join ",\n  " (items.map fun (i, e) => created i e)]
            ++ if withReturn then
                [.fixed "RETURN " :: Template.join "," (items.flatMap fun (i, _) =>
                  [[.fixed (relName i)], [.fixed (startName i)], [.fixed (finishName i)]])]
              else [])
        parameters := parameters }

/-- The ids of all edges and the parameters of their updates, or the first thing that is wrong: at
each position a missing id comes before a name that is bound already. -/
def targets : List (Nat × Edge) → OrderedMap String Value →
    Except Failure (List Target × OrderedMap String Value)
  | [], bound => .ok ([], bound)
  | (i, e) :: rest, bound =>
    match e.id with
    | none => .error (.missingId (.batch i))
    | some id =>
      match bind bound (suffixed e.ledger.pending (toString i)) with
      | .error failure => .error failure
      | .ok bound => (targets rest bound).map fun (found, bound) => (⟨i, id, e⟩ :: found, bound)

def matchTarget (t : Target) : Template :=
  let name := relName t.position
  [.fixed ("MATCH ()-[" ++ name ++ "]->() WHERE id(" ++ name ++ ") = " ++ toString t.id)]

def update (edges : List Edge) (withReturn : Bool) : Except Failure Statement :=
  if edges.isEmpty then .error (.refused .emptyBatch)
  else
    (targets (numbered edges) ∅).map fun (found, parameters) =>
      let binding (t : Target) : Template := [.fixed (relName t.position)]
      { template := Template.lines (
          found.map matchTarget
            ++ clause "SET " (found.flatMap fun t =>
              assignments t.edge (binding t) (toString t.position))
            ++ clause "REMOVE " (found.flatMap fun t => removals t.edge (binding t))
            ++ if withReturn then [.fixed "RETURN " :: Template.join "," (found.map binding)] else [])
        parameters := parameters }

def ids : List (Nat × Edge) → Except Failure (List Int)
  | [] => .ok []
  | (i, e) :: rest =>
    match e.id with
    | none => .error (.missingId (.batch i))
    | some id => (ids rest).map (id :: ·)

def delete (edges : List Edge) : Except Failure Statement :=
  if edges.isEmpty then .error (.refused .emptyBatch)
  else
    (ids (numbered edges)).map fun found =>
      { template := [.fixed ("MATCH ()-[rel]->()\nWHERE id(rel) IN ["
          ++ ", ".intercalate (found.map toString) ++ "]\nDELETE rel")] }

def ofEdges (operation : Operation) (edges : List Edge) (withReturn : Bool) :
    Except Failure Statement :=
  match operation with
  | .create => create edges withReturn
  | .update => update edges withReturn
  | .delete => delete edges

def remarks (operation : Operation) (edges : List Edge) : List LogEntry :=
  match operation with
  | .delete => []
  | _ =>
    [⟨.debug, .batches, "Compiled batch " ++ operation.name ++ " of " ++ toString edges.length
      ++ " relationships"⟩]

end EdgeMapper.Cypher.Batch
