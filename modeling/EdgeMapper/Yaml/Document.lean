import EdgeMapper.Yaml.Atom
import EdgeMapper.Yaml.Graph.Grammar
import EdgeMapper.Yaml.Graph.Merge
/-!
# What documents denote

The values of the nodes of a document. A collection is there before its members are, so it can hold
itself: each one that is met waits in a queue until its turn comes to be filled, and the first fault
that is met on the way is the fault of the document.
-/

namespace EdgeMapper.Yaml

inductive Item where
  | atom (a : Atom)
  | collection (id : NodeId)

inductive Collection where
  | list (items : List Item)
  | pairs (entries : List (Item × Item))
  | map (entries : List (Atom × Item))
  | set (members : List Atom)

namespace Collection

private def writeKey (key : Atom) (value : Item) : List (Atom × Item) → List (Atom × Item)
  | [] => [(key, value)]
  | (k, v) :: rest =>
    if k.sameKey key then (k, value) :: rest else (k, v) :: writeKey key value rest

/-- The map with these entries written one after another: a key that comes again keeps its place. -/
def ofEntries (entries : List (Atom × Item)) : List (Atom × Item) :=
  entries.foldl (fun written entry => writeKey entry.1 entry.2 written) []

end Collection

structure Construction where
  graph : Graph
  values : Array (Option Item)
  collections : Array (Option Collection)
  waiting : List NodeId := []

namespace Construction

def ofGraph (g : Graph) : Construction where
  graph := g
  values := Array.replicate g.size none
  collections := Array.replicate g.size none

abbrev Building (α : Type) := StateT Construction (Except Fault) α

/-- The value of a node. What a tag for collections asks for is checked when its turn comes. -/
private def item (id : NodeId) : Building Item := do
  let c ← get
  match c.values[id.index]?.join with
  | some found => pure found
  | none =>
    let found ← match c.graph.tag id with
      | .sequence => pure (.collection id)
      | .orderedMap => pure (.collection id)
      | .pairs => pure (.collection id)
      | .mapping => pure (.collection id)
      | .set => pure (.collection id)
      | _ => do pure (.atom (← Atom.ofNode c.graph id))
    let waiting := match found with
      | .collection _ => c.waiting ++ [id]
      | .atom _ => c.waiting
    set { c with values := c.values.setIfInBounds id.index (some found), waiting := waiting }
    pure found

private def members (id : NodeId) : Building (List NodeId) := do
  match (← get).graph.content id with
  | .sequence items => pure items
  | _ => throw .badNode

private def pair (id : NodeId) : Building (Item × Item) := do
  match (← get).graph.content id with
  | .mapping [(key, value)] => do
    let k ← item key
    pure (k, ← item value)
  | _ => throw .badNode

private def entry (nodes : NodeId × NodeId) : Building (Atom × Item) := do
  match ← item nodes.1 with
  | .atom key => do pure (key, ← item nodes.2)
  | .collection _ => throw .badNode

private def entries (id : NodeId) : Building (List (Atom × Item)) := do
  let c ← get
  match c.graph.content id with
  | .mapping _ => do
    match c.graph.merge id with
    | .ok graph => set { c with graph := graph }
    | .error fault => throw fault
    pure (Collection.ofEntries (← ((← get).graph.entries id).mapM entry))
  | _ => throw .badNode

private def fill (id : NodeId) : Building Unit := do
  let content ← match (← get).graph.tag id with
    | .sequence => do pure (.list (← (← members id).mapM item))
    | .orderedMap => do pure (.pairs (← (← members id).mapM pair))
    | .pairs => do pure (.pairs (← (← members id).mapM pair))
    | .set => do pure (.set ((← entries id).map Prod.fst))
    | _ => do pure (.map (← entries id))
  modify fun c =>
    { c with collections := c.collections.setIfInBounds id.index (some content) }

/-- Fills the collections that wait. Each waits once, so there are no more of them than nodes. -/
private def fillAll : Nat → Building Unit
  | 0 => pure ()
  | fuel + 1 => do
    match (← get).waiting with
    | [] => pure ()
    | id :: rest => do
      modify fun c => { c with waiting := rest }
      fill id
      fillAll fuel

private def build (root : NodeId) : Building Item := do
  let found ← item root
  fillAll ((← get).graph.size + 1)
  pure found

private def collection (c : Construction) (id : NodeId) : Collection :=
  (c.collections[id.index]?.join).getD (.list [])

/-! ## Texts -/

private def commas (items : List String) : String := ", ".intercalate items

private def brackets (text : String) : String := "[" ++ text ++ "]"

private def braces (text : String) : String := "\x7b" ++ text ++ "\x7d"

/-- The text of a value inside the collections `around`. A collection inside itself is left out; since
those around it all differ, there are no more of them than nodes. -/
private def literal (c : Construction) (around : List NodeId) : Nat → Item → Except Fault String
  | 0, _ => .error .endless
  | _, .atom a => a.literal
  | fuel + 1, .collection id =>
    let inner (value : Item) : Except Fault String := literal c (id :: around) fuel value
    let again := around.contains id
    match c.collection id with
    | .list items => if again then .ok "[...]" else (items.mapM inner).map (brackets ∘ commas)
    | .pairs entries =>
      if again then .ok "[...]"
      else
        (entries.mapM fun (key, value) => do
          .ok ("(" ++ (← inner key) ++ ", " ++ (← inner value) ++ ")")).map (brackets ∘ commas)
    | .map entries =>
      if again then .ok (braces "...")
      else
        (entries.mapM fun (key, value) => do
          .ok ((← Atom.literal key) ++ ": " ++ (← inner value))).map (braces ∘ commas)
    | .set [] => .ok "set()"
    | .set members => (members.mapM Atom.literal).map (braces ∘ commas)

private def plain (c : Construction) : Item → Except Fault String
  | .atom a => a.plain
  | value => c.literal [] (c.graph.size + 1) value

private def outline (c : Construction) : Nat → Item → Value
  | 0, _ => .null
  | _, .atom a => a.toValue
  | depth + 1, .collection id =>
    match c.collection id with
    | .list items => .list (items.map (outline c depth))
    | .pairs entries =>
      .list (entries.map fun (key, value) => .tuple [outline c depth key, outline c depth value])
    | .map entries => .map (entries.map fun (key, value) => (key.toValue, outline c depth value))
    | .set members => .set (members.map Atom.toValue)

end Construction

/-- An entry of the mapping that a document is: the key, and what there is to know of the value, which is
found out when it is asked for. -/
structure Entry where
  key : Atom
  text : Thunk (Except Fault String)
  outline : Thunk Value

inductive Document where
  | nothing
  | mapping (entries : List Entry)
  | other

namespace Document

private def ofItem (c : Construction) : Item → Document
  | .atom a => if a.isVacant then .nothing else .other
  | .collection id =>
    match c.collection id with
    | .map entries =>
      .mapping (entries.map fun (key, value) =>
        ⟨key, Thunk.mk fun _ => c.plain value, Thunk.mk fun _ => c.outline 4 value⟩)
    | .list [] => .nothing
    | .pairs [] => .nothing
    | .set [] => .nothing
    | _ => .other

def read (text : String) : Except Fault Document :=
  match Graph.ofScan (Scan.ofText text) with
  | .error fault => .error fault
  | .ok (_, none) => .ok .nothing
  | .ok (g, some root) =>
    ((Construction.build root).run (Construction.ofGraph g)).map fun (found, c) => ofItem c found

end Document

end EdgeMapper.Yaml
