import EdgeMapper.Yaml.Graph
/-!
# Merging

A mapping takes in the mappings under its merge keys. The entries that it takes in come first, so its
own ones overrule them; of a list of mappings the last one comes first. What is merged has its own
merges carried out before, and loses its merge keys for good, so a mapping that merges itself finds
nothing more to do.
-/

namespace EdgeMapper.Yaml.Graph

private def isMerge (g : Graph) (entry : NodeId × NodeId) : Bool := g.tag entry.1 = .merge

private def splitMerge (g : Graph) :
    List (NodeId × NodeId) → Option (List (NodeId × NodeId) × NodeId)
  | [] => none
  | entry :: rest =>
    if g.isMerge entry then some (rest, entry.2)
    else (g.splitMerge rest).map fun (others, merged) => (entry :: others, merged)

private def nameValueKeys (g : Graph) (entries : List (NodeId × NodeId)) : Graph :=
  entries.foldl (fun g (key, _) => if g.tag key = .value then g.setTag key .text else g) g

abbrev Merging (α : Type) := StateT Graph (Except Fault) α

/-- Carries out the merges of a mapping that has taken in the entries `front` so far. Every round takes
one merge key out of the graph, so there are no more rounds than merge keys. -/
private def mergeFrom : Nat → NodeId → List (NodeId × NodeId) → Merging Unit
  | 0, _, _ => throw .endless
  | fuel + 1, id, front => do
    let g ← get
    match g.splitMerge (g.entries id) with
    | none =>
      let entries := g.entries id
      set ((g.nameValueKeys entries).setContent id (.mapping (front ++ entries)))
    | some (others, merged) => do
      set (g.setContent id (.mapping others))
      let taken (source : NodeId) : Merging (List (NodeId × NodeId)) := do
        match (← get).content source with
        | .mapping _ => do
          mergeFrom fuel source []
          pure ((← get).entries source)
        | _ => throw .badNode
      let more ← match g.content merged with
        | .sequence items => do pure (← items.mapM taken).reverse.flatten
        | _ => taken merged
      mergeFrom fuel id (front ++ more)

private def mergeCount (g : Graph) : Nat :=
  g.nodes.foldl (fun count n =>
    match n.content with
    | .mapping entries => count + entries.countP g.isMerge
    | _ => count) 0

def merge (g : Graph) (id : NodeId) : Except Fault Graph :=
  ((mergeFrom (g.mergeCount + 1) id []).run g).map Prod.snd

end EdgeMapper.Yaml.Graph
