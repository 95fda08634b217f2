import EdgeMapper.Yaml.Fault
import EdgeMapper.Yaml.Tag
/-!
# Graphs of nodes

What a text spells out: scalars, sequences and mappings, each with the type it has. A node can stand
in several places, and even inside itself, so nodes are known by their place in a graph.
-/

namespace EdgeMapper.Yaml

structure NodeId where
  index : Nat
  deriving DecidableEq, Repr

inductive Content where
  | scalar (text : String)
  | sequence (items : List NodeId)
  | mapping (entries : List (NodeId × NodeId))

structure Node where
  tag : Tag
  content : Content

def Node.empty : Node := ⟨.null, .scalar ""⟩

structure Graph where
  nodes : Array Node := #[]

namespace Graph

def size (g : Graph) : Nat := g.nodes.size

def node (g : Graph) (id : NodeId) : Node := g.nodes[id.index]?.getD .empty

def tag (g : Graph) (id : NodeId) : Tag := (g.node id).tag

def content (g : Graph) (id : NodeId) : Content := (g.node id).content

def entries (g : Graph) (id : NodeId) : List (NodeId × NodeId) :=
  match g.content id with
  | .mapping entries => entries
  | _ => []

def add (g : Graph) (n : Node) : NodeId × Graph := (⟨g.size⟩, { nodes := g.nodes.push n })

def setContent (g : Graph) (id : NodeId) (c : Content) : Graph :=
  { nodes := g.nodes.modify id.index fun n => { n with content := c } }

def setTag (g : Graph) (id : NodeId) (t : Tag) : Graph :=
  { nodes := g.nodes.modify id.index fun n => { n with tag := t } }

/-- The text of a scalar. A mapping has the text of the first node under its value key. -/
private def textWithin (g : Graph) : Nat → NodeId → Except Fault String
  | 0, _ => .error .endless
  | fuel + 1, id =>
    match g.content id with
    | .scalar text => .ok text
    | .sequence _ => .error .badNode
    | .mapping entries =>
      match entries.find? fun (key, _) => g.tag key = .value with
      | some (_, value) => textWithin g fuel value
      | none => .error .badNode

/-- The text of a node; one that has to be looked for farther than there are nodes is never found. -/
def text (g : Graph) (id : NodeId) : Except Fault String := g.textWithin (g.size + 1) id

end Graph

end EdgeMapper.Yaml
