import EdgeMapper.Edge
import EdgeMapper.Log
/-!
# Statements for one edge

Compiling only reads an edge: nothing on it is reset or recorded. Names given by the user are quoted,
property values are always bound as parameters, and only ids are written into the text as they are. Ids
come from the server and fit sixty-four bits; one that is given to an edge by hand is taken to fit them
too, so that it is never too long to be written.
-/

namespace EdgeMapper.Cypher

structure Statement where
  template : Template
  parameters : OrderedMap String Value := ∅
  deriving DecidableEq

structure Options where
  binding : String := "rel"
  withReturn : Bool := true
  suffix : String := ""
  deriving DecidableEq

namespace Statement

def text (s : Statement) : String := s.template.text

/-- The names that the matches of a create statement bind. -/
def endpointNames : List String := ["fromNode", "toNode"]

def suffixed (properties : OrderedMap String Value) (suffix : String) : List (String × Value) :=
  properties.entries.map fun entry => (entry.1 ++ suffix, entry.2)

def create (e : Edge) (o : Options) : Except Failure Statement :=
  if endpointNames.contains o.binding then .error (.refused (.nameTaken o.binding))
  else
    let name := bindingName o.binding
    let properties := propertyMap e.ledger.current.keys o.suffix
    let returned := (if o.binding = "" then [] else [name]) ++ [[.fixed "fromNode"], [.fixed "toNode"]]
    .ok {
      template := Template.lines (
        [matchNode "fromNode" e.start.id,
          matchNode "toNode" e.finish.id,
          .fixed "CREATE " ::
            relationship "fromNode" "toNode" name e.label properties e.direction]
          ++ if o.withReturn then [.fixed "RETURN " :: Template.join "," returned] else [])
      parameters := OrderedMap.ofList (suffixed e.ledger.current o.suffix) }

def assignments (e : Edge) (binding : Template) (suffix : String) : List Template :=
  e.ledger.pending.keys.map fun key =>
    binding ++ .fixed "." :: .name key :: .fixed " = " :: parameter (key ++ suffix)

def removals (e : Edge) (binding : Template) : List Template :=
  e.ledger.removed.map fun key => binding ++ [.fixed ".", .name key]

def clause (keyword : String) (items : List Template) : List Template :=
  if items.isEmpty then [] else [.fixed keyword :: Template.list items]

def matchEdge (binding : Template) (id : Int) : List Template :=
  [.fixed "MATCH ()-[" :: (binding ++ [.fixed "]->()"]),
    .fixed "WHERE id(" :: (binding ++ [.fixed (") = " ++ toString id)])]

/-- The id and the quoted alias that a statement about an existing edge needs; the id comes first. -/
def target (operation : Operation) (e : Edge) (o : Options) :
    Except Failure (Int × Template) :=
  match e.id with
  | none => .error (.missingId (.single operation))
  | some id =>
    if o.binding = "" then .error (.refused (.noBinding operation)) else .ok (id, [.name o.binding])

def update (e : Edge) (o : Options) : Except Failure Statement :=
  (target .update e o).map fun (id, binding) =>
    { template := Template.lines (
        matchEdge binding id
          ++ clause "SET " (assignments e binding o.suffix)
          ++ clause "REMOVE " (removals e binding)
          ++ if o.withReturn then [.fixed "RETURN " :: binding] else [])
      parameters := OrderedMap.ofList (suffixed e.ledger.pending o.suffix) }

def delete (e : Edge) (o : Options) : Except Failure Statement :=
  (target .delete e o).map fun (id, binding) =>
    { template := Template.lines (matchEdge binding id ++ [.fixed "DELETE " :: binding]) }

def ofEdge (operation : Operation) (e : Edge) (o : Options) : Except Failure Statement :=
  match operation with
  | .create => create e o
  | .update => update e o
  | .delete => delete e o

def remarks (operation : Operation) (e : Edge) (s : Statement) : List LogEntry :=
  (match operation, e.id with
    | .create, some id =>
      [⟨.warning, .statements,
        "Compiling create for relationship " ++ toString id ++ " that already has an id"⟩]
    | _, _ => [])
    ++ [⟨.debug, .statements,
      "Compiled statement with " ++ toString s.parameters.size ++ " parameters:\n" ++ s.text⟩]

end Statement

end EdgeMapper.Cypher
