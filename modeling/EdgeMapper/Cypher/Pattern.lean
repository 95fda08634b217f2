import EdgeMapper.Cypher.Template
/-!
# Parts of a statement

The phrases from which every statement is built: a node found by its id, a parameter reference, a
property map, and the pattern of one relationship.
-/

namespace EdgeMapper.Cypher

inductive Direction where
  | forward
  | reverse
  deriving DecidableEq, Repr

def bindingName (binding : String) : Template := if binding = "" then [] else [.name binding]

/-- A plain name follows the sign as it is, any other as a quoted identifier. -/
def parameter (name : String) : Template :=
  if Identifier.isPlain name.toList then [.fixed ("$" ++ name)] else [.fixed "$", .name name]

def mapEntry (suffix key : String) : Template :=
  .name key :: .fixed ": " :: parameter (key ++ suffix)

def propertyMap (keys : List String) (suffix : String) : Template :=
  if keys.isEmpty then []
  else .fixed "\x7b" :: (Template.list (keys.map (mapEntry suffix)) ++ [.fixed "\x7d"])

/-- The start and the finish keep their places in a reversed pattern: only the arrow turns. -/
def relationship (start finish : String) (binding : Template) (label : String) (properties : Template)
    (direction : Direction) : Template :=
  let body := .fixed "[" :: (binding ++ .fixed ":" :: .name label :: (properties ++ [.fixed "]"]))
  match direction with
  | .forward => .fixed ("(" ++ start ++ ")-") :: (body ++ [.fixed ("->(" ++ finish ++ ")")])
  | .reverse => .fixed ("(" ++ start ++ ")<-") :: (body ++ [.fixed ("-(" ++ finish ++ ")")])

def matchNode (name : String) (id : Int) : Template :=
  [.fixed ("MATCH (" ++ name ++ ") WHERE id(" ++ name ++ ") = " ++ toString id)]

end EdgeMapper.Cypher
