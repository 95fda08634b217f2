import EdgeMapper.Edge
/-!
# Events

What happened to which edge. An update names the property keys that were written or removed; the
other events name none.
-/

namespace EdgeMapper

inductive EventType where
  | created
  | updated
  | deleted
  deriving DecidableEq, Repr

namespace EventType

def name : EventType → String
  | created => "edge.created"
  | updated => "edge.updated"
  | deleted => "edge.deleted"

def ofName? (name : String) : Option EventType := [created, updated, deleted].find? (·.name = name)

end EventType

structure Event where
  type : EventType
  id : Option Int
  start : Int
  finish : Int
  label : String
  keys : List String := []
  deriving DecidableEq, Repr

namespace Event

def ofEdge (type : EventType) (e : Edge) (keys : List String) : Event :=
  { type := type, id := e.id, start := e.start.id, finish := e.finish.id, label := e.label,
    keys := keys }

private def readType (value : Value) : Reading EventType :=
  match (value.readText.toOption).bind EventType.ofName? with
  | some type => .ok type
  | none => Reading.reject .notMember

/-- Reads an event from untyped input. Ids have no bounds here, and the event's own may be null. -/
def ofInput (type id start finish label keys : Option Value) : Reading Event :=
  (Reading.both (Reading.required "type" readType type)
    (Reading.both (Reading.required "id" (Value.readOptional Value.readWhole) id)
      (Reading.both (Reading.required "from_id" Value.readWhole start)
        (Reading.both (Reading.required "to_id" Value.readWhole finish)
          (Reading.both (Reading.required "label" Value.readText label)
            (Reading.withDefault "keys" [] (Value.readTexts .notTuple) keys)))))).map
    fun (t, i, s, f, l, ks) => { type := t, id := i, start := s, finish := f, label := l, keys := ks }

end Event

end EdgeMapper
