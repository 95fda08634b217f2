import EdgeMapper.Instant
import EdgeMapper.PropertyLedger
import EdgeMapper.Record
/-!
# Nodes

A labelled vertex, known by the id that the server gave it.
-/

namespace EdgeMapper

structure Node where
  id : Option Int := none
  labels : List String := []
  ledger : PropertyLedger := {}
  created : Instant
  deriving DecidableEq

namespace Node

def ofRecord (now : Instant) (r : NodeRecord) : Node :=
  { id := some r.id, labels := r.labels, ledger := .ofProperties r.properties, created := now }

/-- Reads a node from untyped input: first the properties, then id and labels together. -/
def ofInput (now : Instant) (id labels properties : Option Value) : Reading Node :=
  match Value.readProperties properties with
  | .error issues => .error issues
  | .ok ps =>
    (Reading.both (Reading.withDefault "id" none (Value.readOptional Value.readId) id)
      (Reading.withDefault "labels" [] (Value.readTexts .notList) labels)).map fun (i, ls) =>
        { id := i, labels := ls, ledger := .ofProperties ps, created := now }

def write (n : Node) (key : String) (value : Value) : Node :=
  { n with ledger := n.ledger.write key value }

def assignId (n : Node) (id : Option Int) : Node := { n with id := id }

end Node

end EdgeMapper
