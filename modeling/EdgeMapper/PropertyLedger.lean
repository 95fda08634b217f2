import EdgeMapper.OrderedMap
import EdgeMapper.Value.Reading
/-!
# Property ledgers

The properties of an entity together with what was written to them since the last commit. The
current properties are always up to date; the pending updates and removals only record what the
server has yet to be told. Writing null removes a property, and the last write to a key decides:
setting a key revokes its removal, removing it revokes its update.
-/

namespace EdgeMapper

structure PropertyLedger where
  current : OrderedMap String Value := ∅
  pending : OrderedMap String Value := ∅
  removed : List String := []
  modified : Bool := false
  deriving DecidableEq

namespace PropertyLedger

instance : Inhabited PropertyLedger := ⟨{}⟩

def ofProperties (properties : OrderedMap String Value) : PropertyLedger := { current := properties }

def set (l : PropertyLedger) (key : String) (value : Value) : PropertyLedger where
  current := l.current.insert key value
  pending := l.pending.insert key value
  removed := l.removed.erase key
  modified := true

def remove (l : PropertyLedger) (key : String) : PropertyLedger where
  current := l.current.erase key
  pending := l.pending.erase key
  removed := if l.removed.contains key then l.removed else l.removed ++ [key]
  modified := true

def write (l : PropertyLedger) (key : String) (value : Value) : PropertyLedger :=
  if value = .null then l.remove key else l.set key value

def read (l : PropertyLedger) (key : String) : Value :=
  ((l.pending.get? key).or (l.current.get? key)).getD .null

def markModified (l : PropertyLedger) : PropertyLedger := { l with modified := true }

/-- Is there anything that an update statement would carry? -/
def isDirty (l : PropertyLedger) : Bool := !l.pending.isEmpty || !l.removed.isEmpty

/-- The keys that an update statement would write, then those it would remove. -/
def changedKeys (l : PropertyLedger) : List String := l.pending.keys ++ l.removed

/-- Forgets what was recorded, once the server has been told. -/
def commit (l : PropertyLedger) : PropertyLedger := { current := l.current }

def ofInput (properties updated removed modified : Option Value) : Reading PropertyLedger :=
  (Reading.both (Reading.withDefault "properties" ∅ Value.readMap properties)
    (Reading.both (Reading.withDefault "updated_properties" ∅ Value.readMap updated)
      (Reading.both (Reading.withDefault "removed_keys" [] (Value.readTexts .notList) removed)
        (Reading.withDefault "is_modified" false Value.readBool modified)))).map
    fun (current, pending, removed, modified) => ⟨current, pending, removed, modified⟩

end PropertyLedger

end EdgeMapper
