import EdgeMapper.Value
/-!
# Entries

Maps are made from entries: a key that is written again keeps its place and takes the last value, and
equal numbers are one key, whatever kind they are of. A value of another kind can stand for a map when
going through it yields pairs.
-/

namespace EdgeMapper

inductive EntryFault where
  | noElements
  | notAPair
  | notAKey
  deriving DecidableEq, Repr

namespace Value

mutual

/-- Can the value be the key of a map, or be in a set? What may change later cannot. -/
def isKey : Value → Bool
  | .list _ => false
  | .map _ => false
  | .set _ => false
  | .record _ _ => false
  | .tuple items => areKeys items
  | _ => true

private def areKeys : List Value → Bool
  | [] => true
  | item :: rest => isKey item && areKeys rest

end

/-- The whole number that a boolean, whole or double-precision value equals. -/
private def whole? : Value → Option Int
  | .bool b => some b.toNat
  | .int i => some i
  | .float x => x.toInt?
  | _ => none

mutual

def sameKey (a b : Value) : Bool :=
  match a, b with
  | .tuple as, .tuple bs => sameKeys as bs
  | .float x, .float y => x.sameNumber y
  | a, b =>
    match a.whole?, b.whole? with
    | some i, some j => i = j
    | none, none => a = b
    | _, _ => false

private def sameKeys (as bs : List Value) : Bool :=
  match as, bs with
  | [], [] => true
  | a :: as, b :: bs => sameKey a b && sameKeys as bs
  | _, _ => false

end

private def writeKey (key value : Value) : List (Value × Value) → List (Value × Value)
  | [] => [(key, value)]
  | (k, v) :: rest =>
    if sameKey k key then (k, value) :: rest else (k, v) :: writeKey key value rest

def ofEntries (entries : List (Value × Value)) : Value :=
  .map (entries.foldl (fun written entry => writeKey entry.1 entry.2 written) [])

/-- What a record is to one who goes through it: its parts with their names. -/
private def parts (signature : Nat) (fields : List Value) : List Value :=
  [.tuple [.text "signature", .int signature], .tuple [.text "fields", .list fields]]

def members? : Value → Option (List Value)
  | .list items => some items
  | .tuple items => some items
  | .set items => some items
  | .record signature fields => some (parts signature fields)
  | _ => none

def elements? : Value → Option (List Value)
  | .text s => some (s.toList.map fun c => .text (String.ofList [c]))
  | .bytes content => some (content.map fun byte => .int byte.toNat)
  | .map entries => some (entries.map Prod.fst)
  | value => value.members?

private def toEntry (element : Value) : Except EntryFault (Value × Value) :=
  match element.elements? with
  | none => .error .noElements
  | some [key, value] => if key.isKey then .ok (key, value) else .error .notAKey
  | some _ => .error .notAPair

/-- Takes a value for a map; the first element that is no entry decides what is wrong with it. -/
def toMap : Value → Except EntryFault Value
  | .map entries => .ok (.map entries)
  | value =>
    match value.elements? with
    | none => .error .noElements
    | some elements => (elements.mapM toEntry).map ofEntries

def isVacant : Value → Bool
  | .null => true
  | .bool b => !b
  | .int i => i = 0
  | .float x => x.sameNumber (.zero false)
  | .text s => s = ""
  | .bytes content => content.isEmpty
  | .list items => items.isEmpty
  | .map entries => entries.isEmpty
  | .tuple items => items.isEmpty
  | .set items => items.isEmpty
  | _ => false

end Value

end EdgeMapper
