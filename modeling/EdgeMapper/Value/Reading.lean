import EdgeMapper.Number.Numeral
import EdgeMapper.OrderedMap
import EdgeMapper.Value.Entries
import EdgeMapper.Value.Literal
/-!
# Reading untyped input

Turns values of unknown shape into ids, texts, labels and property maps. Reading is lenient: a
number may come as a text, a text as bytes, a list as a tuple. What does not fit is reported as a list
of issues, each with the path to the place it was found at; reading several fields together reports
the issues of all of them, in order.
-/

namespace EdgeMapper

inductive Step where
  | name (s : String)
  | position (i : Int)
  deriving DecidableEq, Repr

inductive IssueKind where
  | missing
  | notWhole
  | unreadableWhole
  | fractional
  | notFinite
  /-- A number with more digits, or farther from zero, than is read. -/
  | oversized
  | tooSmall
  | tooLarge
  | notText
  | badEncoding
  | notBool
  | unreadableBool
  | notList
  | notTuple
  | notMap
  | notMember
  deriving DecidableEq, Repr

structure Issue where
  path : List Step
  kind : IssueKind
  deriving DecidableEq, Repr

abbrev Reading (α : Type) := Except (List Issue) α

namespace Reading

variable {α β : Type}

def reject (kind : IssueKind) : Reading α := .error [⟨[], kind⟩]

def within (step : Step) : Reading α → Reading α
  | .ok a => .ok a
  | .error issues => .error (issues.map fun issue => ⟨step :: issue.path, issue.kind⟩)

def field (name : String) (reading : Reading α) : Reading α := reading.within (.name name)

/-- Both readings, with the issues of both. -/
def both : Reading α → Reading β → Reading (α × β)
  | .ok a, .ok b => .ok (a, b)
  | .error issues, .ok _ => .error issues
  | .ok _, .error issues => .error issues
  | .error first, .error second => .error (first ++ second)

def all : List (Reading α) → Reading (List α)
  | [] => .ok []
  | reading :: rest => (both reading (all rest)).map fun (a, as) => a :: as

def eachFrom (read : Value → Reading α) (start : Nat) : List Value → List (Reading α)
  | [] => []
  | item :: rest => (read item).within (.position start) :: eachFrom read (start + 1) rest

def each (read : Value → Reading α) (items : List Value) : Reading (List α) :=
  all (eachFrom read 0 items)

def required (name : String) (read : Value → Reading α) (value : Option Value) : Reading α :=
  field name (match value with
    | some v => read v
    | none => reject .missing)

def withDefault (name : String) (default : α) (read : Value → Reading α) (value : Option Value) :
    Reading α :=
  match value with
  | some v => field name (read v)
  | none => .ok default

end Reading

namespace Value

open Reading

private def groupedDigits? : List Char → Option (List Char)
  | [] => none
  | [c] => if c.isDigit then some [c] else none
  | c :: '_' :: rest =>
    if c.isDigit then (groupedDigits? rest).map (c :: ·) else none
  | c :: rest =>
    if c.isDigit then (groupedDigits? rest).map (c :: ·) else none

private def dropZeroFraction (chars : List Char) : List Char :=
  let whole := chars.takeWhile (· ≠ '.')
  match chars.dropWhile (· ≠ '.') with
  | _ :: '0' :: more => if more.all (· = '0') then whole else chars
  | _ => chars

private def dropLeadingZeros (chars : List Char) : List Char :=
  if chars.head? = some '0' then
    let isLeading := fun c => c = '0' || c = '_'
    let rest := chars.dropWhile isLeading
    if rest.head?.any Char.isDigit then rest
    else (chars.takeWhile isLeading).getLast?.toList ++ rest
  else chars

private def unsignedDigits? (chars : List Char) : Option (List Char) :=
  groupedDigits? (dropZeroFraction (dropLeadingZeros chars))

/-- After a minus sign an underscore may stand, but no zero before other digits. -/
private def negativeDigits? (chars : List Char) : Option (List Char) :=
  let chars := match chars with
    | '_' :: rest => rest
    | _ => chars
  (groupedDigits? (dropZeroFraction chars)).filter fun digits =>
    digits.head? ≠ some '0' || digits = ['0']

/-- The sign and the digits of the whole number that a text spells: blanks around it, a sign, leading
zeros, single underscores between digits and a fraction of zeros are allowed. -/
private def spelled? (text : String) : Option (Bool × List Char) :=
  match Numeral.splitSign (Text.trim text.toList) with
  | (true, chars) => (negativeDigits? chars).map (true, ·)
  | (false, chars) => (unsignedDigits? chars).map (false, ·)

private def readSpelled (text : String) : Reading Int :=
  match spelled? text with
  | none => reject .unreadableWhole
  | some (negative, digits) =>
    if Numeral.maxDecimalDigits < digits.length then reject .oversized
    else .ok (if negative then -(Numeral.ofDigits digits : Int) else Numeral.ofDigits digits)

private def decodeText? (content : List UInt8) : Option String :=
  String.fromUTF8? content.toByteArray

/-- A double-precision number has to be whole, and to lie within the signed sixty-four bits. -/
private def wholeOf (x : Binary64) : Reading Int :=
  if x.isFinite then
    match x.toInt? with
    | some i => if i.natAbs < Binary64.signBit then .ok i else reject .oversized
    | none => reject .fractional
  else reject .notFinite

def readWhole : Value → Reading Int
  | .int i => .ok i
  | .bool b => .ok b.toNat
  | .float x => wholeOf x
  | .text s => readSpelled s
  | .bytes content =>
    match decodeText? content with
    | some s => readSpelled s
    | none => reject .unreadableWhole
  | _ => reject .notWhole

def readBounded (low high : Int) (value : Value) : Reading Int :=
  match readWhole value with
  | .ok i =>
    if i < low then reject .tooSmall
    else if high < i then reject .tooLarge
    else .ok i
  | .error issues => .error issues

def readId : Value → Reading Int := readBounded 0 maxId

def readOptional {α : Type} (read : Value → Reading α) : Value → Reading (Option α)
  | .null => .ok none
  | value => (read value).map some

def readText : Value → Reading String
  | .text s => .ok s
  | .bytes content =>
    match decodeText? content with
    | some s => .ok s
    | none => reject .badEncoding
  | _ => reject .notText

private def readBoolWord (word : String) : Reading Bool :=
  let word := word.toLower
  if ["1", "t", "y", "on", "yes", "true"].contains word then .ok true
  else if ["0", "f", "n", "off", "no", "false"].contains word then .ok false
  else reject .unreadableBool

/-- One and zero count as booleans. Beyond the signed sixty-four bits a number is none at all. -/
private def readBoolNumber (i : Int) : Reading Bool :=
  if i = 0 then .ok false
  else if i = 1 then .ok true
  else if -(Binary64.signBit : Int) ≤ i ∧ i < Binary64.signBit then reject .unreadableBool
  else reject .notBool

def readBool : Value → Reading Bool
  | .bool b => .ok b
  | .int i => readBoolNumber i
  | .float x =>
    match wholeOf x with
    | .ok i => readBoolNumber i
    | .error _ => reject .notBool
  | .text s => readBoolWord s
  | .bytes content =>
    match decodeText? content with
    | some s => readBoolWord s
    | none => reject .unreadableBool
  | _ => reject .notBool

def readItems (value : Value) : Reading (List Value) :=
  match value.members? with
  | some items => .ok items
  | none => reject .notList

def readTexts (kind : IssueKind) (value : Value) : Reading (List String) :=
  match value.members? with
  | some items => each readText items
  | none => reject kind

/-- A whole number within the signed sixty-four bits is a position, and so is a boolean. -/
private def keyStep : Value → Step
  | .int i =>
    if -(Binary64.signBit : Int) ≤ i ∧ i < Binary64.signBit then .position i else .name (toString i)
  | .bool b => .position b.toNat
  | value => .name (Literal.plain value)

private def readEntry (entry : Value × Value) : Reading (String × Value) :=
  ((readText entry.1).within (.name "[key]")).within (keyStep entry.1) |>.map (·, entry.2)

def readMap : Value → Reading (OrderedMap String Value)
  | .map entries => (all (entries.map readEntry)).map OrderedMap.ofList
  | _ => reject .notMap

/-! What is an id, a text, a list of texts or a map with texts for keys is read as it is. -/

theorem readId_int {i : Int} (h : 0 ≤ i ∧ i ≤ maxId) : (int i).readId = .ok i := by
  rw [readId, readBounded]
  simp only [readWhole]
  rw [if_neg (Int.not_lt.mpr h.1), if_neg (Int.not_lt.mpr h.2)]

theorem readTexts_list (kind : IssueKind) (texts : List String) :
    (list (texts.map text)).readTexts kind = .ok texts := by
  have heach (start : Nat) : all (eachFrom readText start (texts.map text)) = .ok texts := by
    induction texts generalizing start with
    | nil => rfl
    | cons s rest ih =>
      rw [List.map_cons, eachFrom, all, ih]
      rfl
  exact heach 0

theorem readMap_texts (entries : List (String × Value)) :
    (map (entries.map fun entry => (text entry.1, entry.2))).readMap = .ok (.ofList entries) := by
  have hall : all ((entries.map fun entry => (text entry.1, entry.2)).map readEntry) =
      .ok entries := by
    induction entries with
    | nil => rfl
    | cons entry rest ih =>
      rw [List.map_cons, List.map_cons, all, ih]
      rfl
  rw [readMap, hall]
  rfl

def properties? (value : Value) : Option (OrderedMap String Value) :=
  if value.isProperty then value.readMap.toOption else none

def readProperties (value : Option Value) : Reading (OrderedMap String Value) :=
  withDefault "properties" ∅ readMap value

def readRecord (signature fields : Option Value) : Reading Value :=
  (both (required "signature" (readBounded 0 255) signature)
    (withDefault "fields" [] readItems fields)).map fun (signature, fields) =>
      .record signature.toNat fields

end Value

end EdgeMapper
