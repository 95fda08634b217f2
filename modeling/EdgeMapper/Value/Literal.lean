import EdgeMapper.Number.Numeral
import EdgeMapper.Text.Printable
import EdgeMapper.Value
/-!
# Literals

The text of a value inside a message. Texts stand in single quotes, or in double quotes when they
hold a single quote and no double one; what cannot be printed is escaped by its number. A value with a
whole number that is too long has no text.
-/

namespace EdgeMapper.Literal

private def backslash : Char := Char.ofNat 0x5c

private def singleQuote : Char := '\x27'

private def doubleQuote : Char := '\x22'

def hexDigits (width n : Nat) : List Char :=
  let digits := Nat.toDigits 16 n
  List.replicate (width - digits.length) '0' ++ digits

private def numbered (n : Nat) : List Char :=
  if n < 0x100 then backslash :: 'x' :: hexDigits 2 n
  else if n < 0x10000 then backslash :: 'u' :: hexDigits 4 n
  else backslash :: 'U' :: hexDigits 8 n

private def escapeChar (quote : Char) (shown : Char → Bool) (c : Char) : List Char :=
  if c = backslash ∨ c = quote then [backslash, c]
  else if c = '\n' then [backslash, 'n']
  else if c = '\r' then [backslash, 'r']
  else if c = '\t' then [backslash, 't']
  else if shown c then [c]
  else numbered c.toNat

private def quoted (shown : Char → Bool) (chars : List Char) : List Char :=
  let quote :=
    if chars.contains singleQuote && !chars.contains doubleQuote then doubleQuote else singleQuote
  quote :: (chars.flatMap (escapeChar quote shown) ++ [quote])

def ofText (text : String) : String := String.ofList (quoted Text.isPrintable text.toList)

def ofBytes (content : List UInt8) : String :=
  String.ofList ('b' :: quoted (fun c => 32 ≤ c.toNat && c.toNat ≤ 126)
    (content.map fun byte => Char.ofNat byte.toNat))

private def commas (items : List String) : String := ", ".intercalate items

def ofBool (b : Bool) : String := if b then "True" else "False"

def ofTexts (items : List String) : String := "[" ++ commas (items.map ofText) ++ "]"

def ofId (id : Option Int) : String :=
  match id with
  | some i => toString i
  | none => "None"

mutual

def ofValue : Value → String
  | .null => "None"
  | .bool b => ofBool b
  | .int i => toString i
  | .float x => Numeral.ofBinary64 x
  | .text s => ofText s
  | .list items => "[" ++ commas (ofItems items) ++ "]"
  | .map entries => "\x7b" ++ commas (ofEntries entries) ++ "\x7d"
  | .record signature fields =>
    "Structure(signature=" ++ toString signature ++ ", fields=[" ++ commas (ofItems fields) ++ "])"
  | .tuple [item] => "(" ++ ofValue item ++ ",)"
  | .tuple items => "(" ++ commas (ofItems items) ++ ")"
  | .set [] => "set()"
  | .set items => "\x7b" ++ commas (ofItems items) ++ "\x7d"
  | .bytes content => ofBytes content
  | .foreign text => text

private def ofItems : List Value → List String
  | [] => []
  | item :: rest => ofValue item :: ofItems rest

private def ofEntries : List (Value × Value) → List String
  | [] => []
  | (key, value) :: rest => (ofValue key ++ ": " ++ ofValue value) :: ofEntries rest

end

/-- The text of a value that stands by itself: a text is its own text. -/
def plain : Value → String
  | .text s => s
  | value => ofValue value

mutual

/-- Has the value a text? The whole numbers in it have to be short enough, also those in keys. -/
def isWritable : Value → Bool
  | .int i => Numeral.isShort i
  | .list items => areWritable items
  | .map entries => areWritableEntries entries
  | .record _ fields => areWritable fields
  | .tuple items => areWritable items
  | .set items => areWritable items
  | _ => true

private def areWritable : List Value → Bool
  | [] => true
  | item :: rest => isWritable item && areWritable rest

private def areWritableEntries : List (Value × Value) → Bool
  | [] => true
  | (key, value) :: rest => isWritable key && isWritable value && areWritableEntries rest

end

def isWritableId (id : Option Int) : Bool := id.all Numeral.isShort

private theorem areWritable_iff {items : List Value} :
    areWritable items = true ↔ ∀ item ∈ items, isWritable item = true := by
  induction items with
  | nil => simp [areWritable]
  | cons item rest ih => rw [areWritable, Bool.and_eq_true, ih, List.forall_mem_cons]

theorem isWritable_list_iff {items : List Value} :
    isWritable (.list items) = true ↔ ∀ item ∈ items, isWritable item = true := by
  rw [isWritable, areWritable_iff]

theorem isWritable_record_iff {signature : Nat} {fields : List Value} :
    isWritable (.record signature fields) = true ↔ ∀ field ∈ fields, isWritable field = true := by
  rw [isWritable, areWritable_iff]

end EdgeMapper.Literal
