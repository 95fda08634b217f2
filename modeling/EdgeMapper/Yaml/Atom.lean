import EdgeMapper.Value.Literal
import EdgeMapper.Yaml.Graph
/-!
# Atoms

What scalars denote: values that hold no others and never change. They are read more freely than plain
scalars are recognized, because a tag can put any text in the place of a number.
-/

namespace EdgeMapper.Yaml

inductive Atom where
  | null
  | bool (b : Bool)
  | int (i : Int)
  | float (x : Binary64)
  /-- What is not a number equals itself alone. There is one that has a spelling of its own, and every
  other one comes from a certain node. -/
  | nan (origin : Option NodeId)
  | text (s : String)
  | bytes (content : List UInt8)
  | timestamp (t : Timestamp)
  deriving DecidableEq

namespace Atom

private def withoutBars (text : String) : List Char := text.toList.filter (· ≠ '_')

private def orUnreadable {α : Type} : Option α → Except Fault α
  | some a => .ok a
  | none => .error .unreadable

private def sixties (parts : List Int) : Int := parts.foldl (fun n part => 60 * n + part) 0

private def magnitude? (digits : List Char) : Option Int :=
  match digits with
  | ['0'] => some 0
  | '0' :: 'b' :: rest => Numeral.wholeOfChars? 2 rest
  | '0' :: 'x' :: rest => Numeral.wholeOfChars? 16 rest
  | '0' :: rest => Numeral.wholeOfChars? 8 ('0' :: rest)
  | _ => ((Tag.colonParts digits).mapM (Numeral.wholeOfChars? 10)).map sixties

/-- A whole number in base two, eight, ten, sixteen or sixty. A sign comes before the base. -/
def ofIntText (text : String) : Except Fault Atom :=
  match Numeral.splitSign (withoutBars text) with
  | (_, []) => .error .noDigits
  | (negative, digits) =>
    orUnreadable ((magnitude? digits).map fun n => .int (if negative then -n else n))

private def addSixties : List Binary64 → Nat → Binary64 → Except Fault Binary64
  | [], _, sum => .ok sum
  | part :: rest, unit, sum =>
    let factor := Binary64.ofInt unit
    if factor.isFinite then addSixties rest (unit * 60) (sum.add (part.mul factor))
    else .error .tooLarge

private def isNan (x : Binary64) : Bool :=
  match x.parts with
  | .nan => true
  | _ => false

private def ofFloat (origin : NodeId) (negative : Bool) (x : Binary64) : Atom :=
  if isNan x then .nan (some origin) else .float (if negative then x.negate else x)

def ofFloatText (origin : NodeId) (text : String) : Except Fault Atom :=
  let chars := withoutBars text
  if chars.isEmpty then .error .noDigits
  else
    let (negative, digits) := Numeral.splitSign chars
    let word := digits.map Char.toLower
    if word = ".inf".toList then .ok (.float (.infinity negative))
    else if word = ".nan".toList then .ok (.nan none)
    else
      match Tag.colonParts digits with
      | [whole] => orUnreadable ((Numeral.realOfChars? whole).map (ofFloat origin negative))
      | parts =>
        match parts.mapM Numeral.realOfChars? with
        | none => .error .unreadable
        | some xs => (addSixties xs.reverse 1 (.zero false)).map (ofFloat origin negative)

def ofTimestampText (text : String) : Except Fault Atom :=
  match Timestamp.ofText? text with
  | some t => if t.isValid then .ok (.timestamp t) else .error .unreadable
  | none => .error .noTimestamp

def ofBoolText (text : String) : Except Fault Atom :=
  let word := text.toLower
  if ["yes", "true", "on"].contains word then .ok (.bool true)
  else if ["no", "false", "off"].contains word then .ok (.bool false)
  else .error .unknownWord

private def sextet? (c : Char) : Option Nat :=
  if c.isUpper then some (c.toNat - 'A'.toNat)
  else if c.isLower then some (c.toNat - 'a'.toNat + 26)
  else if c.isDigit then some (c.toNat - '0'.toNat + 52)
  else if c = '+' then some 62
  else if c = '/' then some 63
  else none

private def bytesOfGroup : List Nat → List UInt8
  | [a, b] => [UInt8.ofNat (a * 4 + b / 16)]
  | [a, b, c] => [UInt8.ofNat (a * 4 + b / 16), UInt8.ofNat (b % 16 * 16 + c / 4)]
  | [a, b, c, d] =>
    [UInt8.ofNat (a * 4 + b / 16), UInt8.ofNat (b % 16 * 16 + c / 4), UInt8.ofNat (c % 4 * 64 + d)]
  | _ => []

/-- Reads bytes in base sixty-four, in groups of four sextets. A group that has begun is completed by
padding, which ends everything; `padding` counts the padding since the last sextet. Padding that
completes nothing is passed over, and so is any other character. -/
private def bytes? : List Char → List Nat → Nat → Option (List UInt8)
  | [], group, _ => if group.isEmpty then some [] else none
  | c :: rest, group, padding =>
    if c = '=' then
      if group.length < 2 then bytes? rest group padding
      else if group.length + padding + 1 < 4 then bytes? rest group (padding + 1)
      else some (bytesOfGroup group)
    else
      match sextet? c with
      | none => bytes? rest group padding
      | some s =>
        let group := group ++ [s]
        if group.length < 4 then bytes? rest group 0
        else (bytes? rest [] 0).map (bytesOfGroup group ++ ·)

def ofBytesText (text : String) : Except Fault Atom :=
  let chars := text.toList
  if chars.any fun c => 128 ≤ c.toNat then .error .badNode
  else
    match bytes? chars [] 0 with
    | some content => .ok (.bytes content)
    | none => .error .badNode

def ofNode (g : Graph) (id : NodeId) : Except Fault Atom :=
  match g.tag id with
  | .null => (g.text id).map fun _ => .null
  | .bool => (g.text id).bind ofBoolText
  | .int => (g.text id).bind ofIntText
  | .float => (g.text id).bind (ofFloatText id)
  | .timestamp => do
    let text ← g.text id
    match g.content id with
    | .mapping _ => .error .notAText
    | _ => ofTimestampText text
  | .text => (g.text id).map .text
  | .binary => (g.text id).bind ofBytesText
  | _ => .error .badNode

/-! ## Keys -/

private def whole? : Atom → Option Int
  | bool b => some b.toNat
  | int i => some i
  | float x => x.toInt?
  | _ => none

/-- Are two keys of a mapping the same? Equal numbers are, and so are equal moments. -/
def sameKey (a b : Atom) : Bool :=
  match a, b with
  | .float x, .float y => x.sameNumber y
  | .timestamp s, .timestamp t => s.sameMoment t
  | a, b =>
    match a.whole?, b.whole? with
    | some i, some j => i = j
    | none, none => a = b
    | _, _ => false

def isVacant : Atom → Bool
  | null => true
  | bool b => !b
  | int i => i = 0
  | float x => x.sameNumber (.zero false)
  | text s => s = ""
  | bytes content => content.isEmpty
  | _ => false

def toValue : Atom → Value
  | null => .null
  | bool b => .bool b
  | int i => .int i
  | float x => .float x
  | nan _ => .float .nan
  | text s => .text s
  | bytes content => .bytes content
  | timestamp t => .foreign t.literal

/-! ## Texts -/

private def intText (i : Int) : Except Fault String :=
  if Numeral.isShort i then .ok (toString i) else .error .unreadable

def literal : Atom → Except Fault String
  | int i => intText i
  | null => .ok (Literal.ofValue .null)
  | bool b => .ok (Literal.ofBool b)
  | float x => .ok (Numeral.ofBinary64 x)
  | nan _ => .ok (Numeral.ofBinary64 .nan)
  | text s => .ok (Literal.ofText s)
  | bytes content => .ok (Literal.ofBytes content)
  | timestamp t => .ok t.literal

def plain : Atom → Except Fault String
  | text s => .ok s
  | timestamp t => .ok t.text
  | a => a.literal

end Atom

end EdgeMapper.Yaml
