import EdgeMapper.Yaml.Timestamp
/-!
# Tags

The type of a node. A plain scalar without a tag has the type that its text looks like, and so has any
scalar with the lone mark as its tag; any other scalar without a tag is a text.
-/

namespace EdgeMapper.Yaml

inductive Tag where
  | null
  | bool
  | int
  | float
  | timestamp
  | merge
  | value
  | text
  | binary
  | sequence
  | orderedMap
  | pairs
  | mapping
  | set
  | unknown
  deriving DecidableEq, Repr

namespace Tag

def namespacePrefix : String := "tag:yaml.org,2002:"

private def known : List (String × Tag) := [
  ("null", null), ("bool", bool), ("int", int), ("float", float), ("timestamp", timestamp),
  ("merge", merge), ("value", value), ("str", text), ("binary", binary), ("seq", sequence),
  ("omap", orderedMap), ("pairs", pairs), ("map", mapping), ("set", set)]

def ofName (name : String) : Tag :=
  ((known.find? fun entry => namespacePrefix ++ entry.1 = name).map Prod.snd).getD unknown

/-! ## What plain scalars look like -/

private def trueWords : List String := ["yes", "Yes", "YES", "true", "True", "TRUE", "on", "On", "ON"]

private def falseWords : List String :=
  ["no", "No", "NO", "false", "False", "FALSE", "off", "Off", "OFF"]

private def isBool (word : String) : Bool := trueWords.contains word || falseWords.contains word

private def isNull (word : String) : Bool := ["", "~", "null", "Null", "NULL"].contains word

private def isDigitOrBar (c : Char) : Bool := c.isDigit || c = '_'

private def isBinaryOrBar (c : Char) : Bool := c = '0' || c = '1' || c = '_'

private def isOctalOrBar (c : Char) : Bool := ('0' ≤ c && c ≤ '7') || c = '_'

private def isHexOrBar (c : Char) : Bool := (Numeral.hexDigit? c).isSome || c = '_'

private def nonEmptyAll (p : Char → Bool) (chars : List Char) : Bool := !chars.isEmpty && chars.all p

/-- One digit, or two of which the first is at most five. -/
private def isSixtieth : List Char → Bool
  | [a] => a.isDigit
  | [a, b] => '0' ≤ a && a ≤ '5' && b.isDigit
  | _ => false

def colonParts (chars : List Char) : List (List Char) := chars.splitOn ':'

private def isSixtieths (first : Char → Bool) (chars : List Char) : Bool :=
  match colonParts chars with
  | (c :: more) :: part :: parts =>
    first c && more.all isDigitOrBar && (part :: parts).all isSixtieth
  | _ => false

private def isInt (chars : List Char) : Bool :=
  let digits := (Numeral.splitSign chars).2
  match digits with
  | ['0'] => true
  | '0' :: 'b' :: rest => nonEmptyAll isBinaryOrBar rest
  | '0' :: 'x' :: rest => nonEmptyAll isHexOrBar rest
  | '0' :: rest => nonEmptyAll isOctalOrBar rest
  | c :: rest =>
    (c.isDigit && rest.all isDigitOrBar) || isSixtieths (fun c => c.isDigit && c ≠ '0') digits
  | [] => false

private def isExponent : List Char → Bool
  | [] => true
  | e :: sign :: digits =>
    (e = 'e' || e = 'E') && (sign = '+' || sign = '-') && nonEmptyAll Char.isDigit digits
  | _ => false

private def isFloat (chars : List Char) : Bool :=
  let unsigned := (Numeral.splitSign chars).2
  let whole := unsigned.takeWhile (· ≠ '.')
  match unsigned.dropWhile (· ≠ '.') with
  | _ :: fraction =>
    let exponent := fraction.dropWhile isDigitOrBar
    match whole with
    | [] =>
      [['i', 'n', 'f'], ['I', 'n', 'f'], ['I', 'N', 'F']].contains fraction
        || (unsigned.length = chars.length
          && ([['n', 'a', 'n'], ['N', 'a', 'N'], ['N', 'A', 'N']].contains fraction
            || ((fraction.head?.map Char.isDigit).getD false && isExponent exponent)))
    | c :: more =>
      (c.isDigit && more.all isDigitOrBar && isExponent exponent)
        || (isSixtieths Char.isDigit whole && exponent.isEmpty)
  | [] => false

private def isReserved (word : String) : Bool := ["!", "&", "*"].contains word

/-- The type that a plain scalar has by its text. One line feed at the end does not count, but is no
empty text by itself. -/
def ofPlain (text : String) : Tag :=
  let chars := Text.dropFinalLineFeed text.toList
  let word := String.ofList chars
  if chars.isEmpty && text ≠ "" then Tag.text
  else if isBool word then bool
  else if isFloat chars then float
  else if isInt chars then int
  else if word = "<<" then merge
  else if isNull word then null
  else if Timestamp.isEvident chars then timestamp
  else if word = "=" then value
  else if isReserved word then unknown
  else Tag.text

end Tag

end EdgeMapper.Yaml
