import EdgeMapper.Value.Literal
import EdgeMapper.Yaml.ScalarStyle
/-!
# Layout

How the entries of a mapping are written, one after another. A value begins on the line of its key.
Where it has passed the width of the page it goes on, at the next opportunity, on a new line with a
margin: outside double quotes at a space between two words, which the reader puts back; inside them
after a backslash.
-/

namespace EdgeMapper.Yaml.Layout

def width : Nat := 80

def margin : List Char := [' ', ' ']

private def isLone (before : Option Char) (rest : List Char) : Bool :=
  before.any (· ≠ ' ') && rest.head?.any (· ≠ ' ')

/-- Lays out a text from a column on, breaking lines at spaces. A run of line feeds is written as one
more than it holds, for the reader takes the first one for a space. -/
def folded (write : Char → List Char) (column : Nat) (before : Option Char) :
    List Char → List Char
  | [] => []
  | c :: rest =>
    if c = '\n' then
      let opening := if before = some '\n' then [c] else [c, c]
      if rest.head? = some '\n' then opening ++ folded write 0 (some c) rest
      else opening ++ margin ++ folded write margin.length (some c) rest
    else if c = ' ' ∧ isLone before rest ∧ width < column then
      '\n' :: margin ++ folded write margin.length (some c) rest
    else
      write c ++ folded write (column + (write c).length) (some c) rest

private def shortEscapes : List (Nat × Char) := [
  (0, '0'), (7, 'a'), (8, 'b'), (9, 't'), (10, 'n'), (11, 'v'), (12, 'f'), (13, 'r'), (0x1b, 'e'),
  (0x22, '"'), (0x5c, '\\'), (0x85, 'N'), (0xa0, '_'), (0x2028, 'L'), (0x2029, 'P')]

private def numbered (width : Nat) (n : Nat) : List Char :=
  (Literal.hexDigits width n).map Char.toUpper

def escape? (c : Char) : Option (List Char) :=
  let n := c.toNat
  match shortEscapes.lookup n with
  | some short => some ['\\', short]
  | none =>
    if Style.isVisible c then none
    else if n ≤ 0xff then some ('\\' :: 'x' :: numbered 2 n)
    else if n ≤ 0xffff then some ('\\' :: 'u' :: numbered 4 n)
    else some ('\\' :: 'U' :: numbered 8 n)

/-- A line break inside double quotes, before the given characters. A space at the beginning of a
line is escaped lest the reader take it for the margin. -/
private def pageBreak (rest : List Char) : List Char :=
  '\\' :: '\n' :: margin ++ (if rest.head? = some ' ' then ['\\'] else [])

private def columnAfterBreak (rest : List Char) : Nat :=
  margin.length + (if rest.head? = some ' ' then 1 else 0)

/-- Lays out a text in double quotes from a column on. A line may end before a space, and before or
after an escape; not so before the first character of the text or beside the last. -/
def escaped (column : Nat) (isFirst afterEscape : Bool) : List Char → List Char
  | [] => []
  | c :: rest =>
    let inside := !isFirst && !rest.isEmpty
    match escape? c with
    | some text =>
      let column := column + text.length
      if inside && width + 1 < column then
        text ++ pageBreak rest ++ escaped (columnAfterBreak rest) false true rest
      else text ++ escaped column false true rest
    | none =>
      if inside && (c = ' ' || afterEscape) && width < column then
        pageBreak (c :: rest) ++ c :: escaped (columnAfterBreak (c :: rest) + 1) false false rest
      else c :: escaped (column + 1) false false rest

def value (column : Nat) (text : String) : List Char :=
  let chars := text.toList
  match Style.ofText text with
  | .plain => folded (fun c => [c]) column none chars
  | .single =>
    '\x27' :: folded (fun c => if c = '\x27' then [c, c] else [c]) (column + 1) none chars ++ ['\x27']
  | .double => '"' :: escaped (column + 1) true true chars ++ ['"']

def entry (key text : String) : String :=
  key ++ ": " ++ String.ofList (value (key.length + 2) text) ++ "\n"

end EdgeMapper.Yaml.Layout
