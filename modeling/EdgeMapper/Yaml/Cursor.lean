import EdgeMapper.Yaml.Fault
/-!
# Cursors

A place in a text, with the line and the column it is at. Lines are broken by the line feed, the next
line character and the line and paragraph separators; a carriage return has been turned into a line
feed before. Past the end every character reads as the null character, which no text holds.
-/

namespace EdgeMapper.Yaml

def endMark : Char := Char.ofNat 0

def isBreak (c : Char) : Bool := c = '\n' || [0x85, 0x2028, 0x2029].contains c.toNat

def isTabOrSpace (c : Char) : Bool := c = ' ' || c = '\t'

def isBreakOrEnd (c : Char) : Bool := isBreak c || c = endMark

def isSpaceOrEnd (c : Char) : Bool := c = ' ' || isBreakOrEnd c

def isBlankOrEnd (c : Char) : Bool := isTabOrSpace c || isBreakOrEnd c

def isAcceptable (c : Char) : Bool :=
  let n := c.toNat
  n = 9 || n = 10 || (0x20 ≤ n && n ≤ 0x7e) || n = 0x85 || (0xa0 ≤ n && n ≤ 0xfffd) || 0x10000 ≤ n

def normalizeBreaks : List Char → List Char
  | [] => []
  | '\r' :: '\n' :: rest => '\n' :: normalizeBreaks rest
  | '\r' :: rest => '\n' :: normalizeBreaks rest
  | c :: rest => c :: normalizeBreaks rest

structure Cursor where
  rest : List Char
  index : Nat := 0
  line : Nat := 0
  column : Nat := 0

namespace Cursor

def peekAt (c : Cursor) (ahead : Nat) : Char := c.rest[ahead]?.getD endMark

def peek (c : Cursor) : Char := c.peekAt 0

def atEnd (c : Cursor) : Bool := c.rest.isEmpty

def step (c : Cursor) : Cursor :=
  match c.rest with
  | [] => c
  | char :: rest =>
    if isBreak char then ⟨rest, c.index + 1, c.line + 1, 0⟩
    else if char.toNat = 0xfeff then ⟨rest, c.index + 1, c.line, c.column⟩
    else ⟨rest, c.index + 1, c.line, c.column + 1⟩

def advance (c : Cursor) : Nat → Cursor
  | 0 => c
  | n + 1 => c.step.advance n

def span (c : Cursor) (p : Char → Bool) : List Char × Cursor :=
  let run := c.rest.takeWhile p
  (run, c.advance run.length)

def skip (c : Cursor) (p : Char → Bool) : Cursor := (c.span p).2

/-- A line break and the place after it. All but the separators count as a line feed. -/
def lineBreak? (c : Cursor) : Option (Char × Cursor) :=
  let char := c.peek
  if isBreak char then some (if 0x2028 ≤ char.toNat then char else '\n', c.step) else none

/-- Does a marker of three characters stand here, followed by a blank, a break or the end? -/
def atMarker (c : Cursor) (char : Char) : Bool :=
  c.peek = char && c.peekAt 1 = char && c.peekAt 2 = char && isBlankOrEnd (c.peekAt 3)

def atSeparator (c : Cursor) : Bool := c.atMarker '-' || c.atMarker '.'

def endOfLine (c : Cursor) : Except Fault Cursor :=
  let c := c.skip (· = ' ')
  let c := if c.peek = '#' then c.skip (!isBreakOrEnd ·) else c
  if isBreakOrEnd c.peek then .ok (match c.lineBreak? with
    | some (_, c) => c
    | none => c)
  else .error .badToken

end Cursor

end EdgeMapper.Yaml
