import EdgeMapper.Number.Numeral
import EdgeMapper.Yaml.Cursor
/-!
# Scalars in a text

Reads plain, quoted and block scalars. Each function answers the text of the scalar and the place
after it. Recursion runs on fuel, of which the length of the text is always enough, because every
round takes at least one character.
-/

namespace EdgeMapper.Yaml.Scalar

/-! ## Quoted scalars -/

private def foldedBreaks : Nat → Cursor → Except Fault (List Char × Cursor)
  | 0, _ => .error .badToken
  | fuel + 1, c =>
    if c.atSeparator then .error .badToken
    else
      let c := c.skip isTabOrSpace
      match c.lineBreak? with
      | some (b, c) => (foldedBreaks fuel c).map fun (bs, c) => (b :: bs, c)
      | none => .ok ([], c)

/-- What a line break and the breaks after it amount to: one line feed becomes a space. -/
private def folded (first : Char) (more : List Char) : List Char :=
  if first ≠ '\n' then first :: more
  else if more.isEmpty then [' ']
  else more

private def quotedBlanks (fuel : Nat) (c : Cursor) : Except Fault (List Char × Cursor) :=
  let (blanks, c) := c.span isTabOrSpace
  match c.lineBreak? with
  | some (b, c) => (foldedBreaks fuel c).map fun (bs, c) => (folded b bs, c)
  | none => if c.atEnd then .error .badToken else .ok (blanks, c)

def escapes : List (Char × Nat) := [
  ('0', 0), ('a', 7), ('b', 8), ('t', 9), ('\t', 9), ('n', 10), ('v', 11), ('f', 12), ('r', 13),
  ('e', 0x1b), (' ', 0x20), ('"', 0x22), ('\\', 0x5c), ('/', 0x2f), ('N', 0x85), ('_', 0xa0),
  ('L', 0x2028), ('P', 0x2029)]

def escapeWidths : List (Char × Nat) := [('x', 2), ('u', 4), ('U', 8)]

private def escape (fuel : Nat) (c : Cursor) : Except Fault (List Char × Cursor) :=
  match escapes.lookup c.peek with
  | some n => .ok ([Char.ofNat n], c.step)
  | none =>
    match escapeWidths.lookup c.peek with
    | some width =>
      let digits := c.step.rest.take width
      if digits.length < width then .error .badToken
      else
        match Numeral.ofBase? 16 digits with
        | none => .error .badToken
        | some n =>
          if 0x7fffffff < n then .error .tooLarge
          else if 0x10ffff < n then .error .unreadable
          else .ok ([Char.ofNat n], c.step.advance width)
    | none =>
      match c.lineBreak? with
      | some (_, c) => foldedBreaks fuel c
      | none => .error .badToken

def quoted (double : Bool) : Nat → Cursor → Except Fault (List Char × Cursor)
  | 0, _ => .error .badToken
  | fuel + 1, c =>
    let andThen (part : List Char × Cursor) : Except Fault (List Char × Cursor) :=
      (quoted double fuel part.2).map fun (rest, c) => (part.1 ++ rest, c)
    let char := c.peek
    if char = (if double then '\x22' else '\x27') then
      if !double && c.peekAt 1 = '\x27' then andThen (['\x27'], c.advance 2) else .ok ([], c.step)
    else if double && char = '\\' then (escape fuel c.step).bind andThen
    else if isBlankOrEnd char then (quotedBlanks fuel c).bind andThen
    else andThen ([char], c.step)

/-! ## Plain scalars -/

/-- How many characters a plain scalar takes before a blank or an indicator ends the run. Inside
flow collections the brackets, commas and question marks end it as well. -/
private def plainRun (flow : Bool) : List Char → Nat
  | [] => 0
  | char :: rest =>
    let next := rest.head?.getD endMark
    let ends :=
      isBlankOrEnd char
        || (char = ':' && (isBlankOrEnd next || (flow && ",[]\x7b\x7d".toList.contains next)))
        || (flow && ",?[]\x7b\x7d".toList.contains char)
    if ends then 0 else plainRun flow rest + 1

private def plainBreaks : Nat → Cursor → Option (List Char) × Cursor
  | 0, c => (none, c)
  | fuel + 1, c =>
    if c.atSeparator then (none, c)
    else
      let c := c.skip (· = ' ')
      match c.lineBreak? with
      | some (b, c) =>
        let (bs, c) := plainBreaks fuel c
        (bs.map (b :: ·), c)
      | none => (some [], c)

private def plainSpace (fuel : Nat) (c : Cursor) : List Char × Cursor × Bool :=
  let (spaces, c) := c.span (· = ' ')
  match c.lineBreak? with
  | some (b, c) =>
    let (bs, c) := plainBreaks fuel c
    ((bs.map (folded b)).getD [], c, true)
  | none => (spaces, c, false)

structure Plain where
  text : List Char
  cursor : Cursor
  /-- The scalar ended at the start of a line, where a key may follow. -/
  broken : Bool

def plain (flow : Bool) (indent : Nat) : Nat → Cursor → List Char → Bool → Plain
  | 0, c, _, broken => ⟨[], c, broken⟩
  | fuel + 1, c, space, broken =>
    let count := if c.peek = '#' then 0 else plainRun flow c.rest
    if count = 0 then ⟨[], c, broken⟩
    else
      let text := space ++ c.rest.take count
      let (space, c, broken) := plainSpace fuel (c.advance count)
      if space.isEmpty || (!flow && c.column < indent) then ⟨text, c, broken⟩
      else
        let more := plain flow indent fuel c space broken
        ⟨text ++ more.text, more.cursor, more.broken⟩

/-! ## Block scalars -/

inductive Chomping where
  | strip
  | clip
  | keep
  deriving DecidableEq

private def chomping? (char : Char) : Option Chomping :=
  if char = '+' then some .keep else if char = '-' then some .strip else none

private def increment? (char : Char) : Option Nat :=
  if char.isDigit then some (Numeral.digitValue char) else none

/-- The indicators after the bar or the angle: chomping and indentation, in either order. -/
private def header (c : Cursor) : Except Fault (Chomping × Option Nat × Cursor) :=
  let finish (chomping : Chomping) (increment : Option Nat) (c : Cursor) :
      Except Fault (Chomping × Option Nat × Cursor) :=
    if increment = some 0 ∨ !isSpaceOrEnd c.peek then .error .badToken
    else .ok (chomping, increment, c)
  match chomping? c.peek with
  | some chomping =>
    match increment? c.step.peek with
    | some n => finish chomping (some n) (c.advance 2)
    | none => finish chomping none c.step
  | none =>
    match increment? c.peek with
    | some n =>
      match chomping? c.step.peek with
      | some chomping => finish chomping (some n) (c.advance 2)
      | none => finish .clip (some n) c.step
    | none => finish .clip none c

private def leadingBreaks : Nat → Cursor → List Char × Nat × Cursor
  | 0, c => ([], 0, c)
  | fuel + 1, c =>
    let c := c.skip (· = ' ')
    match c.lineBreak? with
    | some (b, next) =>
      let (bs, deepest, last) := leadingBreaks fuel next
      (b :: bs, max c.column deepest, last)
    | none => ([], c.column, c)

private def skipIndent (indent : Nat) (c : Cursor) : Cursor :=
  c.advance (min (indent - c.column) (c.rest.takeWhile (· = ' ')).length)

private def emptyLines (indent : Nat) : Nat → Cursor → List Char × Cursor
  | 0, c => ([], c)
  | fuel + 1, c =>
    let c := skipIndent indent c
    match c.lineBreak? with
    | some (b, c) =>
      let (bs, c) := emptyLines indent fuel c
      (b :: bs, c)
    | none => ([], c)

private def blockLines (isFolded : Bool) (chomping : Chomping) (indent : Nat) :
    Nat → List Char → List Char → Cursor → List Char × Cursor
  | 0, _, _, c => ([], c)
  | fuel + 1, lastBreak, before, c =>
    if c.column = indent ∧ !c.atEnd then
      let indented := isTabOrSpace c.peek
      let (text, c) := c.span (!isBreakOrEnd ·)
      let (lastBreak, c) := match c.lineBreak? with
        | some (b, c) => ([b], c)
        | none => ([], c)
      let (after, c) := emptyLines indent fuel c
      let joint :=
        if c.column = indent ∧ !c.atEnd then
          if isFolded && lastBreak = ['\n'] && !indented && !isTabOrSpace c.peek then
            if after.isEmpty then [' '] else []
          else lastBreak
        else []
      let (more, c) := blockLines isFolded chomping indent fuel lastBreak after c
      (before ++ text ++ joint ++ more, c)
    else
      ((if chomping = .strip then [] else lastBreak) ++ (if chomping = .keep then before else []), c)

def block (isFolded : Bool) (parent : Int) (fuel : Nat) (c : Cursor) :
    Except Fault (List Char × Cursor) :=
  match header c with
  | .error fault => .error fault
  | .ok (chomping, increment, c) =>
    c.endOfLine.map fun c =>
      let least := max 1 (parent + 1).toNat
      match increment with
      | some n =>
        let indent := least + n - 1
        let (before, c) := emptyLines indent fuel c
        blockLines isFolded chomping indent fuel [] before c
      | none =>
        let (before, deepest, c) := leadingBreaks fuel c
        blockLines isFolded chomping (max least deepest) fuel [] before c

end EdgeMapper.Yaml.Scalar
