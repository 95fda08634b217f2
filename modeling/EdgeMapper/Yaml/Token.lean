import EdgeMapper.Yaml.Scalar
/-!
# Tokens

Splits a text into tokens. Indentation is turned into tokens that open and close collections, and
where a colon shows that something before it was a key, the tokens that say so are put in front of
it. For that, every place where a key may have begun is remembered until it is too far away: a key
has to be followed by its colon on the same line and within 1024 characters.

A fault ends the tokens, but not what can be done with those before it: it shows only to who asks for a
token that was not settled when it was met.
-/

namespace EdgeMapper.Yaml

inductive Token where
  | version (major minor : Nat)
  | tagHandle (handle expansion : String)
  | otherDirective
  | documentStart
  | documentEnd
  | sequenceStart
  | mappingStart
  | blockEnd
  | flowSequenceStart
  | flowSequenceEnd
  | flowMappingStart
  | flowMappingEnd
  | entry
  | flowEntry
  | key
  | value
  | reference (name : String)
  | anchor (name : String)
  | tag (handle : Option String) (suffix : String)
  | scalar (text : String) (plain : Bool)
  deriving DecidableEq, Repr

/-- A fault, and how many tokens there are before it shows. -/
structure Stop where
  reach : Nat
  fault : Fault

structure Scan where
  tokens : List Token
  stop : Option Stop

namespace Scan

/-- A place where a key may have begun. -/
structure KeyStart where
  position : Nat
  required : Bool
  index : Nat
  line : Nat
  column : Nat

structure Lexer where
  cursor : Cursor
  tokens : List Token := []
  flow : Nat := 0
  indent : Int := -1
  indents : List Int := []
  keyAllowed : Bool := true
  starts : List (Nat × KeyStart) := []

namespace Lexer

private def push (l : Lexer) (t : Token) : Lexer := { l with tokens := l.tokens ++ [t] }

private def insertAt (l : Lexer) (position : Nat) (t : Token) : Lexer :=
  { l with tokens := l.tokens.take position ++ t :: l.tokens.drop position }

private def advance (l : Lexer) (n : Nat) : Lexer := { l with cursor := l.cursor.advance n }

private def allowKey (l : Lexer) (allowed : Bool) : Lexer := { l with keyAllowed := allowed }

private def start? (l : Lexer) : Option KeyStart := l.starts.lookup l.flow

private def forget (l : Lexer) : Lexer := { l with starts := l.starts.filter (·.1 ≠ l.flow) }

/-- Gives up the possible key at this depth. -/
private def dropStart (l : Lexer) : Except Fault Lexer :=
  match l.start? with
  | some start => if start.required then .error .badToken else .ok l.forget
  | none => .ok l

private def dropStale (l : Lexer) : Except Fault Lexer :=
  let stale (start : KeyStart) : Bool :=
    start.line ≠ l.cursor.line || start.index + 1024 < l.cursor.index
  if l.starts.any (fun (_, start) => stale start && start.required) then .error .badToken
  else .ok { l with starts := l.starts.filter fun (_, start) => !stale start }

private def saveStart (l : Lexer) : Except Fault Lexer :=
  if l.keyAllowed then
    l.dropStart.map fun l =>
      let start : KeyStart :=
        { position := l.tokens.length
          required := l.flow = 0 ∧ l.indent = l.cursor.column
          index := l.cursor.index
          line := l.cursor.line
          column := l.cursor.column }
      { l with starts := (l.flow, start) :: l.starts }
  else .ok l

private def unwind (column : Int) : Nat → Lexer → Lexer
  | 0, l => l
  | fuel + 1, l =>
    if l.flow = 0 ∧ column < l.indent then
      let l := { l with indent := l.indents.head?.getD (-1), indents := l.indents.tail }
      unwind column fuel (l.push .blockEnd)
    else l

private def unwindTo (l : Lexer) (column : Int) : Lexer := unwind column (l.indents.length + 1) l

private def openBlock (l : Lexer) (column position : Nat) (t : Token) : Lexer :=
  if l.indent < column then
    { l with indent := column, indents := l.indent :: l.indents }.insertAt position t
  else l

private def skipGap : Nat → Lexer → Lexer
  | 0, l => l
  | fuel + 1, l =>
    let c := l.cursor.skip (· = ' ')
    let c := if c.peek = '#' then c.skip (!isBreakOrEnd ·) else c
    match c.lineBreak? with
    | some (_, c) => skipGap fuel { l with cursor := c, keyAllowed := l.keyAllowed || l.flow = 0 }
    | none => { l with cursor := c }

/-! ## Names, tags and directives -/

private def isNameChar (c : Char) : Bool := c.isAlphanum || c = '-' || c = '_'

private def anchorName (c : Cursor) : Except Fault (String × Cursor) :=
  let (name, c) := c.span isNameChar
  if name.isEmpty || !(isBlankOrEnd c.peek || "?:,]\x7d%@\x60".toList.contains c.peek) then
    .error .badToken
  else .ok (String.ofList name, c)

private def isUriChar (c : Char) : Bool :=
  c.isAlphanum || "-;/?:@&=+$,_.!~*'()[]".toList.contains c

private def uriBytes : List Char → List UInt8 × List Char
  | '%' :: a :: b :: rest =>
    match Numeral.ofBase? 16 [a, b] with
    | some n =>
      let (bytes, rest) := uriBytes rest
      (UInt8.ofNat n :: bytes, rest)
    | none => ([], '%' :: a :: b :: rest)
  | rest => ([], rest)

private def uri : Nat → Cursor → Except Fault (List Char × Cursor)
  | 0, _ => .error .badToken
  | fuel + 1, c =>
    if c.peek = '%' then
      let (bytes, _) := uriBytes c.rest
      if bytes.isEmpty then .error .badToken
      else
        match String.fromUTF8? bytes.toByteArray with
        | none => .error .badToken
        | some text =>
          (uri fuel (c.advance (3 * bytes.length))).map fun (rest, c) => (text.toList ++ rest, c)
    else
      let (run, c) := c.span isUriChar
      if run.isEmpty then .ok ([], c)
      else (uri fuel c).map fun (rest, c) => (run ++ rest, c)

private def requireUri (fuel : Nat) (c : Cursor) : Except Fault (String × Cursor) :=
  match uri fuel c with
  | .error fault => .error fault
  | .ok ([], _) => .error .badToken
  | .ok (text, c) => .ok (String.ofList text, c)

private def tagHandle (c : Cursor) : Except Fault (String × Cursor) :=
  if c.peek ≠ '!' then .error .badToken
  else if c.peekAt 1 = ' ' then .ok ("!", c.step)
  else
    let (name, c) := c.step.span isNameChar
    if c.peek = '!' then .ok (String.ofList ('!' :: name ++ ['!']), c.step) else .error .badToken

private def tagToken (fuel : Nat) (c : Cursor) : Except Fault (Token × Cursor) := do
  let (token, c) ←
    if c.peekAt 1 = '<' then do
      let (suffix, c) ← requireUri fuel (c.advance 2)
      if c.peek = '>' then .ok (Token.tag none suffix, c.step) else .error .badToken
    else if isBlankOrEnd (c.peekAt 1) then .ok (Token.tag none "!", c.step)
    else do
      let ahead := c.step.rest.takeWhile fun char => !isSpaceOrEnd char
      let (handle, c) ← if ahead.contains '!' then tagHandle c else .ok ("!", c.step)
      let (suffix, c) ← requireUri fuel c
      .ok (Token.tag (some handle) suffix, c)
  if isSpaceOrEnd c.peek then .ok (token, c) else .error .badToken

private def versionNumber (c : Cursor) : Except Fault (Nat × Cursor) :=
  let (digits, c) := c.span Char.isDigit
  if digits.isEmpty then .error .badToken
  else if Numeral.maxDecimalDigits < digits.length then .error .unreadable
  else .ok (Numeral.ofDigits digits, c)

private def versionDirective (c : Cursor) : Except Fault (Token × Cursor) := do
  let (major, c) ← versionNumber (c.skip (· = ' '))
  if c.peek ≠ '.' then .error .badToken
  else do
    let (minor, c) ← versionNumber c.step
    if isSpaceOrEnd c.peek then .ok (Token.version major minor, c) else .error .badToken

private def tagDirective (fuel : Nat) (c : Cursor) : Except Fault (Token × Cursor) := do
  let (handle, c) ← tagHandle (c.skip (· = ' '))
  if c.peek ≠ ' ' then .error .badToken
  else do
    let (expansion, c) ← requireUri fuel (c.skip (· = ' '))
    if isSpaceOrEnd c.peek then .ok (Token.tagHandle handle expansion, c) else .error .badToken

private def directive (fuel : Nat) (c : Cursor) : Except Fault (Token × Cursor) := do
  let (name, c) := c.step.span isNameChar
  if name.isEmpty || !isSpaceOrEnd c.peek then .error .badToken
  else do
    let (token, c) ←
      if name = "YAML".toList then versionDirective c
      else if name = "TAG".toList then tagDirective fuel c
      else .ok (Token.otherDirective, c.skip (!isBreakOrEnd ·))
    .ok (token, ← c.endOfLine)

/-! ## One token after another -/

private def topLevel (l : Lexer) : Except Fault Lexer :=
  (l.unwindTo (-1)).dropStart.map (·.allowKey false)

private def marker (l : Lexer) (t : Token) : Except Fault Lexer :=
  l.topLevel.map fun l => (l.advance 3).push t

private def openFlow (l : Lexer) (t : Token) : Except Fault Lexer :=
  l.saveStart.map fun l => ({ l with flow := l.flow + 1, keyAllowed := true }.advance 1).push t

private def closeFlow (l : Lexer) (t : Token) : Except Fault Lexer :=
  if l.flow = 0 then .error .badToken
  else
    l.dropStart.map fun l =>
      ({ l with flow := l.flow - 1, keyAllowed := false }.advance 1).push t

private def flowEntry (l : Lexer) : Except Fault Lexer :=
  (l.allowKey true).dropStart.map fun l => (l.advance 1).push .flowEntry

private def blockEntry (l : Lexer) : Except Fault Lexer :=
  if l.flow = 0 ∧ !l.keyAllowed then .error .badToken
  else
    let l := if l.flow = 0 then l.openBlock l.cursor.column l.tokens.length .sequenceStart else l
    (l.allowKey true).dropStart.map fun l => (l.advance 1).push .entry

private def complexKey (l : Lexer) : Except Fault Lexer :=
  if l.flow = 0 ∧ !l.keyAllowed then .error .badToken
  else
    let l := if l.flow = 0 then l.openBlock l.cursor.column l.tokens.length .mappingStart else l
    (l.allowKey (l.flow = 0)).dropStart.map fun l => (l.advance 1).push .key

private def value (l : Lexer) : Except Fault Lexer :=
  let done (l : Lexer) : Lexer := (l.advance 1).push .value
  match l.start? with
  | some start =>
    let l := l.forget.insertAt start.position .key
    let l := if l.flow = 0 then l.openBlock start.column start.position .mappingStart else l
    .ok (done (l.allowKey false))
  | none =>
    if l.flow = 0 ∧ !l.keyAllowed then .error .badToken
    else
      let l := if l.flow = 0 then l.openBlock l.cursor.column l.tokens.length .mappingStart else l
      (l.allowKey (l.flow = 0)).dropStart.map done

/-- A token that may begin a key, read by `read`. -/
private def content (l : Lexer) (read : Cursor → Except Fault (Token × Cursor)) :
    Except Fault Lexer := do
  let l ← l.saveStart
  let (token, cursor) ← read l.cursor
  .ok ({ l with cursor := cursor, keyAllowed := false }.push token)

private def named (make : String → Token) (c : Cursor) : Except Fault (Token × Cursor) :=
  (anchorName c.step).map fun (name, c) => (make name, c)

private def quoted (double : Bool) (fuel : Nat) (c : Cursor) : Except Fault (Token × Cursor) :=
  (Scalar.quoted double fuel c.step).map fun (text, c) => (Token.scalar (String.ofList text) false, c)

private def block (l : Lexer) (isFolded : Bool) (fuel : Nat) : Except Fault Lexer := do
  let l ← (l.allowKey true).dropStart
  let (text, cursor) ← Scalar.block isFolded l.indent fuel l.cursor.step
  .ok ({ l with cursor := cursor }.push (Token.scalar (String.ofList text) false))

private def plain (l : Lexer) (fuel : Nat) : Except Fault Lexer :=
  l.saveStart.map fun l =>
    let p := Scalar.plain (l.flow ≠ 0) (l.indent + 1).toNat fuel l.cursor [] false
    { l with cursor := p.cursor, keyAllowed := p.broken }.push
      (Token.scalar (String.ofList p.text) true)

/-- May a plain scalar begin here? Not with an indicator, unless it is a dash, a question mark or a
colon with something behind it. -/
private def beginsPlain (l : Lexer) : Bool :=
  let c := l.cursor.peek
  let indicator := isBlankOrEnd c || "-?:,[]\x7b\x7d#&*!|>'\"%@\x60".toList.contains c
  !indicator
    || (!isBlankOrEnd (l.cursor.peekAt 1) && (c = '-' || (l.flow = 0 && (c = '?' || c = ':'))))

private def next (fuel : Nat) (l : Lexer) : Except Fault Lexer :=
  let c := l.cursor
  let char := c.peek
  let single := isBlankOrEnd (c.peekAt 1)
  if char = '%' ∧ c.column = 0 then do
    let l ← l.topLevel
    let (token, cursor) ← directive fuel l.cursor
    .ok ({ l with cursor := cursor }.push token)
  else if c.column = 0 ∧ c.atMarker '-' then l.marker .documentStart
  else if c.column = 0 ∧ c.atMarker '.' then l.marker .documentEnd
  else if char = '[' then l.openFlow .flowSequenceStart
  else if char = '\x7b' then l.openFlow .flowMappingStart
  else if char = ']' then l.closeFlow .flowSequenceEnd
  else if char = '\x7d' then l.closeFlow .flowMappingEnd
  else if char = ',' then l.flowEntry
  else if char = '-' ∧ single then l.blockEntry
  else if char = '?' ∧ (l.flow ≠ 0 ∨ single) then l.complexKey
  else if char = ':' ∧ (l.flow ≠ 0 ∨ single) then l.value
  else if char = '*' then l.content (named .reference)
  else if char = '&' then l.content (named .anchor)
  else if char = '!' then l.content (tagToken fuel)
  else if char = '|' ∧ l.flow = 0 then l.block false fuel
  else if char = '>' ∧ l.flow = 0 then l.block true fuel
  else if char = '\x27' then l.content (quoted false fuel)
  else if char = '\x22' then l.content (quoted true fuel)
  else if l.beginsPlain then l.plain fuel
  else .error .badToken

/-- How many tokens are settled: where a key may begin, tokens may still be put in. -/
private def settled (l : Lexer) : Nat :=
  l.starts.foldl (fun count (_, start) => min count start.position) l.tokens.length

private def advanceToken (fuel : Nat) (l : Lexer) : Except Fault (Lexer × Bool) := do
  let l ← (skipGap fuel l).dropStale
  let l := l.unwindTo l.cursor.column
  if l.cursor.atEnd then .ok (← l.topLevel, true) else .ok (← next fuel l, false)

/-- Reads on up to the end of the text. `reach` is how many tokens were settled before the last one was
read, for a fault that only shows behind it. -/
private def run (fuel : Nat) : Nat → Nat → Lexer → Scan
  | 0, reach, l => ⟨l.tokens, some ⟨reach, .badToken⟩⟩
  | rounds + 1, reach, l =>
    match l.dropStale with
    | .error fault => ⟨l.tokens, some ⟨reach, fault⟩⟩
    | .ok l =>
      match advanceToken fuel l with
      | .error fault => ⟨l.tokens, some ⟨l.settled, fault⟩⟩
      | .ok (after, true) => ⟨after.tokens, none⟩
      | .ok (after, false) => run fuel rounds l.settled after

end Lexer

private def dropByteOrderMark : List Char → List Char
  | [] => []
  | c :: rest => if c.toNat = 0xfeff then rest else c :: rest

def ofText (text : String) : Scan :=
  let chars := normalizeBreaks text.toList
  if chars.all isAcceptable then
    let fuel := chars.length + 1
    Lexer.run fuel (fuel + 1) 0 { cursor := { rest := dropByteOrderMark chars } }
  else ⟨[], some ⟨0, .badCharacter⟩⟩

end Scan

end EdgeMapper.Yaml
