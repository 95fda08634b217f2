import EdgeMapper.Yaml.Cursor
import EdgeMapper.Yaml.Tag
/-!
# Styles of scalars

A text is written plain where it reads back as the same text, in single quotes where it would be read
as something else, and in double quotes where it holds characters that have to be escaped.
-/

namespace EdgeMapper.Yaml

inductive Style where
  | plain
  | single
  | double
  deriving DecidableEq, Repr

namespace Style

def isVisible (c : Char) : Bool := 0x20 ≤ c.toNat && c.toNat ≤ 0x7e

private def isBlankAfter : List Char → Bool
  | [] => true
  | c :: _ => isBlankOrEnd c

private def isLeadingIndicator (c : Char) (rest : List Char) : Bool :=
  "#,[]\x7b\x7d&*!|>'\"%@\x60".toList.contains c || ("?:-".toList.contains c && isBlankAfter rest)

/-- A colon before a blank, or a number sign after one, ends a plain scalar. -/
private def hasInnerIndicator : Char → List Char → Bool
  | _, [] => false
  | before, c :: rest =>
    (c = ':' && isBlankAfter rest) || (c = '#' && isBlankOrEnd before) || hasInnerIndicator c rest

private def beginsWithMarker : List Char → Bool
  | a :: b :: c :: _ => a = b && b = c && (a = '-' || a = '.')
  | _ => false

private def readsAsPlain (chars : List Char) : Bool :=
  match chars with
  | [] => true
  | c :: rest =>
    !(beginsWithMarker chars || isLeadingIndicator c rest || hasInnerIndicator c rest
      || c = ' ' || chars.getLast? = some ' ' || chars.contains '\n')

/-- Whether a space stands beside a line feed; a reader would drop it. -/
private def hasSpaceAtBreak : List Char → Bool
  | a :: b :: rest => (a = ' ' && b = '\n') || (a = '\n' && b = ' ') || hasSpaceAtBreak (b :: rest)
  | _ => false

def ofText (text : String) : Style :=
  let chars := text.toList
  if !chars.all (fun c => isVisible c || c = '\n') || hasSpaceAtBreak chars then double
  else if readsAsPlain chars && Tag.ofPlain text = .text then plain
  else single

end Style

end EdgeMapper.Yaml
