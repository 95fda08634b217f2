import EdgeMapper.Cypher.Identifier
/-!
# Statement templates

Statement text is put together from two kinds of pieces: fixed text, written as it stands, and names,
written as quoted identifiers. Keeping the pieces apart until the end says which part of a text came
from a name, whatever characters the name holds.
-/

namespace EdgeMapper.Cypher

inductive Piece where
  | fixed (text : String)
  | name (identifier : String)
  deriving DecidableEq, Repr

abbrev Template := List Piece

def Piece.chars : Piece → List Char
  | .fixed text => text.toList
  | .name identifier => Identifier.quoteChars identifier.toList

namespace Template

def chars (template : Template) : List Char := template.flatMap Piece.chars

def text (template : Template) : String := String.ofList template.chars

/-- Templates one after another, with fixed text between them. -/
def join (separator : String) : List Template → Template
  | [] => []
  | [template] => template
  | template :: rest => template ++ .fixed separator :: join separator rest

def lines : List Template → Template := join "\n"

def list : List Template → Template := join ", "

end Template

end EdgeMapper.Cypher
