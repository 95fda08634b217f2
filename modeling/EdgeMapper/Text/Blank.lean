/-!
# Blanks

The characters that count as white space, and texts without the blanks around them.
-/

namespace EdgeMapper.Text

/-- The white space characters of the Unicode standard. -/
def isBlank (c : Char) : Bool :=
  (9 ≤ c.toNat && c.toNat ≤ 13) || (0x2000 ≤ c.toNat && c.toNat ≤ 0x200a) ||
    [0x20, 0x85, 0xa0, 0x1680, 0x2028, 0x2029, 0x202f, 0x205f, 0x3000].contains c.toNat

def trim (chars : List Char) : List Char :=
  ((chars.dropWhile isBlank).reverse.dropWhile isBlank).reverse

def dropFinalLineFeed (chars : List Char) : List Char :=
  if chars.getLast? = some '\n' then chars.dropLast else chars

example : trim " a b\t".toList = "a b".toList ∧ trim [' ', '\n'] = [] := by decide

end EdgeMapper.Text
