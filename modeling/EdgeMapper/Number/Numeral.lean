import EdgeMapper.Number.Shortest
import EdgeMapper.Text.Blank
import EdgeMapper.Text.Digit
/-!
# Numerals

How numbers are written and read. A double-precision number is written with the fewest digits that
read back: in positional notation when its leading digit stands between the places -4 and 15, else
with an exponent of at least two digits. A fraction is always shown in positional notation, a `.0` if
need be. Numerals are read either strictly, as they are written here, or as people write them.
-/

namespace EdgeMapper.Numeral

def digitValue (c : Char) : Nat := c.toNat - '0'.toNat

def ofDigits (digits : List Char) : Nat :=
  digits.foldl (fun n c => 10 * n + digitValue c) 0

def hexDigit? (c : Char) : Option Nat :=
  if c.isDigit then some (digitValue c)
  else if 'a' ≤ c ∧ c ≤ 'f' then some (c.toNat - 'a'.toNat + 10)
  else if 'A' ≤ c ∧ c ≤ 'F' then some (c.toNat - 'A'.toNat + 10)
  else none

def ofBase? (base : Nat) (digits : List Char) : Option Nat :=
  if digits.isEmpty then none
  else digits.foldlM (fun n c => (hexDigit? c).bind fun d =>
    if d < base then some (base * n + d) else none) 0

private def trimZeros (digits : List Char) : List Char :=
  (digits.reverse.dropWhile (· = '0')).reverse

private def zeros (count : Nat) : List Char := List.replicate count '0'

private def withPoint (digits : List Char) (leading : Int) : List Char :=
  if leading < 0 then '0' :: '.' :: (zeros (-leading - 1).toNat ++ digits)
  else
    let whole := leading.toNat + 1
    if digits.length ≤ whole then digits ++ zeros (whole - digits.length) ++ ['.', '0']
    else digits.take whole ++ '.' :: digits.drop whole

private def withExponent (digits : List Char) (leading : Int) : List Char :=
  let mantissa := match digits with
    | [] => ['0']
    | [d] => [d]
    | d :: rest => d :: '.' :: rest
  let size := Nat.toDigits 10 leading.natAbs
  mantissa ++ 'e' :: (if leading < 0 then '-' else '+') ::
    (if size.length < 2 then '0' :: size else size)

private def magnitude (significand : Nat) (exponent : Int) : List Char :=
  if significand = 0 then ['0', '.', '0']
  else
    let (n, place) := Shortest.digits significand exponent
    let run := Nat.toDigits 10 n
    let leading := place + run.length - 1
    let digits := trimZeros run
    if -4 ≤ leading ∧ leading < 16 then withPoint digits leading else withExponent digits leading

private def sign (negative : Bool) (text : List Char) : String :=
  String.ofList (if negative then '-' :: text else text)

def ofBinary64 (x : Binary64) : String :=
  match x.parts with
  | .nan => "nan"
  | .infinite negative => sign negative "inf".toList
  | .finite negative significand exponent => sign negative (magnitude significand exponent)

def splitSign : List Char → Bool × List Char
  | '-' :: rest => (true, rest)
  | '+' :: rest => (false, rest)
  | rest => (false, rest)

private def readExponent? : List Char → Option Int
  | [] => some 0
  | c :: rest =>
    if c = 'e' ∨ c = 'E' then
      let (negative, digits) := splitSign rest
      if digits.isEmpty || !digits.all Char.isDigit then none
      else some (if negative then -(ofDigits digits : Int) else ofDigits digits)
    else none

private def readUnsigned? (negative : Bool) (text : List Char) : Option Binary64 :=
  let whole := text.takeWhile Char.isDigit
  let rest := text.dropWhile Char.isDigit
  let (fraction, rest) := match rest with
    | '.' :: tail => (tail.takeWhile Char.isDigit, tail.dropWhile Char.isDigit)
    | _ => ([], rest)
  if whole.isEmpty && fraction.isEmpty then none
  else (readExponent? rest).map fun e =>
    Binary64.ofDecimal negative (ofDigits (whole ++ fraction)) (e - fraction.length)

/-- Reads digits with an optional point and exponent, or one of the words for what has no digits. -/
def binary64OfChars? (chars : List Char) : Option Binary64 :=
  let (negative, rest) := splitSign chars
  if ["inf".toList, "infinity".toList].contains rest then some (Binary64.infinity negative)
  else if rest = "nan".toList then some Binary64.nan
  else readUnsigned? negative rest

def toBinary64? (text : String) : Option Binary64 := binary64OfChars? text.toList

/-! ## Numerals as people write them

Blanks may stand around the numeral, its digits may be those of any script, and words may be in
capitals. -/

private def plainDigits (chars : List Char) : List Char := (Text.trim chars).map Text.toAsciiDigit

private def baseMark? (base : Nat) : Option Char := [(2, 'b'), (8, 'o'), (16, 'x')].lookup base

private def dropBaseMark (base : Nat) : List Char → List Char
  | '0' :: c :: rest => if some c.toLower = baseMark? base then rest else '0' :: c :: rest
  | digits => digits

/-- The most digits that a decimal numeral may have. -/
@[irreducible] def maxDecimalDigits : Nat := 4300

@[irreducible] def tooLong : Nat := Nat.pow 10 maxDecimalDigits

/-- Only a number that is not too long is written in decimal digits. -/
@[irreducible] def isShort (i : Int) : Bool := i.natAbs < tooLong

theorem isShort_iff {i : Int} : isShort i = true ↔ i.natAbs < tooLong := by
  rw [isShort, decide_eq_true_iff]

theorem isShort_tooLong : isShort tooLong = false := by
  rw [← Bool.not_eq_true, isShort_iff]
  exact Nat.lt_irrefl tooLong

theorem ne_tooLong {i : Int} (h : isShort i = true) : i ≠ tooLong := by
  rintro rfl
  rw [isShort_tooLong] at h
  cases h

theorem isShort_of_lt {i : Int} (h : i.natAbs < Nat.pow 10 20) : isShort i = true := by
  have hdigits : 20 ≤ maxDecimalDigits := by
    rw [maxDecimalDigits]
    decide
  rw [isShort_iff, tooLong]
  exact Nat.lt_of_lt_of_le h (Nat.pow_le_pow_right (by decide) hdigits)

/-- Reads a whole number in base two, eight, ten or sixteen: a sign and the mark of the base may
come first. -/
def wholeOfChars? (base : Nat) (chars : List Char) : Option Int :=
  let (negative, digits) := splitSign (plainDigits chars)
  if base = 10 ∧ maxDecimalDigits < digits.length then none
  else (ofBase? base (dropBaseMark base digits)).map fun n => if negative then -(n : Int) else n

def realOfChars? (chars : List Char) : Option Binary64 :=
  binary64OfChars? ((plainDigits chars).map Char.toLower)

example : wholeOfChars? 16 " -0xF ".toList = some (-15) ∧ wholeOfChars? 8 ['0', 'x'] = none := by
  decide +kernel

end EdgeMapper.Numeral
