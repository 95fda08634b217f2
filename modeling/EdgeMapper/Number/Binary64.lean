/-!
# Double-precision numbers

A number is kept as its 64 bits, and everything about it is computed from them with whole numbers:
what it denotes, and which number is nearest to a quotient. Nothing here goes through machine
arithmetic, so every result can be reasoned about.
-/

namespace EdgeMapper

structure Binary64 where
  bits : UInt64
  deriving DecidableEq, Repr

namespace Binary64

/-- What the bits say: a finite number is `significand · 2 ^ exponent` with a sign. -/
inductive Parts where
  | nan
  | infinite (negative : Bool)
  | finite (negative : Bool) (significand : Nat) (exponent : Int)
  deriving DecidableEq, Repr

def signBit : Nat := 1 <<< 63

def hiddenBit : Nat := 1 <<< 52

def lastField : Nat := 2047

def parts (x : Binary64) : Parts :=
  let word := x.bits.toNat
  let negative := decide (signBit ≤ word)
  let field : Nat := word % signBit / hiddenBit
  let fraction := word % hiddenBit
  if field = lastField then
    if fraction = 0 then .infinite negative else .nan
  else if field = 0 then .finite negative fraction (-1074)
  else .finite negative (hiddenBit + fraction) ((field : Int) - 1075)

private def ofMagnitude (negative : Bool) (magnitude : Nat) : Binary64 :=
  ⟨UInt64.ofNat (magnitude + if negative then signBit else 0)⟩

def nan : Binary64 := ofMagnitude false (lastField * hiddenBit + hiddenBit / 2)

def infinity (negative : Bool) : Binary64 := ofMagnitude negative (lastField * hiddenBit)

def zero (negative : Bool) : Binary64 := ofMagnitude negative 0

def roundQuotient (num den : Nat) : Nat :=
  let low := num / den
  let rest := 2 * (num % den)
  if rest < den then low
  else if den < rest then low + 1
  else if low % 2 = 0 then low else low + 1

private def scaled (num den : Nat) (exponent : Int) : Nat × Nat :=
  if 0 ≤ exponent then (num, den <<< exponent.toNat) else (num <<< (-exponent).toNat, den)

/-- The number nearest to `num / den`, a tie going to the even significand. The unit in the last
place is chosen so that the significand has 53 bits, or is the least unit there is; a significand
that rounds up to 54 bits carries into the exponent field by itself. -/
def ofQuotient (negative : Bool) (num den : Nat) : Binary64 :=
  if num = 0 then zero negative
  else
    let guess : Int := (num.log2 : Int) - den.log2 - 53
    let (n, d) := scaled num den guess
    let exponent := max (if n / d < 2 * hiddenBit then guess else guess + 1) (-1074)
    let (n, d) := scaled num den exponent
    let magnitude := (exponent + 1074).toNat * hiddenBit + roundQuotient n d
    ofMagnitude negative (min magnitude (lastField * hiddenBit))

/-- The number nearest to `digits · 10 ^ exponent`. Beyond four hundred places either way the answer
is infinity or zero whatever the digits are. -/
def ofDecimal (negative : Bool) (digits : Nat) (exponent : Int) : Binary64 :=
  let place := exponent + (Nat.toDigits 10 digits).length
  if digits = 0 ∨ place < -400 then zero negative
  else if 400 < place then infinity negative
  else if 0 ≤ exponent then ofQuotient negative (digits * Nat.pow 10 exponent.toNat) 1
  else ofQuotient negative digits (Nat.pow 10 (-exponent).toNat)

def ofInt (i : Int) : Binary64 := ofQuotient (decide (i < 0)) i.natAbs 1

def toInt? (x : Binary64) : Option Int :=
  match x.parts with
  | .finite negative significand exponent =>
    let signed (n : Nat) : Int := if negative then -n else n
    if 0 ≤ exponent then some (signed (significand <<< exponent.toNat))
    else
      let unit := 1 <<< (-exponent).toNat
      if significand % unit = 0 then some (signed (significand / unit)) else none
  | _ => none

def isFinite (x : Binary64) : Bool :=
  match x.parts with
  | .finite .. => true
  | _ => false

/-- Equality of numbers: both zeros are equal, and what is not a number equals nothing. -/
def sameNumber (x y : Binary64) : Bool :=
  match x.parts, y.parts with
  | .nan, _ => false
  | _, .nan => false
  | .finite _ 0 _, .finite _ 0 _ => true
  | _, _ => x = y

private def ofSigned (num : Int) (exponent : Int) : Binary64 :=
  let (n, d) := scaled num.natAbs 1 (-exponent)
  ofQuotient (decide (num < 0)) n d

def add (x y : Binary64) : Binary64 :=
  match x.parts, y.parts with
  | .finite xn xs xe, .finite yn ys ye =>
    let e := min xe ye
    let part (negative : Bool) (significand : Nat) (exponent : Int) : Int :=
      let m : Int := (significand <<< (exponent - e).toNat : Nat)
      if negative then -m else m
    ofSigned (part xn xs xe + part yn ys ye) e
  | .infinite a, .infinite b => if a = b then x else nan
  | .infinite _, .finite .. => x
  | .finite .., .infinite _ => y
  | _, _ => nan

def mul (x y : Binary64) : Binary64 :=
  match x.parts, y.parts with
  | .finite xn xs xe, .finite yn ys ye =>
    let (n, d) := scaled (xs * ys) 1 (-(xe + ye))
    ofQuotient (xn != yn) n d
  | .infinite a, .infinite b => infinity (a != b)
  | .infinite a, .finite b ys _ => if ys = 0 then nan else infinity (a != b)
  | .finite a xs _, .infinite b => if xs = 0 then nan else infinity (a != b)
  | _, _ => nan

def negate (x : Binary64) : Binary64 := ⟨x.bits ^^^ 0x8000000000000000⟩

example : (ofDecimal false 15 (-1)).parts = .finite false (3 * (hiddenBit / 2)) (-52) := by
  decide +kernel

example : (ofDecimal false 5 (-324)).bits = 1 ∧ ofDecimal false 1 400 = infinity false := by
  decide +kernel

end Binary64

end EdgeMapper
