import EdgeMapper.Number.Binary64
/-!
# The fewest digits that read back

A finite number stands for every real that rounds to it. Among the decimals in that interval the
shortest is taken, and of several shortest ones the nearest. Of each length only the two neighbours
of the number on the grid of that length can be candidates: if any point of the grid lies in the
interval, one of these does.
-/

namespace EdgeMapper.Shortest

/-- The reals that round to `significand · 2 ^ exponent`, as numerators over one denominator. -/
structure Interval where
  low : Nat
  value : Nat
  high : Nat
  den : Nat
  closed : Bool

/-- Half a unit either way, but a quarter below a power of two, where the units grow finer. The ends
belong to the interval when the significand is even. -/
def interval (significand : Nat) (exponent : Int) : Interval :=
  let below := if significand = Binary64.hiddenBit ∧ -1074 < exponent then 1 else 2
  let unit := 1 <<< (exponent - 2).toNat
  { low := (4 * significand - below) * unit
    value := 4 * significand * unit
    high := (4 * significand + 2) * unit
    den := 1 <<< (2 - exponent).toNat
    closed := significand % 2 = 0 }

def Interval.inUnits (i : Interval) (place : Int) : Interval :=
  let up := Nat.pow 10 (-place).toNat
  { low := i.low * up
    value := i.value * up
    high := i.high * up
    den := i.den * Nat.pow 10 place.toNat
    closed := i.closed }

def Interval.holds (i : Interval) (n : Nat) : Bool :=
  if i.closed then i.low ≤ n * i.den && n * i.den ≤ i.high
  else i.low < n * i.den && n * i.den < i.high

def Interval.candidate? (i : Interval) : Option Nat :=
  let floor := i.value / i.den
  match i.holds floor, i.holds (floor + 1) with
  | true, true =>
    let rest := 2 * (i.value % i.den)
    some (if rest < i.den then floor
      else if i.den < rest then floor + 1
      else if floor % 2 = 0 then floor else floor + 1)
  | true, false => some floor
  | false, true => some (floor + 1)
  | false, false => none

def Interval.leadingPlace (i : Interval) : Int :=
  ((Nat.toDigits 10 (i.value * Nat.pow 10 400 / i.den)).length : Int) - 401

/-- Tries `count` digits, then one more, as long as there is fuel; seventeen are always enough. -/
def search (i : Interval) (leading : Int) : Nat → Nat → Nat × Int
  | 0, count =>
    let place := leading + 1 - count
    let j := i.inUnits place
    (j.value / j.den, place)
  | fuel + 1, count =>
    let place := leading + 1 - count
    match (i.inUnits place).candidate? with
    | some digits => (digits, place)
    | none => search i leading fuel (count + 1)

def digits (significand : Nat) (exponent : Int) : Nat × Int :=
  let i := interval significand exponent
  search i i.leadingPlace 17 1

end EdgeMapper.Shortest
