/-!
# Instants

A moment is a number of microseconds since the start of 1970, and is written as a date and a time of
day in universal time, with six places after the seconds unless all of them are zero.
-/

namespace EdgeMapper

structure Instant where
  micros : Int
  deriving DecidableEq, Repr, Inhabited

structure Date where
  year : Int
  month : Nat
  day : Nat
  deriving DecidableEq, Repr

namespace Date

/-- The day that follows the first of January 1970 by `days`. Years are counted from March, so that a
leap day ends its year, in cycles of four hundred years, which all have 146097 days. -/
def ofDays (days : Int) : Date :=
  let shifted := days + 719468
  let cycle := shifted.fdiv 146097
  let dayOfCycle := (shifted.fmod 146097).toNat
  let yearOfCycle :=
    (dayOfCycle - dayOfCycle / 1460 + dayOfCycle / 36524 - dayOfCycle / 146096) / 365
  let dayOfYear := dayOfCycle - (365 * yearOfCycle + yearOfCycle / 4 - yearOfCycle / 100)
  let monthFromMarch := (5 * dayOfYear + 2) / 153
  let month := if monthFromMarch < 10 then monthFromMarch + 3 else monthFromMarch - 9
  { year := (yearOfCycle : Int) + cycle * 400 + if month ≤ 2 then 1 else 0
    month := month
    day := dayOfYear - (153 * monthFromMarch + 2) / 5 + 1 }

def toDays (d : Date) : Int :=
  let yearFromMarch := if d.month ≤ 2 then d.year - 1 else d.year
  let monthFromMarch := if d.month ≤ 2 then d.month + 9 else d.month - 3
  let cycle := yearFromMarch.fdiv 400
  let yearOfCycle := (yearFromMarch.fmod 400).toNat
  let dayOfYear := (153 * monthFromMarch + 2) / 5 + d.day - 1
  cycle * 146097 + (yearOfCycle * 365 + yearOfCycle / 4 - yearOfCycle / 100 + dayOfYear : Nat) - 719468

def isLeap (year : Int) : Bool := year % 4 = 0 && (year % 100 ≠ 0 || year % 400 = 0)

def daysInMonth (year : Int) (month : Nat) : Nat :=
  if month = 2 then if isLeap year then 29 else 28
  else if [4, 6, 9, 11].contains month then 30 else 31

example : toDays ⟨1970, 1, 1⟩ = 0 ∧ toDays ⟨2000, 2, 29⟩ = 11016 ∧ ofDays 11016 = ⟨2000, 2, 29⟩ := by
  decide +kernel

end Date

def padded (width n : Nat) : String :=
  let digits := Nat.toDigits 10 n
  String.ofList (List.replicate (width - digits.length) '0' ++ digits)

def Date.text (d : Date) : String :=
  padded 4 d.year.toNat ++ "-" ++ padded 2 d.month ++ "-" ++ padded 2 d.day

namespace Instant

def timeText (microsOfDay : Nat) : String :=
  let seconds := microsOfDay / 1000000
  let fraction := microsOfDay % 1000000
  padded 2 (seconds / 3600) ++ ":" ++ padded 2 (seconds / 60 % 60) ++ ":" ++ padded 2 (seconds % 60)
    ++ if fraction = 0 then "" else "." ++ padded 6 fraction

def microsPerDay : Int := 86400000000

def text (t : Instant) : String :=
  (Date.ofDays (t.micros.fdiv microsPerDay)).text ++ "T"
    ++ timeText (t.micros.fmod microsPerDay).toNat ++ "+00:00"

example : text ⟨10⟩ = "1970-01-01T00:00:00.000010+00:00" := by decide +kernel

example : text ⟨-1⟩ = "1969-12-31T23:59:59.999999+00:00" := by decide +kernel

example : text ⟨1709164800000000⟩ = "2024-02-29T00:00:00+00:00" := by decide +kernel

end Instant

end EdgeMapper
