import EdgeMapper.Instant
import EdgeMapper.Number.Numeral
/-!
# Timestamps

Dates, and dates with a time of day and perhaps an offset from universal time, as plain scalars spell
them.
-/

namespace EdgeMapper.Yaml

structure TimeOfDay where
  hour : Nat
  minute : Nat
  second : Nat
  micros : Nat
  offset : Option Int
  deriving DecidableEq, Repr

structure Timestamp where
  date : Date
  time : Option TimeOfDay
  deriving DecidableEq, Repr

namespace Timestamp

private def digits? (least most : Nat) (chars : List Char) : Option (Nat × List Char) :=
  let run := (chars.take most).takeWhile Char.isDigit
  if run.length < least then none else some (Numeral.ofDigits run, chars.drop run.length)

private def char? (c : Char) : List Char → Option (List Char)
  | d :: rest => if c = d then some rest else none
  | [] => none

private def isBlank (c : Char) : Bool := c = ' ' || c = '\t'

/-- Microseconds from a point and any number of digits, of which the first six count. -/
private def fraction (chars : List Char) : Nat × List Char :=
  match chars with
  | '.' :: rest =>
    let run := rest.takeWhile Char.isDigit
    let six := run.take 6
    (Numeral.ofDigits (six ++ List.replicate (6 - six.length) '0'), rest.drop run.length)
  | _ => (0, chars)

private def readOffset? (chars : List Char) : Option (Option Int) :=
  match chars.dropWhile isBlank with
  | [] => if chars.isEmpty then some none else none
  | ['Z'] => some (some 0)
  | sign :: rest =>
    if sign = '+' ∨ sign = '-' then do
      let (hours, rest) ← digits? 1 2 rest
      let minutes ← match rest with
        | [] => some 0
        | ':' :: rest => do
          let (minutes, rest) ← digits? 2 2 rest
          if rest.isEmpty then some minutes else none
        | _ => none
      let total : Int := hours * 60 + minutes
      some (some (if sign = '-' then -total else total))
    else none

private def time? (chars : List Char) : Option TimeOfDay := do
  let (hour, rest) ← digits? 1 2 chars
  let (minute, rest) ← digits? 2 2 (← char? ':' rest)
  let (second, rest) ← digits? 2 2 (← char? ':' rest)
  let (micros, rest) := fraction rest
  some ⟨hour, minute, second, micros, ← readOffset? rest⟩

private def gap? : List Char → Option (List Char)
  | [] => none
  | c :: rest =>
    if c = 'T' ∨ c = 't' then some rest
    else if isBlank c then some (rest.dropWhile isBlank)
    else none

private def ofChars? (chars : List Char) : Option Timestamp := do
  let (year, rest) ← digits? 4 4 chars
  let (month, rest) ← digits? 1 2 (← char? '-' rest)
  let (day, rest) ← digits? 1 2 (← char? '-' rest)
  let date : Date := ⟨year, month, day⟩
  if rest.isEmpty then some ⟨date, none⟩ else some ⟨date, some (← time? (← gap? rest))⟩

def ofText? (text : String) : Option Timestamp := ofChars? (Text.dropFinalLineFeed text.toList)

/-- Is the text taken for a timestamp when nothing says that it is one? A date without a time then
needs two digits for month and day. -/
def isEvident (chars : List Char) : Bool :=
  match ofChars? chars with
  | some t => t.time.isSome || chars.length = 10
  | none => false

def isValid (t : Timestamp) : Bool :=
  let d := t.date
  1 ≤ d.year && 1 ≤ d.month && d.month ≤ 12 && 1 ≤ d.day && d.day ≤ Date.daysInMonth d.year d.month
    && match t.time with
      | none => true
      | some time =>
        time.hour < 24 && time.minute < 60 && time.second < 60
          && (time.offset.getD 0).natAbs < 24 * 60

private def fieldMicros (t : Timestamp) : Int :=
  t.date.toDays * Instant.microsPerDay + match t.time with
    | none => 0
    | some time =>
      (((time.hour * 60 + time.minute) * 60 + time.second) * 1000000 + time.micros : Nat)

private def offset? (t : Timestamp) : Option Int := t.time.bind (·.offset)

/-- Do two timestamps name the same moment? With offsets, the moment in universal time counts; a date
is no moment of the day, and without an offset no moment is the same as one with an offset. -/
def sameMoment (s t : Timestamp) : Bool :=
  match s.offset?, t.offset? with
  | some a, some b => s.fieldMicros - a * 60000000 = t.fieldMicros - b * 60000000
  | none, none => s = t
  | _, _ => false

private def offsetText (offset : Int) : String :=
  (if offset < 0 then "-" else "+") ++ padded 2 (offset.natAbs / 60) ++ ":"
    ++ padded 2 (offset.natAbs % 60)

def text (t : Timestamp) : String :=
  t.date.text ++ match t.time with
    | none => ""
    | some time =>
      let seconds := time.hour * 3600 + time.minute * 60 + time.second
      " " ++ Instant.timeText (seconds * 1000000 + time.micros)
        ++ ((time.offset.map offsetText).getD "")

private def offsetLiteral (offset : Int) : String :=
  if offset = 0 then "datetime.timezone.utc"
  else
    let days := (offset * 60).fdiv 86400
    let seconds := (offset * 60).fmod 86400
    "datetime.timezone(datetime.timedelta(" ++ (if days < 0 then "days=" ++ toString days ++ ", " else "")
      ++ "seconds=" ++ toString seconds ++ "))"

def literal (t : Timestamp) : String :=
  let fields (ns : List Int) : String := ", ".intercalate (ns.map toString)
  let date : List Int := [t.date.year, t.date.month, t.date.day]
  match t.time with
  | none => "datetime.date(" ++ fields date ++ ")"
  | some time =>
    let exact : List Int :=
      if time.micros ≠ 0 then [time.second, time.micros]
      else if time.second ≠ 0 then [time.second]
      else []
    "datetime.datetime(" ++ fields (date ++ [(time.hour : Int), time.minute] ++ exact)
      ++ (match time.offset with
        | none => ""
        | some offset => ", tzinfo=" ++ offsetLiteral offset)
      ++ ")"

end Timestamp

end EdgeMapper.Yaml
