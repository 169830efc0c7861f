import Assay.Heap.Value
import Assay.Yaml.Refusal

/-! # Timestamps

A date is written as year, month and day. A time of day may follow it, and after that the offset
of the clock. What is written so need not be on any calendar or clock.
-/

namespace Assay.Yaml

/-- A time of day as it is written. -/
structure TimeText where
  hour : Nat
  minute : Nat
  second : Nat
  microsecond : Nat
  /-- The minutes that the clock is ahead of universal time. -/
  offset : Option Int
  deriving DecidableEq, Repr

/-- A date as it is written, with a time of day if there is one. -/
structure Timestamp where
  date : Date
  time : Option TimeText
  deriving DecidableEq, Repr

namespace Timestamp

/-! ## Reading -/

/-- Reads decimal digits: no fewer and no more than these. -/
def digitsBetween (least most : Nat) (cs : List Char) : Option (Nat × List Char) :=
  let digits := (cs.take most).takeWhile Char.isDigit
  if least ≤ digits.length then some (DecimalText.natOf digits, cs.drop digits.length) else none

/-- Goes past one character, which must be this one. -/
def past (ch : Char) (cs : List Char) : Option (List Char) :=
  if cs.head? == some ch then some cs.tail else none

def isSpace (ch : Char) : Bool := ch == ' ' || ch == '\t'

/-- Reads digits after the point as microseconds; more than six are cut. -/
def fraction (cs : List Char) : Nat × List Char :=
  match cs with
  | '.' :: rest =>
    let digits := (rest.takeWhile Char.isDigit).take 6
    (DecimalText.natOf digits * Nat.pow 10 (6 - digits.length), rest.dropWhile Char.isDigit)
  | _ => (0, cs)

/-- Reads the offset of a clock up to the end, if there is one. -/
def offset? (cs : List Char) : Option (Option Int) :=
  if cs.isEmpty then some none
  else match cs.dropWhile isSpace with
    | ['Z'] => some (some 0)
    | sign :: cs => do
      if sign != '+' && sign != '-' then none
      let (hours, cs) ← digitsBetween 1 2 cs
      let (minutes, cs) ←
        if cs.isEmpty then some (0, cs) else do digitsBetween 2 2 (← past ':' cs)
      let ahead : Int := hours * 60 + minutes
      if cs.isEmpty then some (some (if sign == '-' then -ahead else ahead)) else none
    | [] => none

/-- Reads a time of day up to the end. -/
def time? (cs : List Char) : Option TimeText := do
  let (hour, cs) ← digitsBetween 1 2 cs
  let (minute, cs) ← digitsBetween 2 2 (← past ':' cs)
  let (second, cs) ← digitsBetween 2 2 (← past ':' cs)
  let (microsecond, cs) := fraction cs
  return { hour, minute, second, microsecond, offset := ← offset? cs }

/-- What follows the mark between a date and a time of day. -/
def pastDateMark (cs : List Char) : Option (List Char) :=
  match cs with
  | [] => none
  | ch :: rest =>
    if ch == 'T' || ch == 't' then some rest
    else if isSpace ch then some (rest.dropWhile isSpace)
    else none

/-- Reads a date, or a date with a time of day. -/
def ofChars? (cs : List Char) : Option Timestamp := do
  let (year, cs) ← digitsBetween 4 4 cs
  let (month, cs) ← digitsBetween 1 2 (← past '-' cs)
  let (day, cs) ← digitsBetween 1 2 (← past '-' cs)
  let date : Date := { year, month, day }
  if cs.isEmpty then return { date, time := none }
  else return { date, time := some (← time? (← pastDateMark cs)) }

/-! ## The value -/

/-- Fails unless a number lies between two others. -/
def requireBetween (name : String) (least most n : Nat) : Except Fault Unit :=
  if least ≤ n && n ≤ most then .ok ()
  else .error (.valueError s!"{name} must be in {least}..{most}")

/-- Fails on a date that is on no calendar. -/
def checkDate (d : Date) : Except Fault Unit := do
  if d.year == 0 then throw (.valueError "year 0 is out of range")
  requireBetween "month" 1 12 d.month
  if !d.isOnCalendar then throw (.valueError "day is out of range for month")

/-- Fails on an offset of a day or more. -/
def checkOffset (minutes : Int) : Except Fault Unit :=
  if minutes.natAbs < 1440 then .ok ()
  else
    let day := "timedelta(hours=24)"
    let given := (Duration.of 0 (60 * minutes) 0).text
    .error (.valueError
      s!"offset must be a timedelta strictly between -{day} and {day}, not {given}.")

/-- The moment of a date and a time of day. -/
def moment (date : Date) (t : TimeText) : Except Fault Moment := do
  t.offset.forM checkOffset
  checkDate date
  requireBetween "hour" 0 23 t.hour
  requireBetween "minute" 0 59 t.minute
  requireBetween "second" 0 59 t.second
  return { date, hour := t.hour, minute := t.minute, second := t.second
           microsecond := t.microsecond, offset := t.offset }

/-- The date or the moment that is meant. -/
def value (t : Timestamp) : Except Fault Value :=
  match t.time with
  | none => (checkDate t.date).map fun _ => .date t.date
  | some time => (moment t.date time).map .moment

end Timestamp

end Assay.Yaml
