/-! # Dates, moments and durations

A date counts years, months and days; a moment adds the time of day, to the microsecond, and
may say how far its clock is ahead of universal time.
A duration is kept in its normal form, in which only the days may be negative.
-/

namespace Assay

structure Date where
  year : Nat
  month : Nat
  day : Nat
  deriving DecidableEq, Repr

structure Moment where
  date : Date
  hour : Nat := 0
  minute : Nat := 0
  second : Nat := 0
  microsecond : Nat := 0
  /-- The minutes that the clock is ahead of universal time, where that is known. -/
  offset : Option Int := none
  deriving DecidableEq, Repr

/-- A span of time: seconds below a day and microseconds below a second are never negative. -/
structure Duration where
  days : Int
  seconds : Nat
  microseconds : Nat
  deriving DecidableEq, Repr

/-- Decimal digits with zeros in front up to `width`. -/
def paddedDigits (width n : Nat) : String :=
  let digits := toString n
  String.ofList (List.replicate (width - digits.length) '0') ++ digits

namespace Duration

/-- The normal form of any three counts. -/
def of (days seconds microseconds : Int) : Duration :=
  let total := (days * 86400 + seconds) * 1000000 + microseconds
  let inSeconds := total.fdiv 1000000
  { days := inSeconds.fdiv 86400
    seconds := (inSeconds.fmod 86400).toNat
    microseconds := (total.fmod 1000000).toNat }

def isZero (d : Duration) : Bool :=
  d.days == 0 && d.seconds == 0 && d.microseconds == 0

/-- Only the parts that are not zero are named. -/
def text (d : Duration) : String :=
  let parts := [("days", d.days), ("seconds", (d.seconds : Int)),
    ("microseconds", (d.microseconds : Int))].filter (·.2 != 0)
  let body := if parts.isEmpty then "0"
    else ", ".intercalate (parts.map fun (name, n) => s!"{name}={n}")
  s!"datetime.timedelta({body})"

/-- The span in words: days only if there are any, then hours, minutes and seconds. -/
def phrase (d : Duration) : String :=
  let days := if d.days == 0 then ""
    else if d.days.natAbs == 1 then s!"{d.days} day, " else s!"{d.days} days, "
  let minute := paddedDigits 2 (d.seconds / 60 % 60)
  let second := paddedDigits 2 (d.seconds % 60)
  let rest := if d.microseconds == 0 then "" else "." ++ paddedDigits 6 d.microseconds
  s!"{days}{d.seconds / 3600}:{minute}:{second}{rest}"

end Duration

namespace Date

def isLeapYear (year : Nat) : Bool := year % 4 == 0 && (year % 100 != 0 || year % 400 == 0)

/-- The number of days in a month. -/
def monthLength (year month : Nat) : Nat :=
  if month == 2 then if isLeapYear year then 29 else 28
  else if [4, 6, 9, 11].contains month then 30 else 31

/-- Whether there is such a date, from the year 1 on. -/
def isOnCalendar (d : Date) : Bool :=
  1 ≤ d.year && 1 ≤ d.month && d.month ≤ 12 &&
    1 ≤ d.day && d.day ≤ monthLength d.year d.month

/-- The number of days up to a date, from the first day of the year 1 on. -/
def ordinal (d : Date) : Nat :=
  let years := d.year - 1
  let months := (List.range' 1 (d.month - 1)).foldl (fun n month => n + monthLength d.year month) 0
  365 * years + years / 4 - years / 100 + years / 400 + months + d.day

def text (d : Date) : String :=
  s!"datetime.date({d.year}, {d.month}, {d.day})"

/-- Year, month and day with dashes between them. -/
def phrase (d : Date) : String :=
  "-".intercalate [paddedDigits 4 d.year, paddedDigits 2 d.month, paddedDigits 2 d.day]

end Date

namespace Moment

/-- Microseconds in universal time, given how far the clock is ahead of it. -/
def instant (m : Moment) (offset : Int) : Int :=
  let minutes : Int := (m.date.ordinal * 24 + m.hour) * 60 + m.minute - offset
  (minutes * 60 + m.second) * 1000000 + m.microsecond

/-- Moments are equal when they are the same instant. A moment without an offset is equal only
to one that is written alike. -/
def eqv (m n : Moment) : Bool :=
  match m.offset, n.offset with
  | some a, some b => m.instant a == n.instant b
  | _, _ => m == n

/-- How the offset of a clock is written. -/
def zoneText (offset : Int) : String :=
  if offset == 0 then "datetime.timezone.utc"
  else s!"datetime.timezone({(Duration.of 0 (60 * offset) 0).text})"

/-- Hours and minutes are always given, smaller units only as far as they are not zero. -/
def text (m : Moment) : String :=
  let tail := if m.microsecond != 0 then [m.second, m.microsecond]
    else if m.second != 0 then [m.second] else []
  let parts := [m.date.year, m.date.month, m.date.day, m.hour, m.minute] ++ tail
  let zone := m.offset.map fun offset => "tzinfo=" ++ zoneText offset
  let body := ", ".intercalate (parts.map toString ++ zone.toList)
  s!"datetime.datetime({body})"

/-- The offset of a clock in hours and minutes, with a sign. -/
def zonePhrase (offset : Int) : String :=
  let sign := if offset < 0 then "-" else "+"
  s!"{sign}{paddedDigits 2 (offset.natAbs / 60)}:{paddedDigits 2 (offset.natAbs % 60)}"

/-- The date and the time of day. -/
def phrase (m : Moment) : String :=
  let time := ":".intercalate [paddedDigits 2 m.hour, paddedDigits 2 m.minute,
    paddedDigits 2 m.second]
  let rest := if m.microsecond == 0 then "" else "." ++ paddedDigits 6 m.microsecond
  let zone := (m.offset.map zonePhrase).getD ""
  s!"{m.date.phrase} {time}{rest}{zone}"

end Moment

end Assay
