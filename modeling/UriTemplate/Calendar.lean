import UriTemplate.Text

/-!
# Dates and times

A date of the Gregorian calendar with a time of day, and the same with an offset from universal
time. A leap second prolongs the second in front of it, which then has a billion nanoseconds or more.
Universal time puts it behind second 59, but any second can be prolonged: a place with an odd offset
has its leap seconds elsewhere in the minute. The canonical text counts in steps of 100 nanoseconds;
the diagnostic text has as many digits of a second as are needed, in groups of three.
-/

namespace UriTemplate

/-- Whether February has 29 days. -/
def isLeapYear (year : Int) : Bool := year % 4 = 0 && (year % 100 ≠ 0 || year % 400 = 0)

/-- The number of days of a month. -/
def daysInMonth (year : Int) (month : Nat) : Nat :=
  match month with
  | 2 => if isLeapYear year then 29 else 28
  | 4 | 6 | 9 | 11 => 30
  | _ => 31

/-- The number of nanoseconds of a second. -/
def nanosPerSecond : Nat := 1000000000

/-- The fields of a date and a time of day. -/
structure DateTimeFields where
  year : Int
  month : Nat
  day : Nat
  hour : Nat
  minute : Nat
  second : Nat
  nanosecond : Nat
deriving DecidableEq

/-- Whether the fields are a date of the calendar with a time of day. -/
def DateTimeFields.Valid (d : DateTimeFields) : Prop :=
  (1 ≤ d.month ∧ d.month ≤ 12) ∧ (1 ≤ d.day ∧ d.day ≤ daysInMonth d.year d.month) ∧
    d.hour < 24 ∧ d.minute < 60 ∧ d.second < 60 ∧ d.nanosecond < 2 * nanosPerSecond

instance (d : DateTimeFields) : Decidable d.Valid := by
  unfold DateTimeFields.Valid
  infer_instance

/-- A date of the calendar with a time of day. -/
structure DateTime extends DateTimeFields where
  valid : toDateTimeFields.Valid
deriving DecidableEq

/-- A date and a time of day at a place whose clocks run `offset` seconds ahead of universal
time. -/
structure OffsetDateTime where
  clock : DateTime
  offset : Int
deriving DecidableEq

/-- A year in four digits, with its sign and at least four digits outside of 0 to 9999. -/
def yearText (year : Int) : Text :=
  if 0 ≤ year ∧ year ≤ 9999 then padZeros 4 (numeral year.natAbs)
  else (if year < 0 then '-' else '+') :: padZeros 4 (numeral year.natAbs)

/-- A number in at least two digits. -/
def twoDigits (n : Nat) : Text := padZeros 2 (numeral n)

namespace DateTime

/-- Whether the date and time lie within a leap second. -/
def isLeapSecond (d : DateTime) : Bool := nanosPerSecond ≤ d.nanosecond

/-- The second that a clock shows: in a leap second it is the next one, 60 behind second 59. -/
def shownSecond (d : DateTime) : Nat := d.second + d.nanosecond / nanosPerSecond

/-- The date and the time of day without parts of a second. -/
def wholeSeconds (d : DateTime) : Text :=
  yearText d.year ++ '-' :: twoDigits d.month ++ '-' :: twoDigits d.day ++
    'T' :: twoDigits d.hour ++ ':' :: twoDigits d.minute ++ ':' :: twoDigits d.shownSecond

/-- The steps of 100 nanoseconds since the second began; a leap second is the last step. -/
def ticks (d : DateTime) : Nat := min d.nanosecond (nanosPerSecond - 1) / 100

/-- The date and time to seven digits of a second. -/
def canonical (d : DateTime) : Text := d.wholeSeconds ++ '.' :: padZeros 7 (numeral d.ticks)

/-- The part of a second in no, three, six or nine digits. -/
def fractionText (nanosecond : Nat) : Text :=
  if nanosecond = 0 then []
  else if nanosecond % 1000000 = 0 then '.' :: padZeros 3 (numeral (nanosecond / 1000000))
  else if nanosecond % 1000 = 0 then '.' :: padZeros 6 (numeral (nanosecond / 1000))
  else '.' :: padZeros 9 (numeral nanosecond)

/-- The date and time with the digits of a second that are needed. -/
def diagnostic (d : DateTime) : Text :=
  d.wholeSeconds ++ fractionText (d.nanosecond % nanosPerSecond)

end DateTime

namespace OffsetDateTime

/-- The sign of an offset. -/
def signText (offset : Int) : Text := if offset < 0 then ['-'] else ['+']

/-- An offset in hours and minutes; odd seconds are rounded to the nearest minute, a half up. -/
def offsetText (offset : Int) : Text :=
  let minutes := (offset.natAbs + 30) / 60
  signText offset ++ twoDigits (minutes / 60) ++ ':' :: twoDigits (minutes % 60)

/-- The local date and time with the offset. -/
def canonical (d : OffsetDateTime) : Text := d.clock.canonical ++ offsetText d.offset

/-- An offset in hours, minutes and, unless there are none, seconds. -/
def exactOffsetText (offset : Int) : Text :=
  let seconds := offset.natAbs
  signText offset ++ twoDigits (seconds / 3600) ++ ':' :: twoDigits (seconds / 60 % 60) ++
    if seconds % 60 = 0 then [] else ':' :: twoDigits (seconds % 60)

/-- The local date and time with the exact offset. -/
def diagnostic (d : OffsetDateTime) : Text := d.clock.diagnostic ++ exactOffsetText d.offset

end OffsetDateTime

end UriTemplate
