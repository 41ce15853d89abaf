/-!
# Dates

Dates of the proleptic Gregorian calendar, each with the number of days
from 1 January 1970 to it. The calendar repeats every 400 years, which are
146097 days; `Date.dayNumber` counts within such a cycle from 1 March, so
that the leap day comes last, and `Date.ofDayNumber` undoes it.
-/

namespace CertAuthority.Calendar

/-- Whether a year has a 29 February. -/
def isLeapYear (year : Int) : Bool :=
  year % 4 == 0 && (year % 100 != 0 || year % 400 == 0)

/-- How many days a month has; none if there is no such month. -/
def daysInMonth (year : Int) : (month : Nat) → Nat
  | 2 => if isLeapYear year then 29 else 28
  | 4 | 6 | 9 | 11 => 30
  | 1 | 3 | 5 | 7 | 8 | 10 | 12 => 31
  | _ => 0

/-- **A day of the calendar.** -/
structure Date where
  /-- The year, counted with a year zero. -/
  year : Int
  /-- The month, from 1. -/
  month : Nat
  /-- The day of the month, from 1. -/
  day : Nat
  deriving DecidableEq, Repr

namespace Date

/-- Whether the calendar has this day. -/
def Valid (d : Date) : Prop :=
  1 ≤ d.day ∧ d.day ≤ daysInMonth d.year d.month

instance (d : Date) : Decidable d.Valid :=
  inferInstanceAs (Decidable (_ ∧ _))

/-- The day of the calendar with these numbers, if there is one. -/
def of? (year : Int) (month day : Nat) : Option Date :=
  let d : Date := ⟨year, month, day⟩
  if d.Valid then some d else none

/-- The year that begins on 1 March and holds this day. -/
def marchYear (d : Date) : Int :=
  if d.month ≤ 2 then d.year - 1 else d.year

/-- How many days lie between 1 March and this day. -/
def dayOfMarchYear (d : Date) : Nat :=
  (153 * ((d.month + 9) % 12) + 2) / 5 + d.day - 1

/-- **The number of days from 1 January 1970 to this day.** -/
def dayNumber (d : Date) : Int :=
  let y := d.marchYear
  365 * y + y / 4 - y / 100 + y / 400 + d.dayOfMarchYear - 719468

/-- **The day that is `n` days after 1 January 1970.** -/
def ofDayNumber (n : Int) : Date :=
  let z := n + 719468
  let dayOfCycle := (z % 146097).toNat
  let yearOfCycle :=
    (dayOfCycle - dayOfCycle / 1460 + dayOfCycle / 36524 - dayOfCycle / 146096) / 365
  let dayOfYear := dayOfCycle - (365 * yearOfCycle + yearOfCycle / 4 - yearOfCycle / 100)
  let marchMonth := (5 * dayOfYear + 2) / 153
  let day := dayOfYear - (153 * marchMonth + 2) / 5 + 1
  let month := if marchMonth < 10 then marchMonth + 3 else marchMonth - 9
  let year := yearOfCycle + z / 146097 * 400
  ⟨if month ≤ 2 then year + 1 else year, month, day⟩

/-- The last day that dates are counted to. -/
def last : Date := ⟨262142, 12, 31⟩

/-- **The day `n` days later**, unless that is after the last day. -/
def addDays? (d : Date) (n : Nat) : Option Date :=
  if d.dayNumber + n ≤ last.dayNumber then some (ofDayNumber (d.dayNumber + n)) else none

end Date

/-- A number in decimal, with zeros before it up to the given width. -/
def padded (width n : Nat) : String :=
  let digits := toString n
  String.ofList (List.replicate (width - digits.length) '0') ++ digits

/-- The text of a year: four digits from 0 to 9999, and beyond that a sign
and at least four digits. -/
def yearText (year : Int) : String :=
  if 0 ≤ year ∧ year ≤ 9999 then padded 4 year.toNat
  else (if year < 0 then "-" else "+") ++ padded 4 year.natAbs

/-- The text of a date: `2030-01-15`. -/
def Date.text (d : Date) : String :=
  yearText d.year ++ "-" ++ padded 2 d.month ++ "-" ++ padded 2 d.day

example : (Date.mk 1970 1 1).dayNumber = 0 := by decide
example : (Date.mk 2000 2 29).dayNumber = 11016 := by decide
example : Date.ofDayNumber 11016 = ⟨2000, 2, 29⟩ := by decide
example : Date.ofDayNumber (-719528) = ⟨0, 1, 1⟩ := by decide

end CertAuthority.Calendar
