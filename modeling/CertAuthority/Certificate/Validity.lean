import CertAuthority.Calendar.Instant
import CertAuthority.Der.Element

/-!
# Validity windows

A certificate holds from one second to another. Each end is written in one
of two notations: `UTCTime` with two digits for the year, which cover 1950
to 2049, and `GeneralizedTime` with four. Both count in universal time
when they end in `Z`; the first is also read with an offset.

`TimeFields.ofUtcTime?` and `TimeFields.ofGeneralizedTime?` take the text
apart, and `TimeFields.seconds?` places it on the time line if the calendar
has such a day. Fractions of a second are accepted in the second notation
and do not count.
-/

namespace CertAuthority

open Der Calendar

/-- **A time as written**: a day, a time of day and an offset from universal
time in minutes. -/
structure TimeFields where
  /-- The year in full. -/
  year : Nat
  /-- The month. -/
  month : Nat
  /-- The day of the month. -/
  day : Nat
  /-- The hour. -/
  hour : Nat
  /-- The minute. -/
  minute : Nat
  /-- The second. -/
  second : Nat
  /-- How far local time is ahead of universal time, in minutes. -/
  offset : Int
  deriving DecidableEq, Repr

namespace TimeFields

/-- The number that two decimal digits denote. -/
def twoDigits? (a b : UInt8) : Option Nat :=
  if 48 ≤ a.toNat ∧ a.toNat ≤ 57 ∧ 48 ≤ b.toNat ∧ b.toNat ≤ 57 then
    some ((a.toNat - 48) * 10 + (b.toNat - 48))
  else none

/-- Reads two digits off a text. -/
def readTwo? : Bytes → Option (Nat × Bytes)
  | a :: b :: rest => (twoDigits? a b).map (·, rest)
  | _ => none

/-- Reads the seconds. A text with fewer than two bytes left has none, and
they count as zero. -/
def readSeconds? : Bytes → Option (Nat × Bytes)
  | a :: b :: rest => (twoDigits? a b).map (·, rest)
  | short => some (0, short)

/-- **The offset at the end of a time**: a letter for universal time, or a
sign, hours (up to 25) and minutes. -/
def offset? : Bytes → Option Int
  | [90] => some 0
  | [sign, h, h', m, m'] => do
    let hours ← twoDigits? h h'
    let minutes ← twoDigits? m m'
    if hours > 25 ∨ minutes > 59 then none
    else if sign = 43 then some (hours * 60 + minutes)
    else if sign = 45 then
      -- with no hours the sign has nothing to hold on to
      some (if hours = 0 then minutes else -(hours * 60 + minutes : Int))
    else none
  | _ => none

/-- Drops a fraction: a mark and at most three digits. -/
def skipFraction? : Bytes → Option Bytes
  | 46 :: rest =>
    let digits := rest.takeWhile fun b => 48 ≤ b.toNat && b.toNat ≤ 57
    if digits.length ≤ 3 then some (rest.drop digits.length) else none
  | b => some b

/-- **Reads a `UTCTime`.** A year below fifty is of this century. -/
def ofUtcTime? (b : Bytes) : Option TimeFields := do
  let (yy, b) ← readTwo? b
  let (month, b) ← readTwo? b
  let (day, b) ← readTwo? b
  let (hour, b) ← readTwo? b
  let (minute, b) ← readTwo? b
  let (second, b) ← readSeconds? b
  let offset ← offset? b
  return ⟨if yy < 50 then 2000 + yy else 1900 + yy, month, day, hour, minute, second, offset⟩

/-- **Reads a `GeneralizedTime`**, which has to end in `Z`. -/
def ofGeneralizedTime? (b : Bytes) : Option TimeFields := do
  let (century, b) ← readTwo? b
  let (yy, b) ← readTwo? b
  let (month, b) ← readTwo? b
  let (day, b) ← readTwo? b
  let (hour, b) ← readTwo? b
  let (minute, b) ← readTwo? b
  let (second, b) ← readSeconds? b
  match ← skipFraction? b with
  | [90] => return ⟨century * 100 + yy, month, day, hour, minute, second, 0⟩
  | _ => none

/-- **The second on the time line**, if the calendar and the clock have
it. -/
def seconds? (t : TimeFields) : Option Int := do
  let date ← Date.of? t.year t.month t.day
  if t.hour < 24 ∧ t.minute < 60 ∧ t.second < 60 then
    some (date.dayNumber * 86400 + t.hour * 3600 + t.minute * 60 + t.second - t.offset * 60)
  else none

end TimeFields

/-- Reads a time in either notation. -/
def readTime? (b : Bytes) : Option (Int × Bytes) := do
  let (e, rest) ← readElement? b
  let fields ←
    if e.number = Tag.utcTime then TimeFields.ofUtcTime? e.content
    else if e.number = Tag.generalizedTime then TimeFields.ofGeneralizedTime? e.content
    else none
  return (← fields.seconds?, rest)

/-- **A validity window**, both ends included. -/
structure Validity where
  /-- The first instant. -/
  notBefore : Instant
  /-- The last instant. -/
  notAfter : Instant
  deriving DecidableEq, Repr

namespace Validity

/-- Reads a validity window. -/
def read? : Bytes → Option (Validity × Bytes) :=
  readInside? Tag.sequence fun b => do
    let (notBefore, rest) ← readTime? b
    let (notAfter, rest) ← readTime? rest
    return (⟨.ofSeconds notBefore, .ofSeconds notAfter⟩, rest)

/-- Whether an instant lies in the window. -/
def Covers (v : Validity) (t : Instant) : Prop :=
  v.notBefore ≤ t ∧ t ≤ v.notAfter

instance (v : Validity) (t : Instant) : Decidable (v.Covers t) :=
  inferInstanceAs (Decidable (_ ∧ _))

end Validity

end CertAuthority
