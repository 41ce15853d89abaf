import CertAuthority.Calendar.Date

/-!
# Instants

A point on the time line, to the nanosecond, counted from the beginning of
1970 in universal time. Certificates know whole seconds; the moment at
which one is asked about may be finer.

An instant has three texts: the one of the tables (`Instant.text`), the
one of machine-readable summaries (`Instant.zuluText`), which differ in how
they write the offset zero, and the spaced one of the event log
(`Instant.spacedText`).
-/

namespace CertAuthority.Calendar

/-- **A point on the time line.** -/
structure Instant where
  /-- Whole seconds since the beginning of 1970. -/
  seconds : Int
  /-- Nanoseconds past that second; beyond a whole one in a leap second. -/
  nanos : Nat
  deriving DecidableEq, Repr

namespace Instant

/-- The instant at a whole second. -/
def ofSeconds (seconds : Int) : Instant := ⟨seconds, 0⟩

/-- The first instant of a day. -/
def midnight (d : Date) : Instant := ofSeconds (d.dayNumber * 86400)

/-- **Whether one instant comes no later than another.** -/
def le (a b : Instant) : Prop :=
  a.seconds < b.seconds ∨ (a.seconds = b.seconds ∧ a.nanos ≤ b.nanos)

instance : LE Instant := ⟨le⟩

instance (a b : Instant) : Decidable (a ≤ b) :=
  inferInstanceAs (Decidable (_ ∨ _))

/-- The day that holds the instant. -/
def date (t : Instant) : Date := Date.ofDayNumber (t.seconds / 86400)

/-- The part of a second, after a point, in three, six or nine digits, as few as
say it exactly; nothing if there is none. -/
def fractionText (nanos : Nat) : String :=
  if nanos = 0 then ""
  else if nanos % 1000000 = 0 then "." ++ padded 3 (nanos / 1000000)
  else if nanos % 1000 = 0 then "." ++ padded 6 (nanos / 1000)
  else "." ++ padded 9 nanos

/-- The second as a clock shows it, and the nanoseconds past it. Nanoseconds
beyond a whole second stand for a leap second, which a clock shows as the next
one. -/
def clockSecond (second nanos : Nat) : Nat × Nat :=
  if nanos < 1000000000 then (second, nanos) else (second + 1, nanos - 1000000000)

/-- The time of day: `00:00:00`, and the part of the second. A leap second at the
end of a minute is its sixtieth. -/
def clockText (t : Instant) : String :=
  let s := (t.seconds % 86400).toNat
  let (second, nanos) := clockSecond (s % 60) t.nanos
  padded 2 (s / 3600) ++ ":" ++ padded 2 (s / 60 % 60) ++ ":" ++ padded 2 second
    ++ fractionText nanos

/-- **The text of an instant** with its offset in figures:
`2030-01-15T00:00:00+00:00`. -/
def text (t : Instant) : String :=
  t.date.text ++ "T" ++ t.clockText ++ "+00:00"

/-- The text of an instant with its offset as a letter:
`2030-01-15T00:00:00Z`. -/
def zuluText (t : Instant) : String :=
  t.date.text ++ "T" ++ t.clockText ++ "Z"

/-- The text of an instant in words of the log: `2030-01-15 00:00:00 UTC`. -/
def spacedText (t : Instant) : String :=
  t.date.text ++ " " ++ t.clockText ++ " UTC"

example : (⟨1483228799, 1500000000⟩ : Instant).zuluText = "2016-12-31T23:59:60.500Z" := by
  decide +kernel

end Instant

end CertAuthority.Calendar
