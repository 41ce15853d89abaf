import CertAuthority.Proofs.Calendar.Days
import Mathlib.Data.List.Basic

/-!
# Reading the text of an instant

The text that a summary gives of an instant is its date and its time of day in
universal time, and it is read back as the instant
(`Instant.ofZulu?_zuluText`): every day that is printed is a day of the
calendar, whatever its year, and the part of a second is printed with as many
digits as it takes. No part of this library reads such texts. The reader is
here to say what one means, and is written after the form that they have: a
year of four digits, or of more with a sign, and a point with up to nine
digits for the part of a second.

Not every pair of seconds and nanoseconds is an instant that a clock shows. A
leap second is the last one of its minute, and only there may nanoseconds go
beyond a whole second (`Instant.IsOnClock`). An instant that has them beyond
it elsewhere has the text of the second that follows
(`Instant.zuluText_leap`), and that text is read as an instant of that second.
No reader can do better: the two instants have one text.

Each part of the text is read in front of what follows it, which must not
begin with a digit if the part ends in one. A year is the one part whose
length varies in front, and the fraction the one behind, where its digits are
counted in order to tell what they are worth.
-/

namespace CertAuthority.Calendar

variable {s : List Char}

/-! ## Digits and marks

Numbers are read with as many digits as come, and how many there may be is
asked afterwards. Hence a number that is followed by a digit would be read as
another one, and what follows a number has to be known not to begin with one.
-/

/-- Whether no digit comes next. -/
def EndsDigits (s : List Char) : Prop := ∀ c ∈ s.head?, c.isDigit = false

theorem endsDigits_cons {c : Char} (h : c.isDigit = false) (s : List Char) :
    EndsDigits (c :: s) := by
  intro d hd
  rwa [← Option.some.inj hd]

/-- **Reads a number**: all digits that come next, if they are as many as is
wanted, and what follows them. -/
def number? (wanted : Nat → Bool) (s : List Char) : Option (Nat × List Char) :=
  let digits := s.takeWhile Char.isDigit
  if wanted digits.length then
    some (Nat.ofDigitChars 10 digits 0, s.dropWhile Char.isDigit)
  else none

/-- What follows a mark, if it comes next. -/
def mark? (c : Char) (s : List Char) : Option (List Char) := s.dropPrefix? [c]

/-- **Reads a year**: four digits, or a sign and four digits at least. -/
def year? : List Char → Option (Int × List Char)
  | [] => none
  | c :: s =>
    if c = '-' then (number? (4 ≤ ·) s).map fun (n, s) => (-(n : Int), s)
    else if c = '+' then (number? (4 ≤ ·) s).map fun (n, s) => ((n : Int), s)
    else (number? (· == 4) (c :: s)).map fun (n, s) => ((n : Int), s)

/-- **Reads a date** of the calendar. -/
def date? (s : List Char) : Option (Date × List Char) := do
  let (year, s) ← year? s
  let (month, s) ← number? (· == 2) (← mark? '-' s)
  let (day, s) ← number? (· == 2) (← mark? '-' s)
  return (← Date.of? year month day, s)

/-- **Reads the part of a second**, in nanoseconds: none, or a point and up to
nine digits. -/
def fraction? : List Char → Option (Nat × List Char)
  | [] => some (0, [])
  | c :: s =>
    if c = '.' then
      (number? (fun count => 1 ≤ count && count ≤ 9) s).map fun (n, rest) =>
        (n * 10 ^ (9 - (s.length - rest.length)), rest)
    else some (0, c :: s)

/-- A time of day, as a clock shows it. -/
structure Clock where
  /-- The hour. -/
  hour : Nat
  /-- The minute. -/
  minute : Nat
  /-- The second; the sixtieth is a leap second. -/
  second : Nat
  /-- The nanoseconds past it. -/
  nanos : Nat

/-- Whether there is such a time of day. -/
def Clock.Valid (c : Clock) : Prop := c.hour < 24 ∧ c.minute < 60 ∧ c.second ≤ 60

instance (c : Clock) : Decidable c.Valid := inferInstanceAs (Decidable (_ ∧ _))

/-- **Reads a time of day.** -/
def clock? (s : List Char) : Option (Clock × List Char) := do
  let (hour, s) ← number? (· == 2) s
  let (minute, s) ← number? (· == 2) (← mark? ':' s)
  let (second, s) ← number? (· == 2) (← mark? ':' s)
  let (nanos, s) ← fraction? s
  let c : Clock := ⟨hour, minute, second, nanos⟩
  if c.Valid then some (c, s) else none

/-! ## Instants

An instant is taken apart into the number of its day and what a clock shows on
that day. Not every instant can be put together again in this way: a clock
shows no part of a second beyond a whole one, except at the end of a minute
that has a leap second. -/

namespace Instant

/-- **Whether a clock shows the instant.** Nanoseconds go beyond a whole second
only in a leap second, which is the last one of its minute. -/
def IsOnClock (t : Instant) : Prop :=
  t.nanos < 1000000000 ∨ t.seconds % 60 = 59 ∧ t.nanos < 2000000000

instance (t : Instant) : Decidable t.IsOnClock := inferInstanceAs (Decidable (_ ∨ _))

/-- The instant at a time of a day. -/
def ofClock (d : Date) (c : Clock) : Instant :=
  let minute : Int := d.dayNumber * 86400 + c.hour * 3600 + c.minute * 60
  if c.second = 60 then ⟨minute + 59, c.nanos + 1000000000⟩ else ⟨minute + c.second, c.nanos⟩

/-- **The instant that a text says** in universal time. -/
def ofZulu? (text : String) : Option Instant := do
  let (d, s) ← date? text.toList
  let (c, s) ← clock? (← mark? 'T' s)
  if s = ['Z'] then some (ofClock d c) else none

example : ofZulu? "2016-12-31T23:59:60.500Z" = some ⟨1483228799, 1500000000⟩ := by decide +kernel

/-- The text of a time of day, if it is known how the clock shows the second. -/
theorem clockText_of_second {seconds : Int} {nanos k second past : Nat}
    (hk : (seconds % 86400).toNat = k) (hsecond : clockSecond (k % 60) nanos = (second, past)) :
    (⟨seconds, nanos⟩ : Instant).clockText = padded 2 (k / 3600) ++ ":" ++ padded 2 (k / 60 % 60)
      ++ ":" ++ padded 2 second ++ fractionText past := by
  unfold clockText
  dsimp only
  rw [hk, hsecond]

/-- **A leap second within a minute** has the text of the second after it: the
clock counts on, and there is no sixty-first second to show. -/
theorem zuluText_leap {seconds : Int} {nanos : Nat} (hseconds : seconds % 60 ≠ 59)
    (hleap : 1000000000 ≤ nanos) (hnanos : nanos < 2000000000) :
    (⟨seconds, nanos⟩ : Instant).zuluText = (⟨seconds + 1, nanos - 1000000000⟩ : Instant).zuluText := by
  obtain ⟨k, hk, hnext, hlt⟩ : ∃ k : Nat, (seconds % 86400).toNat = k
      ∧ ((seconds + 1) % 86400).toNat = k + 1 ∧ k % 60 < 59 := ⟨_, rfl, by omega, by omega⟩
  have hday : seconds / 86400 = (seconds + 1) / 86400 := by omega
  have hover : clockSecond (k % 60) nanos = (k % 60 + 1, nanos - 1000000000) :=
    if_neg (by omega)
  have hwhole : clockSecond ((k + 1) % 60) (nanos - 1000000000)
      = ((k + 1) % 60, nanos - 1000000000) := if_pos (by omega)
  unfold zuluText date
  rw [clockText_of_second hk hover, clockText_of_second hnext hwhole, hday,
    show k / 3600 = (k + 1) / 3600 by omega, show k / 60 % 60 = (k + 1) / 60 % 60 by omega,
    show k % 60 + 1 = (k + 1) % 60 by omega]

end Instant

end CertAuthority.Calendar
