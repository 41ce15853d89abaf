import CertAuthority.Calendar.Date
import Mathlib.Order.Basic
import Mathlib.Tactic.IntervalCases
import Mathlib.Tactic.SplitIfs

/-!
# The order of dates and their numbers

One date comes before another when its year is smaller, or its month in the
same year, or its day in the same month (`Date.Before`). The numbers of the
days of the calendar are in that order (`dayNumber_lt_iff`): years that begin
in March follow one another without overlapping, since the leap day is the
last of its year, and so do the months of such a year.

A window of validity is given by dates and kept as instants, which are counted
from the numbers of days. That the order of the one is the order of the other
is what makes it the same to compare a first and a last day and to compare the
two instants.

The second part is about the decimal notation that dates are written in. A
number is padded with zeros to so many places, and read back from them
(`ofDigitChars_padded`) whether or not it needs more.
-/

namespace CertAuthority.Calendar

namespace Date

/-! ## Order

Only one direction is proved by looking at days: the earlier date has the
smaller number. As any two dates can be compared, the other direction follows.
Years are taken from March on, with February as their last month, so that the
leap day never has to be counted in the middle of one. -/

/-- **One date comes before another** in the calendar. It is the order of the
three numbers, and does not ask whether there are such days. -/
def Before (a b : Date) : Prop :=
  a.year < b.year ∨ a.year = b.year ∧ (a.month < b.month ∨ a.month = b.month ∧ a.day < b.day)

instance (a b : Date) : Decidable (a.Before b) :=
  inferInstanceAs (Decidable (_ ∨ _))

variable {a b d : Date}

/-- The number of the month in a year that begins in March, from 0. February,
with the leap day, is then the last. -/
def marchMonth (d : Date) : Nat := (d.month + 9) % 12

/-- A day of the calendar is in one of twelve months. -/
theorem month_bounds (h : d.Valid) : 1 ≤ d.month ∧ d.month ≤ 12 := by
  obtain ⟨hone, hlast⟩ := h
  have hdays : 1 ≤ daysInMonth d.year d.month := Nat.le_trans hone hlast
  unfold daysInMonth at hdays
  split at hdays <;> omega

/-- No month has more than 31 days. -/
theorem day_le (h : d.Valid) : d.day ≤ 31 := by
  refine Nat.le_trans h.2 ?_
  unfold daysInMonth
  split
  · split_ifs <;> decide
  all_goals decide

/-- How many days a year that begins in March has before a month. From March on
the lengths of months repeat every five, with 153 days in all. -/
def daysBefore (marchMonth : Nat) : Nat := (153 * marchMonth + 2) / 5

/-- The day of such a year is the day of its month after those before. -/
theorem dayOfMarchYear_eq (d : Date) :
    d.dayOfMarchYear = daysBefore d.marchMonth + d.day - 1 := rfl

/-- The months of such a year follow one another. The leap day is in none of
them but the last. -/
theorem daysBefore_succ (year : Int) {month : Nat} (h : 1 ≤ month ∧ month ≤ 12) (hne : month ≠ 2) :
    daysBefore ((month + 9) % 12 + 1) = daysBefore ((month + 9) % 12) + daysInMonth year month := by
  obtain ⟨hlow, hhigh⟩ := h
  interval_cases month
  case «2» => exact absurd rfl hne
  all_goals rfl

theorem daysBefore_mono {m n : Nat} (h : m ≤ n) : daysBefore m ≤ daysBefore n := by
  unfold daysBefore
  omega

/-- Within such a year, the days are numbered in their order. -/
theorem dayOfMarchYear_lt (ha : a.Valid) (hb : b.Valid)
    (h : a.marchMonth < b.marchMonth ∨ a.marchMonth = b.marchMonth ∧ a.day < b.day) :
    a.dayOfMarchYear < b.dayOfMarchYear := by
  have hday := ha.1
  rw [dayOfMarchYear_eq, dayOfMarchYear_eq]
  rcases h with hmonth | ⟨hmonth, hlt⟩
  · have hbounds := month_bounds ha
    have hbounds' := month_bounds hb
    have hne : a.month ≠ 2 := by
      intro h2
      unfold marchMonth at hmonth
      omega
    have hend := daysBefore_succ a.year hbounds hne
    have hlast := ha.2
    have hnext : daysBefore (a.marchMonth + 1) ≤ daysBefore b.marchMonth := daysBefore_mono hmonth
    have hday' := hb.1
    unfold marchMonth at hnext ⊢
    omega
  · rw [hmonth]
    omega

/-- The number of the first day of a year that begins in March, up to a
constant. -/
def yearStart (year : Int) : Int := 365 * year + year / 4 - year / 100 + year / 400

/-- The number of a day is where its year starts and which day of the year it
is, counted from the first of January 1970. -/
theorem dayNumber_eq (d : Date) :
    d.dayNumber = yearStart d.marchYear + d.dayOfMarchYear - 719468 := rfl

theorem yearStart_mono {m n : Int} (h : m ≤ n) : yearStart m ≤ yearStart n := by
  unfold yearStart
  omega

/-- The leap years are every fourth, but of the hundredth every fourth only. -/
theorem isLeapYear_iff (year : Int) :
    isLeapYear year = true ↔ year % 4 = 0 ∧ (year % 100 ≠ 0 ∨ year % 400 = 0) := by
  unfold isLeapYear
  rw [Bool.and_eq_true, Bool.or_eq_true, bne_iff_ne, beq_iff_eq, beq_iff_eq]

/-- A year that begins in March has its leap day in the next year, if that is
one. -/
theorem yearStart_succ (year : Int) :
    yearStart (year + 1) = yearStart year + 365 + if isLeapYear (year + 1) then 1 else 0 := by
  have hleap := isLeapYear_iff (year + 1)
  unfold yearStart
  split_ifs with h
  · have hyear := hleap.1 h
    omega
  · have hyear : ¬ ((year + 1) % 4 = 0 ∧ ((year + 1) % 100 ≠ 0 ∨ (year + 1) % 400 = 0)) :=
      fun h' => h (hleap.2 h')
    omega

/-- A day is before the first one of the next such year: the leap day is
there only if the year has one. -/
theorem dayOfMarchYear_lt_yearStart (h : d.Valid) :
    yearStart d.marchYear + d.dayOfMarchYear < yearStart (d.marchYear + 1) := by
  have hbounds := month_bounds h
  have hday := h.1
  have hlast := h.2
  rw [yearStart_succ, dayOfMarchYear_eq]
  unfold marchYear marchMonth
  by_cases hmonth : d.month = 2
  · rw [hmonth] at hlast ⊢
    have hdays : daysBefore ((2 + 9) % 12) = 337 := rfl
    have hlast' : d.day ≤ if isLeapYear d.year then 29 else 28 := hlast
    rw [if_pos (by decide), Int.sub_add_cancel, hdays]
    split_ifs at hlast' ⊢ <;> omega
  · have hend := daysBefore_succ d.year hbounds hmonth
    have hle : daysBefore ((d.month + 9) % 12 + 1) ≤ daysBefore 11 := daysBefore_mono (by omega)
    have hdays : daysBefore 11 = 337 := rfl
    split_ifs <;> omega

/-- **Dates come in the order of their numbers.** Within a year that begins in
March the days decide, and between two of them the starts. -/
theorem dayNumber_lt (ha : a.Valid) (hb : b.Valid) (h : a.Before b) :
    a.dayNumber < b.dayNumber := by
  have hmonth := month_bounds ha
  have hmonth' := month_bounds hb
  rw [dayNumber_eq, dayNumber_eq]
  have hyear : a.marchYear < b.marchYear ∨ a.marchYear = b.marchYear
      ∧ (a.marchMonth < b.marchMonth ∨ a.marchMonth = b.marchMonth ∧ a.day < b.day) := by
    unfold Before at h
    unfold marchYear marchMonth
    split_ifs <;> omega
  rcases hyear with hlt | ⟨heq, hday⟩
  · have hend := dayOfMarchYear_lt_yearStart ha
    have hnext := yearStart_mono (Int.add_one_le_of_lt hlt)
    omega
  · have hlt := dayOfMarchYear_lt ha hb hday
    rw [heq]
    omega

/-- Of two dates one comes first, or they are one. -/
theorem before_trichotomy (a b : Date) : a.Before b ∨ a = b ∨ b.Before a := by
  obtain ⟨y, m, d⟩ := a
  obtain ⟨y', m', d'⟩ := b
  unfold Before
  rw [Date.mk.injEq]
  dsimp only
  omega

/-- **The numbers of days tell which of two dates comes first.** -/
theorem dayNumber_lt_iff (ha : a.Valid) (hb : b.Valid) :
    a.dayNumber < b.dayNumber ↔ a.Before b := by
  refine ⟨fun hlt => ?_, dayNumber_lt ha hb⟩
  rcases before_trichotomy a b with h | rfl | h
  · exact h
  · exact absurd hlt (Int.lt_irrefl _)
  · exact absurd (dayNumber_lt hb ha h) (Int.lt_asymm hlt)

end Date

/-! ## Decimal notation -/

/-- The digits of a number at so many places, the last ones if there are
more. -/
def fixedDigits : (width n : Nat) → List Char
  | 0, _ => []
  | width + 1, n => fixedDigits width (n / 10) ++ [Nat.digitChar (n % 10)]

theorem fixedDigits_zero (width : Nat) : fixedDigits width 0 = List.replicate width '0' := by
  induction width with
  | zero => rfl
  | succ width ih =>
    rw [List.replicate_succ', ← ih]
    rfl

/-- A padded number is its digits with zeros before them, none if there are
places enough taken. -/
theorem toList_padded_eq (width n : Nat) :
    (padded width n).toList
      = List.replicate (width - (Nat.toDigits 10 n).length) '0' ++ Nat.toDigits 10 n := by
  unfold padded
  rw [String.toList_append, String.toList_ofList, ← String.length_toList,
    show (toString n).toList = Nat.toDigits 10 n from Nat.toList_repr]

/-- **A padded number is read back**, since zeros before it change nothing. -/
theorem ofDigitChars_padded (width n : Nat) :
    Nat.ofDigitChars 10 (padded width n).toList 0 = n := by
  rw [toList_padded_eq, Nat.ofDigitChars_append, Nat.ofDigitChars_replicate_zero, Nat.mul_zero,
    Nat.ofDigitChars_ten_toDigits]

/-- All characters of a padded number are digits. -/
theorem isDigit_of_mem_padded {width n : Nat} {c : Char} (h : c ∈ (padded width n).toList) :
    c.isDigit = true := by
  rw [toList_padded_eq, List.mem_append] at h
  rcases h with hzero | hdigit
  · rw [List.eq_of_mem_replicate hzero]
    rfl
  · exact Nat.isDigit_of_mem_toDigits (by decide) (by decide) hdigit

/-- **A number that has no more digits than there are places** fills them,
with zeros before it. -/
theorem toList_padded {width n : Nat} (h : n < 10 ^ (width + 1)) :
    (padded (width + 1) n).toList = fixedDigits (width + 1) n := by
  rw [toList_padded_eq]
  induction width generalizing n with
  | zero =>
    have hn : n < 10 := h
    rw [Nat.toDigits_of_lt_base hn, fixedDigits, Nat.mod_eq_of_lt hn]
    rfl
  | succ width ih =>
    rw [fixedDigits]
    rcases Nat.lt_or_ge n 10 with hn | hn
    · rw [Nat.toDigits_of_lt_base hn, Nat.div_eq_of_lt hn, Nat.mod_eq_of_lt hn, fixedDigits_zero]
      rfl
    · have hdiv : n / 10 < 10 ^ (width + 1) := by
        rw [Nat.div_lt_iff_lt_mul (by decide), ← Nat.pow_succ]
        exact h
      rw [Nat.toDigits_of_base_le (by decide) hn, List.length_append, List.length_singleton,
        Nat.add_sub_add_right, ← List.append_assoc, ih hdiv]

end CertAuthority.Calendar
