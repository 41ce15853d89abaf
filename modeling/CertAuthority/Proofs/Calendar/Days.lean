import CertAuthority.Calendar.Instant
import CertAuthority.Proofs.Calendar.Date
import Mathlib.Logic.Function.Iterate
import Mathlib.Tactic.Ring

/-!
# Counting days

`Date.next` is the day after a day, as one reads it off a calendar: the next
day of the month, or the first of the next month, or of the next year. The
numbers of days count these steps (`dayNumber_next`), so that the difference
of two numbers is how many times one has to turn the page to come from one day
to the other (`iterate_next`), and every day can be had back from its number
(`ofDayNumber_dayNumber`). Thus what is said about days elsewhere can be said
by turning pages, and nobody who reads it has to trust the formulas for the
numbers.

These formulas go by years that begin in March, so that the leap day is the
last one, and by cycles of 400 years, in which the calendar repeats itself.
Within a cycle a day has a place (`CyclePlace`): a century, a span of four
years in it, a year in that and a day in the year, each of them nearly as long
as the others of its kind. The divisions by which the year is found again from
the number of days would be off by one on the last day of a long year or
century, and the corrections in the formula are for these days. So it is shown
what each division comes to at a given place (`number_div_century`,
`number_div_four`), and linear arithmetic does the rest.

An instant is read as a day and a time of day. The first instant of a day is
read as that day, at zero hours (`Instant.date_midnight`,
`Instant.clockText_midnight`).
-/

namespace CertAuthority.Calendar

namespace Date

variable {a b d : Date}

/-- **The day after a day.** -/
def next (d : Date) : Date :=
  if d.day < daysInMonth d.year d.month then { d with day := d.day + 1 }
  else if d.month < 12 then ⟨d.year, d.month + 1, 1⟩
  else ⟨d.year + 1, 1, 1⟩

theorem daysInMonth_pos (year : Int) {month : Nat} (h : 1 ≤ month ∧ month ≤ 12) :
    1 ≤ daysInMonth year month := by
  obtain ⟨hlow, hhigh⟩ := h
  interval_cases month
  case «2» =>
    show 1 ≤ if isLeapYear year then 29 else 28
    split_ifs <;> decide
  all_goals exact Nat.le_of_ble_eq_true rfl

/-- The day after a day of the calendar is one. -/
theorem valid_next (h : d.Valid) : d.next.Valid := by
  have hmonth := month_bounds h
  unfold next
  split_ifs with hday hlast
  · exact ⟨Nat.le_add_left 1 d.day, hday⟩
  · have hnext : 1 ≤ d.month + 1 ∧ d.month + 1 ≤ 12 := by omega
    exact ⟨Nat.le_refl 1, daysInMonth_pos d.year hnext⟩
  · have hjanuary : 1 ≤ daysInMonth (d.year + 1) 1 := daysInMonth_pos _ (by decide)
    exact ⟨Nat.le_refl 1, hjanuary⟩

/-- The number of a day, from its year, month and day. -/
theorem dayNumber_mk (year : Int) (month day : Nat) :
    (⟨year, month, day⟩ : Date).dayNumber
      = yearStart (if month ≤ 2 then year - 1 else year)
        + (daysBefore ((month + 9) % 12) + day - 1 : Nat) - 719468 := rfl

/-- The first of a month comes after the last of the month before. The last
of February is the last day of a year that begins in March, however long it
is. -/
theorem dayNumber_nextMonth (year : Int) {month : Nat} (h : 1 ≤ month ∧ month < 12) :
    (⟨year, month + 1, 1⟩ : Date).dayNumber
      = (⟨year, month, daysInMonth year month⟩ : Date).dayNumber + 1 := by
  rw [dayNumber_mk, dayNumber_mk]
  by_cases hfebruary : month = 2
  · subst hfebruary
    have hstart := yearStart_succ (year - 1)
    rw [Int.sub_add_cancel] at hstart
    show yearStart year + (0 : Nat) - 719468
      = yearStart (year - 1) + (337 + (if isLeapYear year then 29 else 28) - 1 : Nat) - 719468 + 1
    split_ifs at hstart ⊢ <;> omega
  · have hend := daysBefore_succ year ⟨h.1, h.2.le⟩ hfebruary
    have hdays := daysInMonth_pos year ⟨h.1, h.2.le⟩
    have hshift : (month + 1 + 9) % 12 = (month + 9) % 12 + 1 := by omega
    rw [hshift, hend]
    split_ifs <;> omega

/-- A year begins on the day after the last of December. -/
theorem dayNumber_nextYear (year : Int) :
    (⟨year + 1, 1, 1⟩ : Date).dayNumber = (⟨year, 12, 31⟩ : Date).dayNumber + 1 := by
  rw [dayNumber_mk, dayNumber_mk]
  show yearStart (year + 1 - 1) + (306 : Nat) - 719468 = yearStart year + (305 : Nat) - 719468 + 1
  rw [Int.add_sub_cancel]
  omega

/-- **The number of the next day is the next number.** -/
theorem dayNumber_next (h : d.Valid) : d.next.dayNumber = d.dayNumber + 1 := by
  obtain ⟨year, month, day⟩ := d
  have hmonth : 1 ≤ month ∧ month ≤ 12 := month_bounds h
  have hday : 1 ≤ day ∧ day ≤ daysInMonth year month := h
  unfold next
  split_ifs with hwithin hyear
  · show (⟨year, month, day + 1⟩ : Date).dayNumber = _
    rw [dayNumber_mk, dayNumber_mk]
    omega
  · obtain rfl : day = daysInMonth year month := Nat.le_antisymm hday.2 (Nat.not_lt.1 hwithin)
    exact dayNumber_nextMonth year ⟨hmonth.1, hyear⟩
  · obtain rfl : month = 12 := Nat.le_antisymm hmonth.2 (Nat.not_lt.1 hyear)
    obtain rfl : day = 31 := Nat.le_antisymm hday.2 (Nat.not_lt.1 hwithin)
    exact dayNumber_nextYear year

example : (⟨2024, 2, 28⟩ : Date).next = ⟨2024, 2, 29⟩ := by decide
example : (⟨2100, 2, 28⟩ : Date).next = ⟨2100, 3, 1⟩ := by decide

theorem dayNumber_inj (ha : a.Valid) (hb : b.Valid) : a.dayNumber = b.dayNumber ↔ a = b := by
  refine ⟨fun heq => ?_, fun heq => congrArg dayNumber heq⟩
  rcases before_trichotomy a b with h | h | h
  · exact absurd heq (dayNumber_lt ha hb h).ne
  · exact h
  · exact absurd heq.symm (dayNumber_lt hb ha h).ne

/-- **Turning so many pages** comes to a day whose number is so much larger. -/
theorem iterate_next_spec (h : d.Valid) (n : Nat) :
    (next^[n] d).Valid ∧ (next^[n] d).dayNumber = d.dayNumber + n := by
  induction n with
  | zero => exact ⟨h, (Int.add_zero _).symm⟩
  | succ n ih =>
    rw [Function.iterate_succ_apply']
    refine ⟨valid_next ih.1, ?_⟩
    rw [dayNumber_next ih.1, ih.2]
    omega

/-- **The number of days between two dates** is how many steps it takes to
come from one to the other. -/
theorem iterate_next (ha : a.Valid) (hb : b.Valid) {n : Nat} (h : b.dayNumber - a.dayNumber = n) :
    next^[n] a = b := by
  obtain ⟨hvalid, hnumber⟩ := iterate_next_spec ha n
  refine (dayNumber_inj hvalid hb).1 ?_
  omega

/-! ## Days from numbers

The conversion from numbers is a chain of divisions with corrections. It is
followed at a place in a cycle of 400 years, where every quantity in it is
linear in the parts of the place, and each division is shown to come to the
part that it is meant to find, save on the days for which the next one
corrects. -/

/-- **A place in a cycle of 400 years** that begin in March: how many
centuries, fourth years and years come before it, and how many days after
them. The last day of a long year is the only one beyond the 365th, and only
every fourth year is long, but for the last of a century that is not the last
of the cycle. -/
structure CyclePlace where
  /-- The centuries before. -/
  century : Nat
  /-- The spans of four years before, after these centuries. -/
  four : Nat
  /-- The years before, after these spans. -/
  year : Nat
  /-- The days before in the year. -/
  day : Nat
  /-- There are four centuries. -/
  century_lt : century < 4
  /-- There are twenty-five spans in a century. -/
  four_lt : four < 25
  /-- There are four years in a span. -/
  year_lt : year < 4
  /-- The year has the day. -/
  day_le : day ≤ 364 ∨ day = 365 ∧ year = 3 ∧ (four < 24 ∨ century = 3)

namespace CyclePlace

variable (p : CyclePlace)

/-- The years before. -/
def years : Nat := 100 * p.century + 4 * p.four + p.year

/-- The days before in the whole cycle. -/
def number : Nat := 36524 * p.century + 1461 * p.four + 365 * p.year + p.day

theorem number_lt : p.number < 146097 := by
  obtain ⟨century, four, year, day, hcentury, hfour, hyear, hday⟩ := p
  show 36524 * century + 1461 * four + 365 * year + day < 146097
  omega

/-- The centuries are found from the number of days, with one too many on the
last day of the cycle. -/
theorem number_div_century : p.number / 36524 = p.century + p.number / 146096 := by
  obtain ⟨century, four, year, day, hcentury, hfour, hyear, hday⟩ := p
  show (36524 * century + 1461 * four + 365 * year + day) / 36524
    = century + (36524 * century + 1461 * four + 365 * year + day) / 146096
  generalize hn : 36524 * century + 1461 * four + 365 * year + day = n
  -- only the last century is a day longer than the others
  have hlt : n < 36524 * (century + 1) ∨ century = 3 ∧ n = 146096 := by omega
  rcases hlt with hlt | ⟨rfl, rfl⟩
  · have hnone : n / 146096 = 0 := Nat.div_eq_of_lt (by omega)
    omega
  · rfl

/-- What is left over from the fourth years, in spans of 1460 days. -/
def carry : Nat := (24 * p.century + p.four + 365 * p.year + p.day) / 1460

/-- It is one at most, and is one on the last day of a long year. -/
theorem carry_bounds : p.carry ≤ p.day ∧ p.day ≤ p.carry + 364 := by
  obtain ⟨century, four, year, day, hcentury, hfour, hyear, hday⟩ := p
  show (24 * century + four + 365 * year + day) / 1460 ≤ day
    ∧ day ≤ (24 * century + four + 365 * year + day) / 1460 + 364
  rcases hday with hday | ⟨rfl, rfl, -⟩
  · constructor
    · rcases Nat.eq_zero_or_pos day with rfl | hpos <;> omega
    · omega
  · omega

/-- The spans of four years are found likewise, and here the last day of each
long year counts as the first of the next span. -/
theorem number_div_four : p.number / 1460 = 25 * p.century + p.four + p.carry := by
  have hsplit : p.number
      = (24 * p.century + p.four + 365 * p.year + p.day) + 1460 * (25 * p.century + p.four) := by
    unfold number
    ring
  rw [hsplit, Nat.add_mul_div_left _ _ (by decide), Nat.add_comm]
  rfl

/-- **The year is found from the number of days**, when one day is taken off
for every fourth year and one is added for every century. -/
theorem years_eq :
    (p.number - p.number / 1460 + p.number / 36524 - p.number / 146096) / 365 = p.years := by
  obtain ⟨hlow, hhigh⟩ := p.carry_bounds
  have hsum : ∀ x, p.number - (25 * p.century + p.four + p.carry) + (p.century + x) - x
      = (p.day - p.carry) + 365 * p.years := by
    unfold number years
    omega
  have hday : p.day - p.carry < 365 := Nat.lt_succ_of_le (Nat.sub_le_iff_le_add'.2 hhigh)
  rw [number_div_century, number_div_four, hsum, Nat.add_mul_div_left _ _ (by decide),
    Nat.div_eq_of_lt hday, Nat.zero_add]

/-- **So is the day of the year.** -/
theorem day_eq : p.number - (365 * p.years + p.years / 4 - p.years / 100) = p.day := by
  obtain ⟨century, four, year, day, hcentury, hfour, hyear, -⟩ := p
  show 36524 * century + 1461 * four + 365 * year + day
    - (365 * (100 * century + 4 * four + year) + (100 * century + 4 * four + year) / 4
      - (100 * century + 4 * four + year) / 100) = day
  have hfourths : (100 * century + 4 * four + year) / 4 = 25 * century + four := by omega
  have hhundreds : (100 * century + 4 * four + year) / 100 = century := by omega
  rw [hfourths, hhundreds]
  omega

/-- The number of a place is the number of the day, counted from the beginning
of the cycle. -/
theorem yearStart_add_day (cycle : Int) :
    yearStart (400 * cycle + p.years) + p.day = 146097 * cycle + p.number := by
  obtain ⟨century, four, year, day, hcentury, hfour, hyear, -⟩ := p
  show yearStart (400 * cycle + (100 * century + 4 * four + year : Nat)) + day
    = 146097 * cycle + (36524 * century + 1461 * four + 365 * year + day : Nat)
  unfold yearStart
  omega

end CyclePlace

/-- A year that begins in March has a day beyond the 365th if the year in
which it ends has a leap day. -/
theorem dayOfMarchYear_le (h : d.Valid) :
    d.dayOfMarchYear ≤ 364 ∨ d.dayOfMarchYear = 365 ∧ isLeapYear (d.marchYear + 1) = true := by
  have hlt := dayOfMarchYear_lt_yearStart h
  rw [yearStart_succ] at hlt
  split_ifs at hlt with hleap
  · rcases Nat.lt_or_ge d.dayOfMarchYear 365 with hday | hday
    · exact Or.inl (Nat.le_of_lt_succ hday)
    · exact Or.inr ⟨by omega, hleap⟩
  · omega

/-- **Every day has its place in a cycle.** -/
theorem exists_place (h : d.Valid) :
    ∃ (cycle : Int) (p : CyclePlace), d.marchYear = 400 * cycle + p.years
      ∧ d.dayOfMarchYear = p.day := by
  obtain ⟨cycle, r, hr, hmarch⟩ : ∃ (cycle : Int) (r : Nat), r < 400 ∧ d.marchYear = 400 * cycle + r :=
    ⟨d.marchYear / 400, (d.marchYear % 400).toNat, by omega, by omega⟩
  have hday : d.dayOfMarchYear ≤ 364
      ∨ d.dayOfMarchYear = 365 ∧ r % 4 = 3 ∧ (r % 100 / 4 < 24 ∨ r / 100 = 3) := by
    rcases dayOfMarchYear_le h with hday | ⟨hday, hleap⟩
    · exact Or.inl hday
    · rw [isLeapYear_iff, hmarch] at hleap
      exact Or.inr ⟨hday, by omega, by omega⟩
  have hyears : 100 * (r / 100) + 4 * (r % 100 / 4) + r % 4 = r := by omega
  refine ⟨cycle, ⟨r / 100, r % 100 / 4, r % 4, d.dayOfMarchYear, by omega, by omega, by omega, hday⟩,
    ?_, rfl⟩
  show d.marchYear = 400 * cycle + (100 * (r / 100) + 4 * (r % 100 / 4) + r % 4 : Nat)
  rw [hyears, hmarch]

/-- The month of a day is found from the number of the day in a year that
begins in March. -/
theorem marchMonth_eq (h : d.Valid) : (5 * d.dayOfMarchYear + 2) / 153 = d.marchMonth := by
  have hbounds := month_bounds h
  have hday := h.1
  have hend : d.dayOfMarchYear < daysBefore (d.marchMonth + 1) := by
    by_cases hfebruary : d.month = 2
    · have hlast := h.2
      have hdays : daysInMonth d.year 2 ≤ 29 := by
        show (if isLeapYear d.year then 29 else 28) ≤ 29
        split_ifs <;> decide
      rw [hfebruary] at hlast
      rw [dayOfMarchYear_eq]
      unfold marchMonth
      rw [hfebruary]
      show 337 + d.day - 1 < 367
      omega
    · have hlast := h.2
      have hmonth := daysBefore_succ d.year hbounds hfebruary
      rw [dayOfMarchYear_eq]
      unfold marchMonth
      omega
  have hstart : daysBefore d.marchMonth ≤ d.dayOfMarchYear := by
    rw [dayOfMarchYear_eq]
    omega
  unfold daysBefore at hstart hend
  omega

/-- The cycle of a number is found by division, for years before the first as
well. -/
theorem cycle_of_number (cycle : Int) {n : Nat} (h : n < 146097) :
    (146097 * cycle + n) / 146097 = cycle ∧ ((146097 * cycle + n) % 146097).toNat = n := by
  omega

/-- **A day is had back from its number.** -/
theorem ofDayNumber_dayNumber (h : d.Valid) : ofDayNumber d.dayNumber = d := by
  obtain ⟨cycle, p, hmarch, hday⟩ := exists_place h
  have hnumber : d.dayNumber + 719468 = 146097 * cycle + p.number := by
    rw [← p.yearStart_add_day, dayNumber_eq, hmarch, hday, Int.sub_add_cancel]
  obtain ⟨hcycle, hplace⟩ := cycle_of_number cycle p.number_lt
  have hmonth : (if d.marchMonth < 10 then d.marchMonth + 3 else d.marchMonth - 9) = d.month := by
    have hbounds := month_bounds h
    unfold marchMonth
    split_ifs <;> omega
  have hdate : d.dayOfMarchYear - (153 * d.marchMonth + 2) / 5 + 1 = d.day := by
    have hfirst := h.1
    rw [dayOfMarchYear_eq]
    unfold daysBefore
    omega
  have hyear : (if d.month ≤ 2 then (p.years : Int) + cycle * 400 + 1 else p.years + cycle * 400)
      = d.year := by
    unfold marchYear at hmarch
    split_ifs at hmarch ⊢ <;> omega
  -- the cycle, the year in it, the day of that year and its month, one after the other
  unfold ofDayNumber
  dsimp only
  rw [hnumber, hcycle, hplace, p.years_eq, p.day_eq, ← hday, marchMonth_eq h, hmonth, hdate, hyear]

/-- The last day that can be told is one, too. -/
theorem valid_last : last.Valid := by decide

/-- **Counting ahead** comes to the day that turning the pages comes to, unless
that is after the last day. -/
theorem addDays?_eq (h : d.Valid) (n : Nat) :
    d.addDays? n = if last.Before (next^[n] d) then none else some (next^[n] d) := by
  obtain ⟨hvalid, hnumber⟩ := iterate_next_spec h n
  unfold addDays?
  rw [← hnumber, ofDayNumber_dayNumber hvalid]
  by_cases hlate : last.Before (next^[n] d)
  · rw [if_pos hlate, if_neg (Int.not_le.2 ((dayNumber_lt_iff valid_last hvalid).2 hlate))]
  · rw [if_neg hlate, if_pos (Int.not_lt.1 fun hlt => hlate ((dayNumber_lt_iff valid_last hvalid).1 hlt))]

/-- The year goes up, if at all. -/
theorem year_le_iterate_next (d : Date) (n : Nat) : d.year ≤ (next^[n] d).year := by
  have hnext : ∀ d : Date, d.year ≤ d.next.year := by
    intro d
    unfold next
    split_ifs
    · exact Int.le_refl _
    · exact Int.le_refl _
    · exact Int.le_add_one (Int.le_refl _)
  induction n with
  | zero => exact Int.le_refl _
  | succ n ih =>
    rw [Function.iterate_succ_apply']
    exact ih.trans (hnext _)

/-- No day comes after the last one of its year. -/
theorem not_before_iff_year_le (h : d.Valid) (year : Int) :
    ¬ (⟨year, 12, 31⟩ : Date).Before d ↔ d.year ≤ year := by
  have hmonth := month_bounds h
  have hday := day_le h
  unfold Before
  dsimp only
  omega

end Date

namespace Instant

/-! ## The first instant of a day -/

/-- **The first instant of a day is an instant of that day.** -/
theorem date_midnight {d : Date} (h : d.Valid) : (midnight d).date = d := by
  unfold date midnight ofSeconds
  rw [Int.mul_ediv_cancel _ (by decide), Date.ofDayNumber_dayNumber h]

/-- **It is at zero hours.** -/
theorem clockText_midnight (d : Date) : (midnight d).clockText = "00:00:00" := by
  have hsecond : ((midnight d).seconds % 86400).toNat = 0 := by
    show (d.dayNumber * 86400 % 86400).toNat = 0
    rw [Int.mul_emod_left]
    rfl
  have hnanos : (midnight d).nanos = 0 := rfl
  unfold clockText
  rw [hsecond, hnanos]
  decide +kernel

/-- **So it reads as that day at zero hours**, in universal time. -/
theorem zuluText_midnight {d : Date} (h : d.Valid) :
    (midnight d).zuluText = d.text ++ "T00:00:00Z" := by
  unfold zuluText
  rw [date_midnight h, clockText_midnight, String.append_assoc, String.append_assoc]
  rfl

end Instant

end CertAuthority.Calendar
