import CertAuthority.Certificate.Encode
import CertAuthority.Proofs.Calendar.Date
import CertAuthority.Proofs.Der.Element

/-!
# Validity windows can be read back

The first instant of a day is written in one of two notations, by its year,
and whichever it is, what is read is the second at which the day begins
(`reads_midnight`). Two digits are read the same way wherever they stand, and
four digits of a year are two times two.

The shorter notation has two digits for the year and is used from 1950 to
2049, so that no year is lost. The longer one goes up to 9999, which is the
last year that a plan may name, and no plan has one before the year zero. Days
are written as they stand in the calendar and read by their number, which is
where the calendar comes in: `seconds?_midnightFields` needs to know that
there is such a day.
-/

namespace CertAuthority

open Der Calendar

namespace Plan

/-! ## Digits -/

theorem asciiBytes_append (s t : String) : asciiBytes (s ++ t) = asciiBytes s ++ asciiBytes t := by
  unfold asciiBytes
  rw [String.toList_append, List.map_append]

/-- The byte of a digit. -/
def digitByte (n : Nat) : UInt8 := UInt8.ofNat (Nat.digitChar n).toNat

/-- Digits are in order from the character zero on. -/
theorem toNat_digitByte {n : Nat} (h : n < 10) : (digitByte n).toNat = 48 + n := by
  have hall : ∀ n < 10, (digitByte n).toNat = 48 + n := by decide
  exact hall n h

theorem asciiBytes_padded_two {n : Nat} (h : n < 100) :
    asciiBytes (padded 2 n) = [digitByte (n / 10), digitByte (n % 10)] := by
  unfold asciiBytes
  rw [toList_padded h]
  show [digitByte (n / 10 % 10), digitByte (n % 10)] = _
  rw [Nat.mod_eq_of_lt (Nat.div_lt_of_lt_mul h)]

/-- Four digits are two and two. -/
theorem asciiBytes_padded_four {n : Nat} (h : n < 10000) :
    asciiBytes (padded 4 n) = asciiBytes (padded 2 (n / 100)) ++ asciiBytes (padded 2 (n % 100)) := by
  rw [asciiBytes_padded_two (Nat.div_lt_of_lt_mul h), asciiBytes_padded_two (Nat.mod_lt n (by decide))]
  unfold asciiBytes
  rw [toList_padded h]
  show [digitByte (n / 10 / 10 / 10 % 10), digitByte (n / 10 / 10 % 10), digitByte (n / 10 % 10),
    digitByte (n % 10)] = [digitByte (n / 100 / 10), digitByte (n / 100 % 10),
      digitByte (n % 100 / 10), digitByte (n % 100 % 10)]
  have h₁ : n / 10 / 10 / 10 % 10 = n / 100 / 10 := by omega
  have h₂ : n / 10 / 10 = n / 100 := by omega
  have h₃ : n / 10 % 10 = n % 100 / 10 := by omega
  have h₄ : n % 10 = n % 100 % 10 := by omega
  rw [h₁, h₂, h₃, h₄]

/-- The bytes of two digits are read as their number. -/
theorem twoDigits?_digitByte {a b : Nat} (ha : a < 10) (hb : b < 10) :
    TimeFields.twoDigits? (digitByte a) (digitByte b) = some (a * 10 + b) := by
  unfold TimeFields.twoDigits?
  rw [toNat_digitByte ha, toNat_digitByte hb, if_pos (by omega), Nat.add_sub_cancel_left,
    Nat.add_sub_cancel_left]

/-- So two places are read back, and what follows is left. -/
theorem readTwo?_padded {n : Nat} (h : n < 100) (rest : Bytes) :
    TimeFields.readTwo? (asciiBytes (padded 2 n) ++ rest) = some (n, rest) := by
  rw [asciiBytes_padded_two h]
  show (TimeFields.twoDigits? (digitByte (n / 10)) (digitByte (n % 10))).map _ = _
  rw [twoDigits?_digitByte (Nat.div_lt_of_lt_mul h) (Nat.mod_lt n (by decide)),
    Nat.div_add_mod' n 10]
  rfl

/-! ## Times

A time is written with a year of two digits where the standard asks for that,
and of four elsewhere. Which of the two it was is told by the tag, and the
century is put back by the reader. -/

/-- The fields of the first instant of a day: nothing of the day has passed. -/
def midnightFields (d : Date) : TimeFields := ⟨d.year.toNat, d.month, d.day, 0, 0, 0, 0⟩

variable {d : Date}

/-- The last two fields and the mark of universal time. -/
theorem asciiBytes_midnight :
    asciiBytes "000000Z" = asciiBytes (padded 2 0) ++ (asciiBytes (padded 2 0) ++
      [48, 48, 90]) := by
  decide +kernel

/-- In the notation with two digits the year is found by its century: below
fifty it is in the second. -/
theorem ofUtcTime?_midnight (h : d.Valid) (hyear : 1950 ≤ d.year.toNat ∧ d.year.toNat < 2050) :
    TimeFields.ofUtcTime? (asciiBytes (padded 2 (d.year.toNat % 100)
      ++ (padded 2 d.month ++ padded 2 d.day ++ "000000Z"))) = some (midnightFields d) := by
  have hmonth : d.month < 100 := Nat.lt_of_le_of_lt (Date.month_bounds h).2 (by decide)
  have hday : d.day < 100 := Nat.lt_of_le_of_lt (Date.day_le h) (by decide)
  have hcentury : d.year.toNat % 100 < 100 := Nat.mod_lt _ (by decide)
  have hseconds : TimeFields.readSeconds? [48, 48, 90] = some (0, [90]) := rfl
  have hoffset : TimeFields.offset? [90] = some 0 := rfl
  unfold TimeFields.ofUtcTime?
  simp only [asciiBytes_append, asciiBytes_midnight, List.append_assoc, Option.bind_eq_bind,
    readTwo?_padded hcentury, readTwo?_padded hmonth, readTwo?_padded hday,
    readTwo?_padded (n := 0) (by decide), hseconds, hoffset, Option.bind_some]
  show some _ = some _
  congr 2
  split_ifs <;> omega

/-- In the notation with four digits it is read as it stands. -/
theorem ofGeneralizedTime?_midnight (h : d.Valid) (hyear : d.year.toNat < 10000) :
    TimeFields.ofGeneralizedTime? (asciiBytes (padded 4 d.year.toNat
      ++ (padded 2 d.month ++ padded 2 d.day ++ "000000Z"))) = some (midnightFields d) := by
  have hmonth : d.month < 100 := Nat.lt_of_le_of_lt (Date.month_bounds h).2 (by decide)
  have hday : d.day < 100 := Nat.lt_of_le_of_lt (Date.day_le h) (by decide)
  have hcentury : d.year.toNat / 100 < 100 := Nat.div_lt_of_lt_mul hyear
  have hrest : d.year.toNat % 100 < 100 := Nat.mod_lt _ (by decide)
  have hseconds : TimeFields.readSeconds? [48, 48, 90] = some (0, [90]) := rfl
  have hfraction : TimeFields.skipFraction? [90] = some [90] := rfl
  unfold TimeFields.ofGeneralizedTime?
  simp only [asciiBytes_append, asciiBytes_padded_four hyear, asciiBytes_midnight,
    List.append_assoc, Option.bind_eq_bind, readTwo?_padded hcentury, readTwo?_padded hrest,
    readTwo?_padded hmonth, readTwo?_padded hday, readTwo?_padded (n := 0) (by decide), hseconds,
    hfraction, Option.bind_some]
  show some _ = some _
  rw [Nat.div_add_mod' d.year.toNat 100]
  rfl

/-- The seconds of a first instant are those of all days before. -/
theorem seconds?_midnightFields (h : d.Valid) (hyear : 0 ≤ d.year) :
    (midnightFields d).seconds? = some (d.dayNumber * 86400) := by
  have hdate : Date.of? d.year d.month d.day = some d := if_pos h
  have hnat : ((d.year.toNat : Nat) : Int) = d.year := Int.toNat_of_nonneg hyear
  unfold TimeFields.seconds? midnightFields
  dsimp only
  rw [hnat, hdate, Option.bind_eq_bind, Option.bind_some, if_pos (by decide)]
  congr 1
  omega

/-- A time in the shorter notation is read if its fields are and there is such a
time. -/
theorem reads_utcTime {content : Bytes} {t : TimeFields} {s : Int}
    (ht : TimeFields.ofUtcTime? content = some t) (hs : t.seconds? = some s) :
    Reads readTime? (encode Mark.utcTime content) s := by
  intro hsized rest
  have hnumber : (⟨identifierOf Mark.utcTime, content⟩ : Element).number = Tag.utcTime := rfl
  unfold readTime?
  rw [reads_element (by decide) hsized rest, Option.bind_eq_bind, Option.bind_some]
  dsimp only
  rw [if_pos hnumber, ht, Option.bind_eq_bind, Option.bind_some, hs]
  rfl

theorem reads_generalizedTime {content : Bytes} {t : TimeFields} {s : Int}
    (ht : TimeFields.ofGeneralizedTime? content = some t) (hs : t.seconds? = some s) :
    Reads readTime? (encode Mark.generalizedTime content) s := by
  intro hsized rest
  have hnumber : (⟨identifierOf Mark.generalizedTime, content⟩ : Element).number
      = Tag.generalizedTime := rfl
  unfold readTime?
  rw [reads_element (by decide) hsized rest, Option.bind_eq_bind, Option.bind_some]
  dsimp only
  rw [if_neg (by rw [hnumber]; decide), if_pos hnumber, ht, Option.bind_eq_bind, Option.bind_some,
    hs]
  rfl

/-- **The first instant of a day can be read back**, in whichever notation it is
written. The year decides which that is. -/
theorem reads_midnight (h : d.Valid) (hyear : 0 ≤ d.year ∧ d.year ≤ 9999) :
    Reads readTime? (midnight d) (d.dayNumber * 86400) := by
  have hseconds := seconds?_midnightFields h hyear.1
  unfold midnight
  dsimp only
  split_ifs with hshort
  · exact reads_utcTime (ofUtcTime?_midnight h hshort) hseconds
  · exact reads_generalizedTime (ofGeneralizedTime?_midnight h (by omega)) hseconds

/-- The window that a plan asks for: from the first instant of its first day to
the first instant of its last. -/
def window (p : Plan) : Validity := ⟨.midnight p.beginDate, .midnight p.endDate⟩

/-- **The window can be read back.** -/
theorem reads_validity {p : Plan} (hbegin : p.beginDate.Valid) (hend : p.endDate.Valid)
    (hfirst : 0 ≤ p.beginDate.year ∧ p.beginDate.year ≤ 9999)
    (hlast : 0 ≤ p.endDate.year ∧ p.endDate.year ≤ 9999) :
    Reads Validity.read? p.validity p.window := by
  refine reads_inside (by decide) fun hsized => ⟨[], ?_⟩
  rw [List.flatten_cons, List.flatten_cons, List.flatten_nil] at hsized ⊢
  rw [reads_midnight hbegin hfirst hsized.left]
  show (readTime? (midnight p.endDate ++ [])).bind _ = _
  rw [reads_midnight hend hlast hsized.right.left []]
  rfl

end Plan

end CertAuthority
