import CertAuthority.Proofs.Calendar.Days
import CertAuthority.Proofs.Certificate.Built

/-!
# When a certificate holds

A certificate that is built holds from the first instant of one day to the
first instant of another, the two days that were asked for. On the way from
the one to the other the days are numbers, and texts with years of two or four
digits, and numbers again; `Draft.window_of_build` says that nothing of this
shows. The days are counted by turning the pages of a calendar
(`Calendar.Date.next`), and the instants are told by their texts, so that
neither rests on the numbers that the computation goes through.

The last day is not part of the window, save for its first instant. An instant
has nanoseconds, and both ends are compared with them, so that a certificate
whose last day begins at midnight holds at that midnight and no longer a
nanosecond later (`HoldsFor.isValidAt_nanos`). Whoever takes the second date
for the last day on which the certificate is good is off by a day; the
statement is spelled out for that reason.

That the certificate is one that was built is used in two ways. Its contents
are those of an order that was in order, which bounds the number of days, and
they were read back from its own bytes, in which a date has to have survived.
-/

namespace CertAuthority

open Calendar

/-! ## Instants around midnight -/

namespace Calendar.Instant

/-- An instant is not before a midnight if its second is not. There is no
fraction to be compared with the fraction at midnight, which is zero. -/
theorem midnight_le_iff {d : Date} {t : Instant} :
    midnight d ≤ t ↔ d.dayNumber * 86400 ≤ t.seconds := by
  show d.dayNumber * 86400 < t.seconds ∨ d.dayNumber * 86400 = t.seconds ∧ 0 ≤ t.nanos ↔ _
  omega

/-- An instant is not after a midnight if it is in an earlier second, or is the
midnight itself. -/
theorem le_midnight_iff {d : Date} {t : Instant} :
    t ≤ midnight d ↔
      t.seconds < d.dayNumber * 86400 ∨ t.seconds = d.dayNumber * 86400 ∧ t.nanos = 0 := by
  show t.seconds < d.dayNumber * 86400 ∨ t.seconds = d.dayNumber * 86400 ∧ t.nanos ≤ 0 ↔ _
  omega

end Calendar.Instant

/-! ## The window

Dates are whole days, and the certificate has instants. The end is the
beginning of the last day, so the last day itself is not in the window, and
its length in days is just the difference of the two dates. -/

/-- **A certificate that holds for the days of an order**: from the beginning
of the first to the beginning of the last. -/
structure Certificate.HoldsFor (c : Certificate) (o : Order) : Prop where
  /-- It begins to hold at the first instant of the first day. -/
  notBefore : c.notBefore = .midnight o.beginDate
  /-- That is how the instant reads. -/
  notBefore_text : c.notBefore.zuluText = o.beginDate.text ++ "T00:00:00Z"
  /-- It ceases to hold at the first instant of the last day. -/
  notAfter : c.notAfter = .midnight o.endDate
  /-- That is how the instant reads. -/
  notAfter_text : c.notAfter.zuluText = o.endDate.text ++ "T00:00:00Z"
  /-- It does not cease to hold before it begins to. -/
  nonempty : ¬ c.notAfter ≤ c.notBefore
  /-- From one day to the other it is a number of steps in the calendar, no
  more than the configuration allows, and as many whole days from one instant
  to the other. -/
  days : ∃ n : Nat, Date.next^[n] o.beginDate = o.endDate ∧ 1 ≤ n ∧ n ≤ o.config.maxDays
    ∧ c.notAfter = ⟨c.notBefore.seconds + n * 86400, c.notBefore.nanos⟩
  /-- It holds at the instants from the one to the other, and at no others. -/
  isValidAt : ∀ t, c.isValidAt t = true ↔
    Instant.midnight o.beginDate ≤ t ∧ t ≤ Instant.midnight o.endDate
  /-- The last of them is over with its first nanosecond. -/
  isValidAt_nanos : ∀ t, c.isValidAt t = true ↔
    o.beginDate.dayNumber * 86400 ≤ t.seconds
      ∧ (t.seconds < o.endDate.dayNumber * 86400
        ∨ t.seconds = o.endDate.dayNumber * 86400 ∧ t.nanos = 0)

/-- An order that passes its check is for at least one day, and for no more than
are allowed. -/
theorem Order.days_of_check {o : Order} (h : o.check = .ok ()) :
    0 < o.days ∧ o.days ≤ o.config.maxDays := by
  have hwindow : o.checkWindow = .ok () := by
    unfold check at h
    match htexts : o.checkTexts with
    | .ok () => rwa [htexts] at h
    | .error e =>
      rw [htexts] at h
      exact absurd h (by simp [bind, Except.bind])
  unfold checkWindow at hwindow
  split_ifs at hwindow with hempty hlong
  exact ⟨Int.not_le.1 hempty, Int.not_lt.1 hlong⟩

/-- **A certificate that was built for an order holds for its days.** -/
theorem Order.Built.holdsFor {o : Order} {h : Host} {k : KeyPair} {c : Certificate}
    (hdates : o.beginDate.Valid ∧ o.endDate.Valid) (hbuilt : o.Built h k c) : c.HoldsFor o := by
  obtain ⟨signature, hfacts⟩ := hbuilt.facts
  obtain ⟨hpositive, hmaximum⟩ := days_of_check hbuilt.checked
  have hvalidity : c.validity = ⟨.midnight o.beginDate, .midnight o.endDate⟩ := by
    unfold Certificate.validity
    rw [hfacts]
    rfl
  have hbegin : c.notBefore = .midnight o.beginDate := congrArg Validity.notBefore hvalidity
  have hend : c.notAfter = .midnight o.endDate := congrArg Validity.notAfter hvalidity
  have hvalid : ∀ t, c.isValidAt t = true ↔
      Instant.midnight o.beginDate ≤ t ∧ t ≤ Instant.midnight o.endDate := by
    intro t
    unfold Certificate.isValidAt
    rw [hvalidity, decide_eq_true_iff]
    rfl
  -- the window is not empty, so that its days can be counted
  obtain ⟨n, hn⟩ := Int.eq_ofNat_of_zero_le hpositive.le
  have hdays : o.endDate.dayNumber - o.beginDate.dayNumber = n := hn
  refine ⟨hbegin, ?_, hend, ?_, ?_, ⟨n, Date.iterate_next hdates.1 hdates.2 hdays, ?_, ?_, ?_⟩,
    hvalid, fun t => ?_⟩
  · rw [hbegin, Instant.zuluText_midnight hdates.1]
  · rw [hend, Instant.zuluText_midnight hdates.2]
  · rw [hbegin, hend, Instant.midnight_le_iff]
    show ¬ o.endDate.dayNumber * 86400 ≤ o.beginDate.dayNumber * 86400
    omega
  · omega
  · omega
  · rw [hbegin, hend]
    show Instant.mk (o.endDate.dayNumber * 86400) 0
      = ⟨o.beginDate.dayNumber * 86400 + n * 86400, 0⟩
    rw [Instant.mk.injEq]
    omega
  · rw [hvalid t, Instant.midnight_le_iff, Instant.le_midnight_iff]

/-- **Whatever certificate is built holds for the days that were asked
for.** -/
theorem Draft.window_of_build {d : Draft} {h : Host} {c : Certificate}
    (hdates : ∀ date, d.beginDate = some date ∨ d.endDate = some date → date.Valid)
    (hbuild : (d.build.runOn h).1 = .ok c) : ∃ o : Order, d = o.toDraft ∧ c.HoldsFor o := by
  obtain ⟨o, k, rfl, hbuilt⟩ := built_of_build hdates hbuild
  exact ⟨o, rfl, hbuilt.holdsFor ⟨hdates _ (Or.inl rfl), hdates _ (Or.inr rfl)⟩⟩

/-- The window of a year's order: the certificate is built, and the two
midnights are those of the dates that were asked for. -/
theorem Draft.window_yearOrder :
    ∃ c, ((yearOrder (.generator .ed25519)).toDraft.build.runOn bareHost).1 = .ok c
      ∧ c.notBefore = .midnight ⟨2024, 1, 1⟩ ∧ c.notAfter = .midnight ⟨2024, 12, 31⟩ := by
  obtain ⟨c, hc⟩ := exists_build_yearOrder
  obtain ⟨o, ho, hholds⟩ := window_of_build (fun date hdate => (dates_yearOrder _ date hdate).1) hc
  obtain rfl := toDraft_inj.1 ho
  exact ⟨c, hc, hholds.notBefore, hholds.notAfter⟩

end CertAuthority
