import CertAuthority.Text.Base64
import Mathlib.Data.List.Basic
import Mathlib.Data.UInt

/-!
# Reading base64 undoes writing it

`encode` goes by groups of three bytes and `decode` by groups of four digits,
so the round trip is an induction along `encode`. Three facts about one group
carry it: every digit has its value back (`value?_digit`), the values of a
group give its bytes back (`groupBytes_of_three` and its two shorter forms),
and a group that `encode` has written is one that `decodeLast` accepts
(`decodeLast_encode`).

The last group is the one that can go wrong. It may end in one or two pads,
the bits that no byte needs have to be zero, and with its pads it has to be a
whole group of four; the `true` in what `groupBytes` gives says that no bits
are left over. A pad in an earlier group is a symbol that is none.

The liberal reader `decodeJoined?` takes every group of four for a last one,
so the same facts about one group carry its round trip. As far as the rest of
this library is concerned, there are two things more to know about the text:
it is made of plain characters (`isPlain_of_mem_encode`), among which there is
no blank, no dash and no line end, and it is as long as its bytes make it
(`length_encode`).
-/

namespace CertAuthority.Text.Base64

/-! ## Digits -/

/-- The digit of a value has that value, for each of the sixty-four. -/
theorem value?_digit : ∀ n < 64, value? (digit n) = some n := by decide

theorem digit_ne_pad : ∀ n < 64, digit n ≠ pad := by decide

/-- Digits and the pad mark are characters of the basic alphabet, neither
blank nor dash. -/
def IsPlain (b : UInt8) : Prop := 32 < b.toNat ∧ b.toNat < 128 ∧ b ≠ 45

instance (b : UInt8) : Decidable (IsPlain b) := inferInstanceAs (Decidable (_ ∧ _ ∧ _))

theorem isPlain_digit : ∀ n < 64, IsPlain (digit n) := by decide

/-- The pad is plain as well. -/
theorem isPlain_pad : IsPlain pad := by decide

/-- **What holds of the digits and of the pad mark holds of everything that
`encode` writes.** -/
theorem forall_mem_encode {p : UInt8 → Prop} (hdigit : ∀ n < 64, p (digit n)) (hpad : p pad)
    (b : Bytes) : ∀ x ∈ encode b, p x := by
  induction b using encode.induct with
  | case1 => simp [encode]
  | case2 a =>
    have ha := a.toNat_lt
    simp only [encode, List.mem_cons, List.not_mem_nil, or_false]
    rintro x (rfl | rfl | rfl | rfl)
    · exact hdigit _ (by omega)
    · exact hdigit _ (by omega)
    · exact hpad
    · exact hpad
  | case3 a b =>
    have ha := a.toNat_lt
    have hb := b.toNat_lt
    simp only [encode, List.mem_cons, List.not_mem_nil, or_false]
    rintro x (rfl | rfl | rfl | rfl)
    · exact hdigit _ (by omega)
    · exact hdigit _ (by omega)
    · exact hdigit _ (by omega)
    · exact hpad
  | case4 a b c rest ih =>
    have ha := a.toNat_lt
    have hb := b.toNat_lt
    have hc := c.toNat_lt
    simp only [encode, List.mem_cons]
    rintro x (rfl | rfl | rfl | rfl | hx)
    · exact hdigit _ (by omega)
    · exact hdigit _ (by omega)
    · exact hdigit _ (by omega)
    · exact hdigit _ (by omega)
    · exact ih x hx

/-- **Everything that `encode` writes is plain.** -/
theorem isPlain_of_mem_encode (b : Bytes) : ∀ x ∈ encode b, IsPlain x :=
  forall_mem_encode isPlain_digit isPlain_pad b

/-- A byte string is written in whole groups of four. -/
theorem length_encode (b : Bytes) : (encode b).length = (b.length + 2) / 3 * 4 := by
  induction b using encode.induct with
  | case1 => rfl
  | case2 a => simp [encode]
  | case3 a b => simp [encode]
  | case4 a b c rest ih =>
    simp only [encode, List.length_cons, ih]
    omega

/-! ## One group -/

/-- A digit in front of others adds its value to theirs. -/
theorem values_cons_digit (offset : Nat) {n : Nat} (hn : n < 64) (rest : Bytes) {vs : List Nat}
    (h : values (offset + 1) rest = .ok vs) :
    values offset (digit n :: rest) = .ok (n :: vs) := by
  rw [values, value?_digit n hn]
  simp only [h]

/-- The byte whose high and low bits two digits hold. -/
theorem ofNat_eq_of_toNat {n : Nat} {b : UInt8} (h : n = b.toNat) : UInt8.ofNat n = b := by
  rw [h, UInt8.ofNat_toNat]

/-- The two digits of one byte give it back, and the four bits that they have to
spare are zero. -/
theorem groupBytes_of_one (a : UInt8) :
    groupBytes [a.toNat / 4, a.toNat % 4 * 16] = ([a], true) := by
  have h : a.toNat / 4 * 4 + a.toNat % 4 * 16 / 16 = a.toNat := by omega
  have hexact : a.toNat % 4 * 16 % 16 = 0 := by omega
  simp only [groupBytes, ofNat_eq_of_toNat h, hexact, beq_self_eq_true]

/-- The three digits of two bytes give them back, with two bits to spare. -/
theorem groupBytes_of_two (a b : UInt8) :
    groupBytes [a.toNat / 4, a.toNat % 4 * 16 + b.toNat / 16, b.toNat % 16 * 4]
      = ([a, b], true) := by
  have hb := b.toNat_lt
  have h₁ : a.toNat / 4 * 4 + (a.toNat % 4 * 16 + b.toNat / 16) / 16 = a.toNat := by omega
  have h₂ : (a.toNat % 4 * 16 + b.toNat / 16) % 16 * 16 + b.toNat % 16 * 4 / 4 = b.toNat := by
    omega
  have hexact : b.toNat % 16 * 4 % 4 = 0 := by omega
  simp only [groupBytes, ofNat_eq_of_toNat h₁, ofNat_eq_of_toNat h₂, hexact, beq_self_eq_true]

/-- The four digits of three bytes give them back, and there is nothing to
spare. -/
theorem groupBytes_of_three (a b c : UInt8) :
    groupBytes [a.toNat / 4, a.toNat % 4 * 16 + b.toNat / 16, b.toNat % 16 * 4 + c.toNat / 64,
      c.toNat % 64] = ([a, b, c], true) := by
  have hb := b.toNat_lt
  have hc := c.toNat_lt
  have h₁ : a.toNat / 4 * 4 + (a.toNat % 4 * 16 + b.toNat / 16) / 16 = a.toNat := by omega
  have h₂ : (a.toNat % 4 * 16 + b.toNat / 16) % 16 * 16 + (b.toNat % 16 * 4 + c.toNat / 64) / 4
      = b.toNat := by omega
  have h₃ : (b.toNat % 16 * 4 + c.toNat / 64) % 4 * 64 + c.toNat % 64 = c.toNat := by omega
  simp only [groupBytes, ofNat_eq_of_toNat h₁, ofNat_eq_of_toNat h₂, ofNat_eq_of_toNat h₃]

/-- The digits of three bytes have their values back. -/
theorem values_of_three (offset : Nat) (a b c : UInt8) :
    values offset [digit (a.toNat / 4), digit (a.toNat % 4 * 16 + b.toNat / 16),
        digit (b.toNat % 16 * 4 + c.toNat / 64), digit (c.toNat % 64)]
      = .ok [a.toNat / 4, a.toNat % 4 * 16 + b.toNat / 16, b.toNat % 16 * 4 + c.toNat / 64,
        c.toNat % 64] := by
  have ha := a.toNat_lt
  have hb := b.toNat_lt
  have hc := c.toNat_lt
  exact values_cons_digit offset (by omega) _ (values_cons_digit (offset + 1) (by omega) _
    (values_cons_digit (offset + 1 + 1) (by omega) _
      (values_cons_digit (offset + 1 + 1 + 1) (by omega) [] rfl)))

/-! ## The round trip

All groups but the last are full. The last one says by its pads how many bytes
it has, and its bits beyond these have to be zero. So the reader of it is
followed by cases on one, two and three bytes. -/

/-- The last group of a text whose last one or two marks are pads is the bytes
of its digits, if there are at least two of these and no bits are left over. -/
theorem decodeLast_eq_ok (offset marks : Nat) {ds : Bytes} {vs : List Nat} {b : Bytes}
    (hpad : ∀ d ∈ ds, d ≠ pad) (hds : 2 ≤ ds.length) (hlen : ds.length + marks = 4)
    (hvs : values offset ds = .ok vs) (hb : groupBytes vs = (b, true)) :
    decodeLast offset (ds ++ List.replicate marks pad) = .ok b := by
  have htake : (ds ++ List.replicate marks pad).takeWhile (· != pad) = ds := by
    rw [List.takeWhile_append_of_pos (by simpa using hpad)]
    cases marks <;> simp [List.replicate_succ]
  have hdrop : (ds ++ List.replicate marks pad).dropWhile (· != pad)
      = List.replicate marks pad := by
    rw [List.dropWhile_append_of_pos (by simpa using hpad)]
    cases marks <;> simp [List.replicate_succ]
  have hmarks : (List.replicate marks pad).any (· != pad) = false := by
    simp [List.any_replicate]
  unfold decodeLast
  simp only [htake, hdrop, hvs, hmarks, hb]
  rw [if_neg (by simp; omega), if_neg (by omega), if_neg (by simp [hlen])]

/-- The text of one, two or three bytes is a last group. -/
theorem decodeLast_encode (offset : Nat) {b : Bytes} (hb : b ≠ []) (hlength : b.length ≤ 3) :
    decodeLast offset (encode b) = .ok b := by
  -- One, two or three bytes, with two pads, one or none.
  match b, hb, hlength with
  | [a], _, _ =>
    have ha := a.toNat_lt
    have hvs := values_cons_digit offset (n := a.toNat / 4) (by omega) _
      (values_cons_digit (offset + 1) (n := a.toNat % 4 * 16) (by omega) [] rfl)
    have hpad : ∀ d ∈ [digit (a.toNat / 4), digit (a.toNat % 4 * 16)], d ≠ pad := by
      simp only [List.forall_mem_cons, List.not_mem_nil, false_implies, implies_true, and_true]
      exact ⟨digit_ne_pad _ (by omega), digit_ne_pad _ (by omega)⟩
    exact decodeLast_eq_ok offset 2 hpad (by simp) (by simp) hvs (groupBytes_of_one a)
  | [a, b], _, _ =>
    have ha := a.toNat_lt
    have hb' := b.toNat_lt
    have hvs := values_cons_digit offset (n := a.toNat / 4) (by omega) _
      (values_cons_digit (offset + 1) (n := a.toNat % 4 * 16 + b.toNat / 16) (by omega) _
        (values_cons_digit (offset + 1 + 1) (n := b.toNat % 16 * 4) (by omega) [] rfl))
    have hpad : ∀ d ∈ [digit (a.toNat / 4), digit (a.toNat % 4 * 16 + b.toNat / 16),
        digit (b.toNat % 16 * 4)], d ≠ pad := by
      simp only [List.forall_mem_cons, List.not_mem_nil, false_implies, implies_true, and_true]
      exact ⟨digit_ne_pad _ (by omega), digit_ne_pad _ (by omega), digit_ne_pad _ (by omega)⟩
    exact decodeLast_eq_ok offset 1 hpad (by simp) (by simp) hvs
      (groupBytes_of_two a b)
  | [a, b, c], _, _ =>
    have hpad : ∀ d ∈ [digit (a.toNat / 4), digit (a.toNat % 4 * 16 + b.toNat / 16),
        digit (b.toNat % 16 * 4 + c.toNat / 64), digit (c.toNat % 64)], d ≠ pad := by
      have ha := a.toNat_lt
      have hb' := b.toNat_lt
      have hc := c.toNat_lt
      simp only [List.forall_mem_cons, List.not_mem_nil, false_implies, implies_true, and_true]
      exact ⟨digit_ne_pad _ (by omega), digit_ne_pad _ (by omega), digit_ne_pad _ (by omega),
        digit_ne_pad _ (by omega)⟩
    exact decodeLast_eq_ok offset 0 hpad (by simp) (by simp) (values_of_three offset a b c)
      (groupBytes_of_three a b c)

/-- **Reading what was written**, at any offset. -/
theorem decodeFrom_encode (offset : Nat) {b : Bytes} (hb : b ≠ []) :
    decodeFrom offset (encode b) = .ok b := by
  induction b using encode.induct generalizing offset with
  | case1 => exact absurd rfl hb
  | case2 a => exact decodeLast_encode offset hb (by simp)
  | case3 a b => exact decodeLast_encode offset hb (by simp)
  | case4 a b c rest ih =>
    cases hrest : encode rest with
    | nil =>
      -- nothing follows, so this is the last group, with no mark in it
      obtain rfl : rest = [] := by
        have := length_encode rest
        rw [hrest, List.length_nil] at this
        exact List.length_eq_zero_iff.1 (by omega)
      exact decodeLast_encode offset hb (by simp)
    | cons e more =>
      have hne : rest ≠ [] := by rintro rfl; simp [encode] at hrest
      have hdecode := ih (offset + 4) hne
      rw [hrest] at hdecode
      rw [encode, hrest, decodeFrom, values_of_three]
      simp only [hdecode, groupBytes_of_three]
      rfl

/-- **Reading texts set one after another** reads each of them. -/
theorem decodeJoined?_encode (b : Bytes) : decodeJoined? (encode b) = some b := by
  induction b using encode.induct with
  | case1 => rfl
  | case2 a =>
    have hlast := decodeLast_encode 0 (b := [a]) (by simp) (by simp)
    simp only [encode] at hlast
    simp only [encode, decodeJoined?, hlast]
    rfl
  | case3 a b =>
    have hlast := decodeLast_encode 0 (b := [a, b]) (by simp) (by simp)
    simp only [encode] at hlast
    simp only [encode, decodeJoined?, hlast]
    rfl
  | case4 a b c rest ih =>
    have hlast := decodeLast_encode 0 (b := [a, b, c]) (by simp) (by simp)
    simp only [encode] at hlast
    simp only [encode, decodeJoined?, hlast, ih]
    rfl

/-- **Reading base64 undoes writing it.** -/
theorem decode_encode (b : Bytes) : decode (encode b) = .ok b := by
  unfold decode
  cases h : (encode b).getLast? with
  | none =>
    have := length_encode b
    rw [List.getLast?_eq_none_iff.1 h, List.length_nil] at this
    rw [List.length_eq_zero_iff.1 (show b.length = 0 by omega)]
  | some z =>
    have hb : b ≠ [] := by rintro rfl; simp [encode] at h
    have hlen : (encode b).length % 4 ≠ 1 := by rw [length_encode]; omega
    simp only [hlen, false_and, if_false]
    exact decodeFrom_encode 0 hb

end CertAuthority.Text.Base64
