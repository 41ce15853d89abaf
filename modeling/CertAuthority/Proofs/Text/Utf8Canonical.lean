import CertAuthority.Proofs.Text.Utf8

/-!
# A byte string is the form of one text

Besides the forms that `encode` writes there is none that `decode` reads: a
byte string that is read is the form of what is read (`decode_eq_ok_iff`). The
ranges of the byte after the first are what rules out the others, longer forms
of a character, forms of surrogates and forms of what is beyond the last
character (`encode_of_continuation`).

With the round trip this makes texts and the byte strings that are read as
texts the same thing, and a statement about a file that is read as a text can
be put as one about its bytes. The proof for a character has one case for each
of the four lengths. In each of them the bytes behind the first are taken off
one by one with what is known of them (`cons_of_continuation`), and whether
the character made of them has as many bytes is a matter of its size, hence of
linear arithmetic.
-/

namespace CertAuthority.Text.Utf8

/-- What is read next is the first byte, and it is in its range. -/
theorem cons_of_continuation {start seen left low high bits : Nat} {b : Bytes} {r : Nat × Bytes}
    (h : continuation start seen (left + 1) low high bits b = .ok r) :
    ∃ (next : UInt8) (rest : Bytes), b = next :: rest ∧ (low ≤ next.toNat ∧ next.toNat ≤ high)
      ∧ continuation start (seen + 1) left 0x80 0xbf (bits * 64 + next.toNat % 64) rest = .ok r := by
  cases b with
  | nil => cases h
  | cons next rest =>
    rw [continuation] at h
    split_ifs at h with hrange
    exact ⟨next, rest, rfl, hrange, h⟩

/-- A code point that is no surrogate is that of its character. -/
theorem toNat_ofNat_char {n : Nat} (h : n < 0xd800 ∨ 0xdfff < n ∧ n < 0x110000) :
    (Char.ofNat n).val.toNat = n := by
  have hvalid : n.isValidChar := h
  show (Char.ofNat n).toNat = n
  rw [Char.ofNat, dif_pos hvalid]
  rfl

/-- A byte is told by its number. -/
theorem ofNat_eq {n : Nat} {b : UInt8} (h : n = b.toNat) : UInt8.ofNat n = b := by
  rw [h, UInt8.ofNat_toNat]

/-- **The first bytes of characters**, by the length of these. -/
theorem lead?_cases {b : UInt8} {l : Lead} (h : lead? b = some l) :
    (b.toNat < 0x80 ∧ l = ⟨0, 0, 0, b.toNat⟩)
      ∨ (0xc2 ≤ b.toNat ∧ b.toNat < 0xe0 ∧ l = ⟨1, 0x80, 0xbf, b.toNat - 0xc0⟩)
      ∨ (0xe0 ≤ b.toNat ∧ b.toNat < 0xf0 ∧ l = ⟨2, if b.toNat = 0xe0 then 0xa0 else 0x80,
          if b.toNat = 0xed then 0x9f else 0xbf, b.toNat - 0xe0⟩)
      ∨ (0xf0 ≤ b.toNat ∧ b.toNat < 0xf5 ∧ l = ⟨3, if b.toNat = 0xf0 then 0x90 else 0x80,
          if b.toNat = 0xf4 then 0x8f else 0xbf, b.toNat - 0xf0⟩) := by
  simp only [lead?] at h
  by_cases hone : b.toNat < 0x80
  · rw [if_pos hone] at h
    exact Or.inl ⟨hone, (Option.some.inj h).symm⟩
  rw [if_neg hone] at h
  by_cases hnone : b.toNat < 0xc2
  · rw [if_pos hnone] at h
    cases h
  rw [if_neg hnone] at h
  by_cases htwo : b.toNat < 0xe0
  · rw [if_pos htwo] at h
    exact Or.inr (Or.inl ⟨Nat.le_of_not_lt hnone, htwo, (Option.some.inj h).symm⟩)
  rw [if_neg htwo] at h
  by_cases hthree : b.toNat < 0xf0
  · rw [if_pos hthree] at h
    exact Or.inr (Or.inr (Or.inl ⟨Nat.le_of_not_lt htwo, hthree, (Option.some.inj h).symm⟩))
  rw [if_neg hthree] at h
  by_cases hfour : b.toNat < 0xf5
  · rw [if_pos hfour] at h
    exact Or.inr (Or.inr (Or.inr ⟨Nat.le_of_not_lt hthree, hfour, (Option.some.inj h).symm⟩))
  · rw [if_neg hfour] at h
    cases h

/-- **The bytes of a character are its form.** -/
theorem encode_of_continuation {b : UInt8} {l : Lead} {start code : Nat} {rest rest' : Bytes}
    (hl : lead? b = some l)
    (hc : continuation start 1 l.following l.low l.high l.bits rest = .ok (code, rest')) :
    String.utf8EncodeChar (Char.ofNat code) ++ rest' = b :: rest := by
  rcases lead?_cases hl with
    ⟨hone, rfl⟩ | ⟨hlow, htwo, rfl⟩ | ⟨hlow, hthree, rfl⟩ | ⟨hlow, hfour, rfl⟩
  · obtain ⟨rfl, rfl⟩ := Prod.mk.inj (Except.ok.inj hc)
    have hv := toNat_ofNat_char (n := b.toNat) (by omega)
    unfold String.utf8EncodeChar
    simp only [hv]
    rw [if_pos (by omega)]
    exact congrArg (· :: rest) (ofNat_eq rfl)
  · obtain ⟨x, rest₁, rfl, hx, hc⟩ := cons_of_continuation hc
    obtain ⟨hcode, rfl⟩ := Prod.mk.inj (Except.ok.inj hc)
    dsimp only at hx hcode
    have hv := toNat_ofNat_char (n := code) (by omega)
    unfold String.utf8EncodeChar
    simp only [hv]
    rw [if_neg (by omega), if_pos (by omega)]
    exact congrArg₂ (fun u v => u :: v :: rest₁) (ofNat_eq (by omega)) (ofNat_eq (by omega))
  · obtain ⟨x, rest₁, rfl, hx, hc⟩ := cons_of_continuation hc
    obtain ⟨y, rest₂, rfl, hy, hc⟩ := cons_of_continuation hc
    obtain ⟨hcode, rfl⟩ := Prod.mk.inj (Except.ok.inj hc)
    dsimp only at hx hcode
    -- neither an overlong form nor a surrogate
    have hrange : (0x80 ≤ x.toNat ∧ x.toNat ≤ 0xbf) ∧ (b.toNat = 0xe0 → 0xa0 ≤ x.toNat)
        ∧ (b.toNat = 0xed → x.toNat ≤ 0x9f) := by
      split_ifs at hx <;> omega
    have hv := toNat_ofNat_char (n := code) (by omega)
    unfold String.utf8EncodeChar
    simp only [hv]
    rw [if_neg (by omega), if_neg (by omega), if_pos (by omega)]
    exact congrArg₂ (fun u v => u :: v) (ofNat_eq (by omega))
      (congrArg₂ (fun u v => u :: v :: rest₂) (ofNat_eq (by omega)) (ofNat_eq (by omega)))
  · obtain ⟨x, rest₁, rfl, hx, hc⟩ := cons_of_continuation hc
    obtain ⟨y, rest₂, rfl, hy, hc⟩ := cons_of_continuation hc
    obtain ⟨z, rest₃, rfl, hz, hc⟩ := cons_of_continuation hc
    obtain ⟨hcode, rfl⟩ := Prod.mk.inj (Except.ok.inj hc)
    dsimp only at hx hcode
    -- neither an overlong form nor a number beyond the last character
    have hrange : (0x80 ≤ x.toNat ∧ x.toNat ≤ 0xbf) ∧ (b.toNat = 0xf0 → 0x90 ≤ x.toNat)
        ∧ (b.toNat = 0xf4 → x.toNat ≤ 0x8f) := by
      split_ifs at hx <;> omega
    have hv := toNat_ofNat_char (n := code) (by omega)
    unfold String.utf8EncodeChar
    simp only [hv]
    rw [if_neg (by omega), if_neg (by omega), if_neg (by omega)]
    exact congrArg₂ (fun u v => u :: v) (ofNat_eq (by omega))
      (congrArg₂ (fun u v => u :: v) (ofNat_eq (by omega))
        (congrArg₂ (fun u v => u :: v :: rest₃) (ofNat_eq (by omega)) (ofNat_eq (by omega))))

/-- **What is read begins with a character**, and the rest is read after it. -/
theorem decodeFrom_cons_eq_ok {start : Nat} {b : UInt8} {rest : Bytes} {s : List Char}
    (h : decodeFrom start (b :: rest) = .ok s) :
    ∃ l code rest' s', lead? b = some l
      ∧ continuation start 1 l.following l.low l.high l.bits rest = .ok (code, rest')
      ∧ decodeFrom (start + 1 + l.following) rest' = .ok s' ∧ s = Char.ofNat code :: s' := by
  rw [decodeFrom] at h
  split at h
  · cases h
  · rename_i l hl
    split at h
    · cases h
    · rename_i code rest' hc
      split at h
      · cases h
      · rename_i s' hs'
        exact ⟨l, code, rest', s', hl, hc, hs', (Except.ok.inj h).symm⟩

/-- **What has been read is written as it was**, by induction along the reading.
-/
theorem encode_of_decodeFrom {start : Nat} {b : Bytes} {s : List Char}
    (h : decodeFrom start b = .ok s) : encode s = b := by
  induction hlength : b.length using Nat.strong_induction_on generalizing start b s with
  | _ n ih =>
    subst hlength
    cases b with
    | nil =>
      rw [decodeFrom] at h
      rw [← Except.ok.inj h, encode_nil]
    | cons b rest =>
      obtain ⟨l, code, rest', s', hl, hc, hs', rfl⟩ := decodeFrom_cons_eq_ok h
      have hshorter : rest'.length < (b :: rest).length :=
        Nat.lt_succ_of_le (length_continuation_le hc)
      show String.utf8EncodeChar (Char.ofNat code) ++ encode s' = b :: rest
      rw [ih _ hshorter hs' rfl, encode_of_continuation hl hc]

/-- **A byte string is read as the text that it is the form of**, and as no
other. -/
theorem decode_eq_ok_iff {b : Bytes} {s : List Char} : decode b = .ok s ↔ b = encode s := by
  constructor
  · intro h
    exact (encode_of_decodeFrom h).symm
  · rintro rfl
    exact decode_encode s

theorem decode?_eq_some_iff {b : Bytes} {s : String} : decode? b = some s ↔ b = encode s.toList := by
  rw [← decode_eq_ok_iff]
  unfold decode?
  cases decode b with
  | error fault => simp
  | ok chars =>
    rw [Option.some.injEq, Except.ok.injEq]
    constructor
    · rintro rfl
      exact String.toList_ofList.symm
    · rintro rfl
      exact String.ofList_toList

end CertAuthority.Text.Utf8
