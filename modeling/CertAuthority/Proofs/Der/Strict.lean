import CertAuthority.Der.Strict
import CertAuthority.Proofs.Der.Element

/-!
# What is written passes the strict readers

The strict readers take only the shortest form of a length and of a number,
and contents of fewer than 65536 bytes. That is what the encoders write, so
whatever is written and not too long is read back (`readStrict?_encode` for
elements, `readNumber?_integer` and `readBits?_bitString` for values).

Keys are read by these readers, and certificates by others that bear with
more. The bound on the length is not one that the encoders know, hence it
stands as a hypothesis in every lemma (`IsShort`); it is a property of the
content alone, so that what is inside of a short content is short, and it has
to be checked for the outermost element only. A length below the bound is
written in one byte, or in one or two bytes behind one that counts them, and
there is a lemma for each of the latter (`ofNat_eq_singleton`,
`ofNat_eq_pair`), from which it is seen that no shorter form would have done.
-/

namespace CertAuthority.Der

variable {α : Type}

/-! ## Lengths

A strict reader takes a length in its shortest form only, and in two bytes at
most after the first one. What is written is in the shortest form as it is, so
the strict reader asks for no more than that a content is short. Keys of the
three algorithms are. -/

/-- **A content that a strict reader takes**: one whose length two bytes can
say. -/
def IsShort (b : Bytes) : Prop := b.length < 65536

instance (b : Bytes) : Decidable (IsShort b) := inferInstanceAs (Decidable (_ < _))

/-- What is no longer than a short content is short. -/
theorem IsShort.mono {a b : Bytes} (h : IsShort b) (hle : a.length ≤ b.length) : IsShort a :=
  hle.trans_lt h

/-- A number below 256 is one byte, which is not zero unless the number is. -/
theorem ofNat_eq_singleton {n : Nat} (hlow : n ≠ 0) (hhigh : n < 256) :
    ∃ x : UInt8, Bytes.ofNat n = [x] ∧ x.toNat = n := by
  obtain ⟨x, rest, hx, -⟩ := Bytes.ofNat_eq_cons hlow
  have hlength : (Bytes.ofNat n).length ≤ 1 := Bytes.length_ofNat_le (by simpa using hhigh)
  have hvalue := Bytes.toNat_ofNat n
  rw [hx] at hlength hvalue
  obtain rfl : rest = [] :=
    List.length_eq_zero_iff.1 (Nat.le_zero.1 (Nat.succ_le_succ_iff.1 hlength))
  refine ⟨x, hx, ?_⟩
  rw [← hvalue, Bytes.toNat_cons]
  simp [Bytes.toNat]

/-- A larger one below 65536 is two, of which the first is not zero. -/
theorem ofNat_eq_pair {n : Nat} (hlow : 256 ≤ n) (hhigh : n < 65536) :
    ∃ x y : UInt8, Bytes.ofNat n = [x, y] ∧ x ≠ 0 ∧ x.toNat * 256 + y.toNat = n := by
  obtain ⟨x, rest, hx, hne⟩ := Bytes.ofNat_eq_cons (show n ≠ 0 by omega)
  have hlength : (Bytes.ofNat n).length ≤ 2 := Bytes.length_ofNat_le (by simpa using hhigh)
  have hvalue := Bytes.toNat_ofNat n
  rw [hx] at hlength hvalue
  have hbyte : x.toNat < 256 := UInt8.toNat_lt x
  rcases rest with _ | ⟨y, _ | ⟨z, rest⟩⟩
  · simp only [Bytes.toNat, List.foldl_cons, List.foldl_nil] at hvalue
    omega
  · refine ⟨x, y, hx, hne, ?_⟩
    simpa [Bytes.toNat] using hvalue
  · simp only [List.length_cons] at hlength
    omega

/-- **A length that is written is in its shortest form.** -/
theorem readStrictLength?_encodeLength {n : Nat} (h : n < 65536) (rest : Bytes) :
    readStrictLength? (encodeLength n ++ rest) = some (n, rest) := by
  unfold encodeLength
  by_cases hsmall : n < 128
  · have hbyte : (UInt8.ofNat n).toNat = n := by
      rw [UInt8.toNat_ofNat', Nat.mod_eq_of_lt (hsmall.trans (by decide))]
    rw [if_pos hsmall, List.singleton_append]
    show (if (UInt8.ofNat n).toNat < 128 then some ((UInt8.ofNat n).toNat, rest) else _) = _
    rw [hbyte, if_pos hsmall]
  rw [if_neg hsmall]
  by_cases hbyte : n < 256
  · obtain ⟨x, hx, hvalue⟩ := ofNat_eq_singleton (show n ≠ 0 by omega) hbyte
    rw [hx]
    show (if x.toNat < 128 then none else some (x.toNat, rest)) = _
    rw [hvalue, if_neg hsmall]
  · obtain ⟨x, y, hx, hne, hvalue⟩ := ofNat_eq_pair (Nat.not_lt.1 hbyte) h
    rw [hx]
    show (if x = 0 then none else some (x.toNat * 256 + y.toNat, rest)) = _
    rw [if_neg hne, hvalue]

/-- Writing an element adds little to a short content. -/
theorem length_encode_le_add {mark : UInt8} {content : Bytes} {n : Nat} (h : content.length ≤ n)
    (hn : n < 65536) : (encode mark content).length ≤ n + 4 := by
  have hlength : (encodeLength content.length).length ≤ 3 := by
    unfold encodeLength
    split_ifs
    · exact Nat.succ_le_succ (Nat.zero_le _)
    · have hdigits : (Bytes.ofNat content.length).length ≤ 2 :=
        Bytes.length_ofNat_le (h.trans_lt (by simpa using hn))
      exact Nat.succ_le_succ hdigits
  unfold encode
  rw [List.cons_append, List.length_cons, List.length_append]
  omega

/-! ## Elements -/

variable {mark : UInt8} {content : Bytes}

/-- **An element that is written is read** if it is not too long. -/
theorem readStrict?_encode (h : IsShort content) (rest : Bytes) :
    readStrict? mark (encode mark content ++ rest) = some (content, rest) := by
  unfold encode
  rw [List.cons_append, List.cons_append, List.append_assoc, readStrict?,
    readStrictLength?_encodeLength h]
  show (Bytes.splitAt? content.length (content ++ rest)).bind _ = _
  rw [Bytes.splitAt?_append]
  show (if mark = mark then some (content, rest) else none) = _
  rw [if_pos rfl]

/-- The same at the end, where nothing is left. -/
theorem readStrict?_encode_last (h : IsShort content) :
    readStrict? mark (encode mark content) = some (content, []) := by
  rw [← List.append_nil (encode mark content)]
  exact readStrict?_encode h []

/-- What can be read inside is read with the element around it. -/
theorem insideStrict?_encode {read : Bytes → Option (α × Bytes)} {a : α} (h : IsShort content)
    (hread : read content = some (a, [])) (rest : Bytes) :
    insideStrict? mark read (encode mark content ++ rest) = some (a, rest) := by
  unfold insideStrict?
  rw [readStrict?_encode h]
  show (read content).bind _ = _
  rw [hread]
  rfl

/-- What is read to the end is the whole. -/
theorem wholeStrict?_eq_some {read : Bytes → Option (α × Bytes)} {b : Bytes} {a : α}
    (hread : read b = some (a, [])) : wholeStrict? read b = some a := by
  unfold wholeStrict?
  rw [hread]
  rfl

/-! ## Values -/

/-- **A number that is written is in its shortest form.** -/
theorem strictNumber?_integerContent (n : Nat) : strictNumber? (integerContent n) = some n := by
  have hvalue := toNat_integerContent n
  unfold integerContent at hvalue ⊢
  by_cases hn : n = 0
  · subst hn
    rfl
  obtain ⟨x, rest, hx, hne⟩ := Bytes.ofNat_eq_cons hn
  rw [hx] at hvalue ⊢
  dsimp only at hvalue ⊢
  split_ifs at hvalue ⊢ with hsmall
  · cases rest with
    | nil =>
      have hbyte : x.toNat = n := by simpa [Bytes.toNat] using hvalue
      rw [strictNumber?, if_pos hsmall, hbyte]
    | cons y rest =>
      rw [strictNumber?, if_neg (Nat.not_le.2 hsmall), if_neg fun hzero => hne hzero.1, hvalue]
  · rw [strictNumber?, if_neg (by decide), if_neg fun hzero => hsmall hzero.2, hvalue]

theorem readNumber?_integer {n : Nat} (h : IsShort (integerContent n)) (rest : Bytes) :
    readNumber? (integer n ++ rest) = some (n, rest) := by
  unfold readNumber? integer
  rw [readStrict?_encode h]
  show (strictNumber? (integerContent n)).bind _ = _
  rw [strictNumber?_integerContent]
  rfl

/-- A bit string of whole bytes is read back as these bytes. -/
theorem readBits?_bitString {b : Bytes} (h : IsShort (0 :: b)) (rest : Bytes) :
    readBits? (bitString 0 b ++ rest) = some (b, rest) := by
  unfold readBits? bitString
  show (readStrict? Mark.bitString (encode Mark.bitString (0 :: b) ++ rest)).bind _ = _
  rw [readStrict?_encode h]
  rfl

end CertAuthority.Der
