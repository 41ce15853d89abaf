import CertAuthority.Proofs.Certificate.Acceptance
import CertAuthority.Proofs.Der.Element
import CertAuthority.Proofs.Text.Utf8Canonical

/-!
# The encoding of a certificate is no text of one

A certificate's encoding begins with the identifier of a sequence, and a text
that is read as a certificate begins with a dash, or with blanks and then a
dash. The two can be told apart by the first byte: the low five bits of the
one are those of the tag's number, 16, or the mark of a long number, 31
(`first_of_readTagged?`), while no character with such a first byte is a dash
or a blank (`code_of_first`). So the bytes of a certificate, taken for a text,
are not UTF-8 or are refused for what they begin with (`not_decodePem_der`).

A file of the store may have a certificate in it in either form, and whoever
reads a certificate of the store expects a text. With the bytes of one before
it, such a reader has an error of the encoding, and does not take them for the
text of another certificate.
-/

namespace CertAuthority

namespace Der

/-- **A first byte of an element with a given number**: the number stands in
its low five bits, or these say that it is a long one. -/
def IsMark (number : Nat) (b : UInt8) : Prop := b.toNat % 32 = number ∨ b.toNat % 32 = 31

/-- A header that was read begins with a mark of its number. -/
theorem first_of_readHeader? {b rest : Bytes} {identifier : Identifier} {length : Nat}
    (h : readHeader? b = some ((identifier, length), rest)) :
    ∃ first after, b = first :: after ∧ IsMark identifier.number first := by
  unfold readHeader? at h
  cases b with
  | nil => simp [readIdentifier?] at h
  | cons first after =>
    refine ⟨first, after, rfl, ?_⟩
    by_cases hlong : first.toNat % 32 = 31
    · exact Or.inr hlong
    · rw [readIdentifier?_cons hlong] at h
      simp only [Option.bind_eq_bind, Option.bind_some, Option.bind_eq_some_iff, Prod.exists] at h
      obtain ⟨length?, body, -, hheader⟩ := h
      cases length? with
      | none => cases hheader
      | some n =>
        cases hheader
        exact Or.inl rfl

theorem first_of_readTagged? {number : Nat} {b rest : Bytes} {e : Element}
    (h : readTagged? number b = some (e, rest)) :
    ∃ first after, b = first :: after ∧ IsMark number first := by
  unfold readTagged? readElement? at h
  simp only [Option.bind_eq_bind, Option.bind_eq_some_iff, Prod.exists, Option.pure_def,
    Option.some.injEq, Prod.mk.injEq] at h
  obtain ⟨e', _, ⟨identifier, length, body, hheader, content, _, -, rfl, -⟩, htag⟩ := h
  split_ifs at htag with hnumber
  rw [← hnumber]
  exact first_of_readHeader? hheader

theorem first_of_readInside? {α : Type} {read : Bytes → Option (α × Bytes)} {number : Nat}
    {b rest : Bytes} {a : α} (h : readInside? number read b = some (a, rest)) :
    ∃ first after, b = first :: after ∧ IsMark number first := by
  unfold readInside? at h
  simp only [Option.bind_eq_bind, Option.bind_eq_some_iff, Prod.exists] at h
  obtain ⟨e, _, htagged, -⟩ := h
  exact first_of_readTagged? htagged

end Der

namespace Text.Utf8

/-- **The code point of a character whose first byte may begin a sequence**:
one of the basic alphabet with the same low bits, or one of two stretches
beyond it. -/
theorem code_of_first {b : UInt8} {l : Lead} {start code : Nat} {rest rest' : Bytes}
    (hb : Der.IsMark Der.Tag.sequence b) (hl : lead? b = some l)
    (hc : continuation start 1 l.following l.low l.high l.bits rest = .ok (code, rest')) :
    code % 32 = 16 ∧ code < 128 ∨ code % 32 = 31 ∧ code < 128 ∨ 0x400 ≤ code ∧ code < 0x800
      ∨ 0x10000 ≤ code := by
  unfold Der.IsMark Der.Tag.sequence at hb
  rcases lead?_cases hl with
    ⟨hone, rfl⟩ | ⟨hlow, htwo, rfl⟩ | ⟨hlow, hthree, rfl⟩ | ⟨hlow, hfour, rfl⟩
  · have hcode : b.toNat = code := congrArg Prod.fst (Except.ok.inj hc)
    omega
  · -- the first of two bytes is 0xd0 or 0xdf
    obtain ⟨next, rest₁, -, hnext, hc⟩ := cons_of_continuation hc
    dsimp only at hnext
    have hcode : (b.toNat - 0xc0) * 64 + next.toNat % 64 = code :=
      congrArg Prod.fst (Except.ok.inj hc)
    omega
  · -- the first of three has other low bits
    omega
  · -- the first of four is 0xf0
    obtain ⟨next, rest₁, -, hnext, hc⟩ := cons_of_continuation hc
    obtain ⟨next', rest₂, -, -, hc⟩ := cons_of_continuation hc
    obtain ⟨next'', rest₃, -, -, hc⟩ := cons_of_continuation hc
    have hfirst : b.toNat = 0xf0 := by omega
    simp only [hfirst, if_true] at hnext hc
    have hcode : ((next.toNat % 64) * 64 + next'.toNat % 64) * 64 + next''.toNat % 64 = code := by
      have h := congrArg Prod.fst (Except.ok.inj hc)
      simpa using h
    have hrange : 0x90 ≤ next.toNat ∧ next.toNat ≤ 0xbf := by simpa using hnext
    omega

/-- **A text whose first byte may begin a sequence** begins neither with a
blank nor with a dash. -/
theorem head_of_decode {b : UInt8} {rest : Bytes} {s : List Char}
    (hb : Der.IsMark Der.Tag.sequence b) (h : decode (b :: rest) = .ok s) :
    ∃ c s', s = c :: s' ∧ isBlank c = false ∧ c ≠ '-' := by
  obtain ⟨l, code, rest', s', hl, hc, -, rfl⟩ := decodeFrom_cons_eq_ok h
  refine ⟨Char.ofNat code, s', rfl, ?_⟩
  have hcode := code_of_first hb hl hc
  by_cases hvalid : code.isValidChar
  · have hchar : (Char.ofNat code).toNat = code := by
      rw [Char.ofNat, dif_pos hvalid]
      rfl
    have hne : Char.ofNat code ≠ '-' := by
      intro hdash
      rw [hdash] at hchar
      have hdash' : '-'.toNat = 45 := rfl
      omega
    refine ⟨?_, hne⟩
    simp only [isBlank, hchar, Bool.or_eq_false_iff, Bool.and_eq_false_iff,
      decide_eq_false_iff_not, beq_eq_false_iff_ne]
    omega
  · rw [Char.ofNat, dif_neg hvalid]
    decide

end Text.Utf8

namespace Certificate

/-- A text that begins with something else than a marker or a blank is
refused. -/
theorem decodePem_of_head {c : Char} {s : List Char} (hblank : Text.isBlank c = false)
    (hdash : c ≠ '-') : decodePem (String.ofList (c :: s)) = .error (.encoding .noBegin) := by
  have hstart : Text.stripStart (c :: s) = c :: s := by
    rw [Text.stripStart, List.dropWhile_cons_of_neg (by simp [hblank])]
  have hhead : Text.strip (c :: s) <+: c :: s := by
    rw [Text.strip, hstart, Text.stripEnd, ← List.reverse_suffix, List.reverse_reverse]
    exact List.dropWhile_suffix _
  have hbegin : dropExpected? beginCertificate.toList (Text.strip (c :: s)) = none := by
    rw [Option.eq_none_iff_forall_ne_some]
    intro rest hrest
    rw [dropExpected?_eq_some_iff] at hrest
    rw [hrest] at hhead
    obtain ⟨after, hafter⟩ := hhead
    have hfirst := congrArg List.head? hafter
    rw [List.head?_append, List.head?_append, head?_beginCertificate] at hfirst
    exact hdash (Option.some.inj hfirst).symm
  unfold decodePem pemBody
  rw [String.toList_ofList, hbegin]
  rfl

/-- **The bytes of a certificate are not read as its text.** -/
theorem not_decodePem_der (c : Certificate) {s : List Char} (h : Text.Utf8.decode c.der = .ok s) :
    decodePem (String.ofList s) = .error (.encoding .noBegin) := by
  obtain ⟨first, after, hder, hmark⟩ := Der.first_of_readInside? c.read_der.1
  rw [hder] at h
  obtain ⟨x, s', rfl, hblank, hdash⟩ := Text.Utf8.head_of_decode hmark h
  exact decodePem_of_head hblank hdash

end Certificate

end CertAuthority
