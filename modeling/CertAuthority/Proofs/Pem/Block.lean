import CertAuthority.Pem.Block
import CertAuthority.Pem.Bundle
import CertAuthority.Proofs.Bytes
import CertAuthority.Proofs.Text.Base64
import CertAuthority.Proofs.Text.Blank
import CertAuthority.Proofs.Text.Utf8

/-!
# What stands in a block

A block is its first line, its digits in lines, and its last line. Seen as one
text, what stands between the first line and the last is a line end and
`bodyText`: the digits, with a line end after each piece of sixty-four. That
the writer cuts the digits as bytes makes no difference, since a piece of them
is always a text (`map_decode?_chunks`). Two facts about the body are all that
a reader needs. Taking the blanks out of it leaves the digits
(`squeeze_bodyText`), and there is no dash in it, so that no marker can be
taken for part of it or begin in it (`dash_not_mem_bodyText`).

The readers of blocks differ in how they look for markers: one wants a line of
its own for each, and another cuts the text at five dashes wherever they are.
Both are served by these facts, and neither the width of the lines nor the
line ends matter to them. For the writer it matters that blocks of contents of
one length are of one size (`length_encode_encodeBlock`), so that the size of
a private key's file says nothing about the key.
-/

namespace CertAuthority.Pem

open Text

/-! ## Digits -/

/-- The base64 text of a byte string, as characters. -/
def digits (der : Bytes) : List Char :=
  (Base64.encode der).map fun b => Char.ofNat b.toNat

/-- Every byte of a base64 text is of the basic alphabet. -/
theorem toNat_lt_of_mem_encode {der : Bytes} {b : UInt8} (hb : b ∈ Base64.encode der) :
    b.toNat < 128 := (Base64.isPlain_of_mem_encode der b hb).2.1

/-- A digit or pad mark, as a character, is the byte it comes from, which is
plain. -/
theorem exists_of_mem_digits {der : Bytes} {c : Char} (hc : c ∈ digits der) :
    ∃ b, Base64.IsPlain b ∧ c.toNat = b.toNat := by
  obtain ⟨b, hb, rfl⟩ := List.mem_map.1 hc
  have hplain := Base64.isPlain_of_mem_encode der b hb
  exact ⟨b, hplain, Utf8.toNat_charOfByte hplain.2.1⟩

/-- No digit is blank, so that squeezing takes away line ends only. -/
theorem not_isBlank_of_mem_digits {der : Bytes} {c : Char} (hc : c ∈ digits der) :
    isBlank c = false := by
  obtain ⟨b, ⟨hlow, hhigh, -⟩, hcb⟩ := exists_of_mem_digits hc
  simp only [isBlank, hcb, Bool.or_eq_false_iff, Bool.and_eq_false_iff, decide_eq_false_iff_not,
    beq_eq_false_iff_ne]
  omega

theorem dash_not_mem_digits (der : Bytes) : '-' ∉ digits der := by
  intro hc
  obtain ⟨b, ⟨-, -, hne⟩, hcb⟩ := exists_of_mem_digits hc
  exact hne (UInt8.toNat_inj.1 hcb.symm)

/-- **The form of the digits is the base64 text.** -/
theorem encode_digits (der : Bytes) : Utf8.encode (digits der) = Base64.encode der :=
  Utf8.encode_map_charOfByte fun _ hb => toNat_lt_of_mem_encode hb

/-! ## Lines

Bytes are written as digits in lines of one length. All that is known of the
digits is that they are plain characters, and it is enough: a line of them is
a text, there is no dash in it, and with the line ends taken out the digits
are back. -/

theorem flatten_chunks {α : Type} {size : Nat} (hsize : size ≠ 0) (l : List α) :
    (chunks size l).flatten = l := by
  induction l using chunks.induct size with
  | case1 l h =>
    obtain rfl : l = [] := h.resolve_right hsize
    rw [chunks, dif_pos (Or.inl rfl), List.flatten_nil]
  | case2 l h ih => rw [chunks, dif_neg h, List.flatten_cons, ih, List.take_append_drop]

/-- What is in a piece is in the list that was cut. -/
theorem mem_of_mem_chunks {α : Type} {size : Nat} (hsize : size ≠ 0) {l piece : List α} {a : α}
    (hpiece : piece ∈ chunks size l) (ha : a ∈ piece) : a ∈ l := by
  rw [← flatten_chunks hsize l]
  exact List.mem_flatten.2 ⟨piece, hpiece, ha⟩

/-- There is something in every piece. -/
theorem ne_nil_of_mem_chunks {α : Type} {size : Nat} {l piece : List α}
    (h : piece ∈ chunks size l) : piece ≠ [] := by
  induction l using chunks.induct size with
  | case1 l hend =>
    rw [chunks, dif_pos hend] at h
    cases h
  | case2 l hgoes ih =>
    rw [chunks, dif_neg hgoes] at h
    rcases List.mem_cons.1 h with rfl | hmem
    · intro hnil
      exact hgoes ((List.take_eq_nil_iff.1 hnil).symm)
    · exact ih hmem

/-- Where a list is cut does not depend on what is in it. -/
theorem chunks_map {α β : Type} (f : α → β) (size : Nat) (l : List α) :
    chunks size (l.map f) = (chunks size l).map (List.map f) := by
  induction l using chunks.induct size with
  | case1 l h =>
    rw [chunks, dif_pos (h.imp_left List.map_eq_nil_iff.2), chunks, dif_pos h, List.map_nil]
  | case2 l h ih =>
    rw [chunks, dif_neg fun hstop => h (hstop.imp_left List.map_eq_nil_iff.1), chunks.eq_def size l,
      dif_neg h, List.map_cons, ← ih, List.map_take, List.map_drop]

/-- **Every piece of the base64 text is a text**: what is in it are characters
of the basic alphabet. -/
theorem map_decode?_chunks (der : Bytes) :
    (chunks lineWidth (Base64.encode der)).map Utf8.decode?
      = (chunks lineWidth (digits der)).map fun line => some (String.ofList line) := by
  rw [digits, chunks_map, List.map_map]
  refine List.map_congr_left fun piece hpiece => Utf8.decode?_of_ascii fun b hb => ?_
  exact toNat_lt_of_mem_encode (mem_of_mem_chunks (by decide) hpiece hb)

/-- No line of digits is left empty. -/
theorem map_lineText_chunks (der : Bytes) :
    (chunks lineWidth (Base64.encode der)).map lineText
      = (chunks lineWidth (digits der)).map String.ofList := by
  have hread := congrArg (List.map fun text => text.getD "") (map_decode?_chunks der)
  rwa [List.map_map, List.map_map] at hread

/-- **The digits of a byte string in lines**, each with its end. -/
def bodyText (der : Bytes) : List Char :=
  (chunks lineWidth (digits der)).flatMap (· ++ ['\n'])

/-- **A block as one text**: the first line, the body, and the last line. -/
theorem toList_encodeBlock (label : String) (der : Bytes) :
    (encodeBlock label der).toList
      = (beginLine label).toList ++ ('\n' :: bodyText der) ++ (endLine label).toList ++ ['\n'] := by
  simp only [encodeBlock, blockLines, map_lineText_chunks, bodyText, String.toList_join,
    List.map_append, List.map_cons, List.map_nil, List.map_map, List.flatMap_append,
    List.flatMap_cons, List.flatMap_nil, List.flatMap_map, Function.comp_apply,
    String.toList_append, String.toList_ofList, List.append_nil, List.append_assoc,
    List.cons_append]
  rfl

theorem squeeze_flatMap_lineEnds (lines : List (List Char)) :
    squeeze (lines.flatMap (· ++ ['\n'])) = squeeze lines.flatten := by
  induction lines with
  | nil => rfl
  | cons line lines ih =>
    rw [List.flatMap_cons, List.flatten_cons, squeeze_append, squeeze_append, squeeze_append, ih,
      show squeeze ['\n'] = [] by decide, List.append_nil]

/-- **Without its blanks the body is the digits.** -/
theorem squeeze_bodyText (der : Bytes) : squeeze (bodyText der) = digits der := by
  rw [bodyText, squeeze_flatMap_lineEnds, flatten_chunks (by decide),
    squeeze_eq_self fun c hc => not_isBlank_of_mem_digits hc]

/-- **There is no dash in the body.** -/
theorem dash_not_mem_bodyText (der : Bytes) : '-' ∉ bodyText der := by
  intro hdash
  obtain ⟨line, hline, hmem⟩ := List.mem_flatMap.1 hdash
  rcases List.mem_append.1 hmem with hmem | hmem
  · exact dash_not_mem_digits der (mem_of_mem_chunks (by decide) hline hmem)
  · exact absurd hmem (by decide)

/-- The body is of the basic alphabet, line ends included. -/
theorem toNat_lt_of_mem_bodyText {der : Bytes} {c : Char} (hc : c ∈ bodyText der) :
    c.toNat < 128 := by
  obtain ⟨line, hline, hmem⟩ := List.mem_flatMap.1 hc
  rcases List.mem_append.1 hmem with hmem | hmem
  · have hdigit : c ∈ digits der := mem_of_mem_chunks (by decide) hline hmem
    obtain ⟨b, ⟨-, hhigh, -⟩, hcb⟩ := exists_of_mem_digits hdigit
    omega
  · rw [List.mem_singleton.1 hmem]
    decide

/-! ## Sizes -/

/-- How long the pieces are depends on how much there is to cut. -/
theorem map_length_chunks {α : Type} {size : Nat} {l l' : List α} (h : l.length = l'.length) :
    (chunks size l).map List.length = (chunks size l').map List.length := by
  have hblank : ∀ l : List α, (chunks size l).map List.length
      = (chunks size (List.replicate l.length ())).map List.length := by
    intro l
    rw [← List.map_const', chunks_map, List.map_map]
    exact List.map_congr_left fun piece _ => (List.length_map _).symm
  rw [hblank, hblank, h]

/-- So the bodies of contents of one length are of one length. -/
theorem length_bodyText {der der' : Bytes} (h : der.length = der'.length) :
    (bodyText der).length = (bodyText der').length := by
  have hdigits : (digits der).length = (digits der').length := by
    rw [digits, digits, List.length_map, List.length_map, Base64.length_encode,
      Base64.length_encode, h]
  have hsum : ∀ der, (bodyText der).length
      = (((chunks lineWidth (digits der)).map List.length).map (· + 1)).sum := by
    intro der
    rw [bodyText, List.length_flatMap, List.map_map]
    exact congrArg List.sum (List.map_congr_left fun line _ => List.length_append)
  rw [hsum, hsum, map_length_chunks hdigits]

/-- **Byte strings of one length have blocks of one size.** -/
theorem length_encode_encodeBlock (label : String) {der der' : Bytes}
    (h : der.length = der'.length) :
    (Utf8.encode (encodeBlock label der).toList).length
      = (Utf8.encode (encodeBlock label der').toList).length := by
  have hbody : ∀ der, (Utf8.encode (bodyText der)).length = (bodyText der).length := fun der => by
    rw [Utf8.encode_eq_map fun c hc => toNat_lt_of_mem_bodyText hc, List.length_map]
  have hsize : ∀ der, (Utf8.encode (encodeBlock label der).toList).length
      = (Utf8.encode (beginLine label).toList).length + (1 + (bodyText der).length)
        + (Utf8.encode (endLine label).toList).length + 1 := by
    intro der
    rw [toList_encodeBlock, Utf8.encode_append, Utf8.encode_append, Utf8.encode_append,
      List.length_append, List.length_append, List.length_append, ← List.singleton_append,
      Utf8.encode_append, List.length_append, hbody]
    rfl
  rw [hsize, hsize, length_bodyText h]

/-! ## Dashes -/

/-- A text can be cut at five dashes if they occur in it. -/
theorem isSome_cutAtDashes_iff {s : List Char} : (cutAtDashes s).isSome ↔ dashes <:+: s := by
  induction s with
  | nil => simp [cutAtDashes, dashes]
  | cons c s ih =>
    rw [List.infix_cons_iff, cutAtDashes]
    cases hdrop : dropExpected? dashes (c :: s) with
    | some after =>
      have hstart : dashes <+: c :: s := ⟨after, (dropExpected?_eq_some_iff.1 hdrop).symm⟩
      simp [hstart]
    | none =>
      have hstart : ¬ dashes <+: c :: s := by
        rintro ⟨after, hafter⟩
        simp [dropExpected?_eq_some_iff.2 hafter.symm] at hdrop
      simp [hstart, ih]

/-- Where there is no dash there are no five. -/
theorem cutAtDashes_eq_none {s : List Char} (h : '-' ∉ s) : cutAtDashes s = none := by
  rw [← Option.not_isSome_iff_eq_none, isSome_cutAtDashes_iff]
  intro hdashes
  exact h (hdashes.subset (show '-' ∈ dashes by decide))

end CertAuthority.Pem
