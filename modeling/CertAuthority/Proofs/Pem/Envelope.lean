import CertAuthority.Pem.Envelope
import CertAuthority.Proofs.Pem.Block

/-!
# Blocks are envelopes

A block that was written is opened as an envelope, and what is in it are the
bytes that were put in (`openEnvelope?_encodeBlock`).

The scanner for marks does not go back, but it need not where the first
character of the mark occurs only in the mark: then the text is cut before the
mark and after it (`cutAt?_append`). The marks of a block begin with a dash,
and there is no dash between them. Nor are there header lines, since an empty
line would have to end them, and no line of a block is empty
(`scanFor_lineEnds`).

Envelopes are how private keys are read, and this reader is the most liberal
of those here. It takes any label, text in front of the block, header lines,
and blanks among the digits. How a text has come to be laid out so is not
asked; the one statement here is that the layout which is written is among
those that are taken, and the scanner is followed only as far as this
requires.
-/

namespace CertAuthority.Pem

open Text

/-! ## Scanning -/

section Scan

variable {m : Char} {ms before : List Char}

/-- A mark that begins at once is found. -/
theorem scanFor_mark (mark left rest : List Char) :
    scanFor mark left (left ++ rest) = some (left, rest) := by
  induction left with
  | nil => rw [List.nil_append, scanFor]
  | cons c left ih => rw [List.cons_append, scanFor, if_pos rfl, ih, Option.map_some]

/-- **What the mark does not begin in is passed over.** -/
theorem scanFor_append (h : m ∉ before) (text : List Char) :
    scanFor (m :: ms) (m :: ms) (before ++ text)
      = (scanFor (m :: ms) (m :: ms) text).map fun cut => (before ++ cut.1, cut.2) := by
  induction before with
  | nil => simp
  | cons c before ih =>
    have hc : c ≠ m := fun heq => h (heq ▸ List.mem_cons_self)
    rw [List.cons_append, scanFor, if_neg hc, ih fun hm => h (List.mem_cons_of_mem _ hm),
      Option.map_map]
    rfl

/-- A text without the first character of the mark has no mark. -/
theorem scanFor_eq_none (h : m ∉ before) : scanFor (m :: ms) (m :: ms) before = none := by
  rw [← List.append_nil before, scanFor_append h, scanFor, Option.map_none]

/-- **A text is cut at a mark** whose first character does not occur before
it. -/
theorem cutAt?_append {mark : String} (hmark : mark.toList = m :: ms) (h : m ∉ before)
    (after : List Char) :
    cutAt? mark (before ++ (mark.toList ++ after)) = some (before, after) := by
  have hlength : (before ++ (m :: ms)).length - mark.length = before.length := by
    rw [← String.length_toList, hmark, List.length_append, Nat.add_sub_cancel]
  unfold cutAt?
  rw [hmark, scanFor_append h, scanFor_mark]
  show some ((before ++ (m :: ms)).take _, after) = _
  rw [hlength, List.take_left]

theorem cutAt?_eq_none {mark : String} (hmark : mark.toList = m :: ms) (h : m ∉ before) :
    cutAt? mark before = none := by
  unfold cutAt?
  rw [hmark, scanFor_eq_none h, Option.map_none]

end Scan

/-! ## Lines that are not empty -/

/-- **There is no empty line among lines that are not empty**, wherever the
scan for one has got to. -/
theorem scanFor_lineEnds {lines : List (List Char)}
    (h : ∀ line ∈ lines, line ≠ [] ∧ '\n' ∉ line) :
    scanFor ['\n', '\n'] ['\n', '\n'] (lines.flatMap (· ++ ['\n'])) = none
      ∧ scanFor ['\n', '\n'] ['\n'] (lines.flatMap (· ++ ['\n'])) = none := by
  induction lines with
  | nil => exact ⟨by rw [List.flatMap_nil, scanFor], by rw [List.flatMap_nil, scanFor]⟩
  | cons line lines ih =>
    obtain ⟨-, hended⟩ := ih fun line' hline => h line' (List.mem_cons_of_mem _ hline)
    obtain ⟨hne, hend⟩ := h line List.mem_cons_self
    -- A line that is passed over ends the first half of the mark only.
    have hpassed : ∀ piece : List Char, '\n' ∉ piece → scanFor ['\n', '\n'] ['\n', '\n']
        (piece ++ ('\n' :: lines.flatMap (· ++ ['\n']))) = none := by
      intro piece hpiece
      rw [scanFor_append hpiece, scanFor, if_pos rfl, hended, Option.map_none, Option.map_none]
    have htext : (line :: lines).flatMap (· ++ ['\n'])
        = line ++ ('\n' :: lines.flatMap (· ++ ['\n'])) := by
      rw [List.flatMap_cons, List.append_assoc, List.singleton_append]
    rw [htext]
    refine ⟨hpassed line hend, ?_⟩
    obtain ⟨c, rest, rfl⟩ := List.exists_cons_of_ne_nil hne
    have hc : c ≠ '\n' := fun heq => hend (heq ▸ List.mem_cons_self)
    rw [List.cons_append, scanFor, if_neg hc,
      hpassed rest fun hm => hend (List.mem_cons_of_mem _ hm), Option.map_none]

/-- What is not in a list is in no piece of it. -/
theorem not_mem_of_mem_chunks {α : Type} {size : Nat} (hsize : size ≠ 0) {l piece : List α} {a : α}
    (h : piece ∈ chunks size l) (ha : a ∉ l) : a ∉ piece := fun hmem =>
  ha (mem_of_mem_chunks hsize h hmem)

theorem not_mem_digits_of_isBlank {der : Bytes} {c : Char} (hc : isBlank c = true) :
    c ∉ digits der := by
  intro hmem
  rw [not_isBlank_of_mem_digits hmem] at hc
  cases hc

/-- **There are no header lines in a block.** -/
theorem cutHeaders_bodyText (der : Bytes) : cutHeaders (bodyText der) = ([], bodyText der) := by
  have hlines : ∀ line ∈ chunks lineWidth (digits der), line ≠ [] ∧ '\n' ∉ line := fun line hline =>
    ⟨ne_nil_of_mem_chunks hline,
      not_mem_of_mem_chunks (by decide) hline (not_mem_digits_of_isBlank (by decide))⟩
  have hline : cutAt? "\n\n" (bodyText der) = none := by
    unfold cutAt? bodyText
    rw [show "\n\n".toList = ['\n', '\n'] from rfl, (scanFor_lineEnds hlines).1, Option.map_none]
  have hreturn : '\r' ∉ bodyText der := by
    intro hmem
    obtain ⟨line, hmemLine, hmem⟩ := List.mem_flatMap.1 hmem
    rcases List.mem_append.1 hmem with hmem | hmem
    · exact not_mem_of_mem_chunks (by decide) hmemLine (not_mem_digits_of_isBlank (by decide)) hmem
    · exact absurd hmem (by decide)
  unfold cutHeaders
  rw [hline]
  dsimp only
  have hmark : "\r\n\r\n".toList = '\r' :: ['\n', '\r', '\n'] := rfl
  rw [cutAt?_eq_none hmark hreturn]

/-! ## Blocks -/

/-- The blanks after a first mark are skipped up to the body. -/
theorem skipSpace_bodyText (der : Bytes) (after : List Char) :
    skipSpace ('\n' :: (bodyText der ++ ('-' :: after))) = bodyText der ++ ('-' :: after) := by
  have hhead : ∀ c ∈ (bodyText der ++ ('-' :: after)).head?,
      (c == ' ' || c == '\t' || c == '\n' || c == '\r') = false := by
    intro c hc
    unfold bodyText at hc
    cases hchunks : chunks lineWidth (digits der) with
    | nil =>
      rw [hchunks] at hc
      obtain rfl : '-' = c := Option.some.inj hc
      decide
    | cons line lines =>
      have hline : line ∈ chunks lineWidth (digits der) := hchunks ▸ List.mem_cons_self
      obtain ⟨d, rest, rfl⟩ := List.exists_cons_of_ne_nil (ne_nil_of_mem_chunks hline)
      rw [hchunks] at hc
      obtain rfl : d = c := Option.some.inj hc
      have hdigit : ∀ blank, isBlank blank = true → d ≠ blank := fun blank hblank heq =>
        not_mem_of_mem_chunks (by decide) hline (not_mem_digits_of_isBlank (heq ▸ hblank))
          List.mem_cons_self
      simp [hdigit ' ' (by decide), hdigit '\t' (by decide), hdigit '\n' (by decide),
        hdigit '\r' (by decide)]
  unfold skipSpace
  rw [List.dropWhile_cons_of_pos (by decide)]
  cases htext : bodyText der ++ ('-' :: after) with
  | nil => rfl
  | cons c rest =>
    rw [htext] at hhead
    rw [List.dropWhile_cons_of_neg]
    rw [hhead c rfl]
    exact Bool.false_ne_true

/-- **A block is an envelope of its bytes**, if there is no dash in its
label. -/
theorem openEnvelope?_encodeBlock {label : String} (hne : label ≠ "") (hdash : '-' ∉ label.toList)
    (der : Bytes) : openEnvelope? (encodeBlock label der).toList = some der := by
  have hlabel : label.toList ≠ [] := fun h => hne (String.toList_eq_nil_iff.1 h)
  have hbegin : cutAt? "-----BEGIN " (encodeBlock label der).toList
      = some ([], label.toList ++ ("-----".toList ++ ('\n' :: (bodyText der
        ++ ("-----END ".toList ++ (label.toList ++ ("-----".toList ++ ['\n']))))))) := by
    rw [toList_encodeBlock, beginLine, endLine]
    simp only [String.toList_append, List.append_assoc, List.cons_append]
    exact cutAt?_append rfl (List.not_mem_nil (a := '-')) _
  have hdashes : "-----".toList = '-' :: ['-', '-', '-', '-'] := rfl
  have hfirst := cutAt?_append hdashes hdash
  have hend := cutAt?_append (show "-----END ".toList = '-' :: _ from rfl)
    (dash_not_mem_bodyText der)
  have hskip := skipSpace_bodyText der
  unfold openEnvelope?
  rw [hbegin]
  simp only [Option.bind_eq_bind, Option.bind_some]
  rw [hfirst]
  simp only [Option.bind_some]
  rw [show skipSpace ('\n' :: (bodyText der ++ ("-----END ".toList
      ++ (label.toList ++ ("-----".toList ++ ['\n'])))))
    = bodyText der ++ ("-----END ".toList ++ (label.toList ++ ("-----".toList ++ ['\n'])))
    from hskip _, hend]
  simp only [Option.bind_some]
  rw [hfirst]
  simp only [Option.bind_some, cutHeaders_bodyText]
  have hsound : ¬ (label.toList = [] ∨ label.toList ≠ label.toList ∨ (!areHeaders []) = true) := by
    simp [hlabel, areHeaders]
  rw [if_neg hsound, squeeze_bodyText, encode_digits, Base64.decode_encode]
  rfl

end CertAuthority.Pem
