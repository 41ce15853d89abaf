import CertAuthority.Proofs.Pem.Block

/-!
# Reading blocks one after another

A bundle is read by lines, and a block is written by lines, so the two meet
there: the lines of a text that begins with a block are the lines of the
block and then those of the rest (`linesOf_encodeBlock`). What tells them
apart is the dash. No line of digits has one, so the reader goes past them
up to the line that ends the block (`readBody_append`), and the label, which
has none either, ends where the dashes after it begin (`labelOf?_beginLine`).

So the first block of such a text is the one that was written, and what is
left are the lines after it (`readBlock_encodeBlock`). The reader of blocks
has a base64 reader of its own, which reads what was written all the same
(`Text.Base64.decodeJoined?_encode`).

The text before need not have been written by the encoder. A block is found by
its lines alone, so lines that are added behind change nothing about it
(`readBlock_append_of_some`), and a text whose blocks are all read leaves
nothing to remember for the text after it (`readBlocks_append`).
-/

namespace CertAuthority.Pem

open Text

/-! ## Lines -/

/-- A line without a line end inside is the first line of a text that goes on
behind its end. -/
theorem linesOf_append {line : List Char} (h : '\n' ∉ line) (rest : List Char) :
    linesOf (line ++ '\n' :: rest) = (line ++ ['\n']) :: linesOf rest := by
  induction line with
  | nil => rfl
  | cons c line ih =>
    have hc : c ≠ '\n' := fun heq => h (heq ▸ List.mem_cons_self)
    have hline : '\n' ∉ line := fun hmem => h (List.mem_cons_of_mem c hmem)
    rw [List.cons_append, linesOf.eq_3 _ _ (by simpa using hc), ih hline]
    rfl

/-- **Lines that are set one after another are read as these lines.** -/
theorem linesOf_flatMap {lines : List (List Char)} (h : ∀ line ∈ lines, '\n' ∉ line)
    (rest : List Char) :
    linesOf (lines.flatMap (· ++ ['\n']) ++ rest)
      = lines.map (· ++ ['\n']) ++ linesOf rest := by
  induction lines with
  | nil => rfl
  | cons line lines ih =>
    rw [List.forall_mem_cons] at h
    simp only [List.flatMap_cons, List.append_assoc, List.map_cons, List.cons_append,
      List.nil_append, linesOf_append h.1, ih h.2]

theorem newline_not_mem_digits (der : Bytes) : '\n' ∉ digits der := fun hmem =>
  absurd (not_isBlank_of_mem_digits hmem) (by decide)

/-- **The lines of a text that begins with a block.** -/
theorem linesOf_encodeBlock {label : String} (hlabel : '\n' ∉ label.toList) (der : Bytes)
    (rest : List Char) :
    linesOf ((encodeBlock label der).toList ++ rest)
      = ((beginLine label).toList ++ ['\n'])
        :: ((chunks lineWidth (digits der)).map (· ++ ['\n'])
          ++ ((endLine label).toList ++ ['\n']) :: linesOf rest) := by
  have hbegin : '\n' ∉ (beginLine label).toList := by
    simpa [beginLine, String.toList_append] using hlabel
  have hend : '\n' ∉ (endLine label).toList := by
    simpa [endLine, String.toList_append] using hlabel
  have hdigits : ∀ line ∈ chunks lineWidth (digits der), '\n' ∉ line := fun line hline hmem =>
    newline_not_mem_digits der (mem_of_mem_chunks (by decide) hline hmem)
  rw [toList_encodeBlock, bodyText]
  simp only [List.append_assoc, List.cons_append, List.nil_append, linesOf_append hbegin,
    linesOf_append hend, linesOf_flatMap hdigits]

/-! ## One block

Three things are read off a block: its label in the first line, the end of its
body, and the bytes in there. Neither the label nor the body has a dash in it,
and so each ends where it should. -/

/-- A line does not start with a marker if it does not have the marker's first
character. -/
theorem startsWith_eq_false {start : Char} {more s : List Char} (h : start ∉ s) :
    startsWith (start :: more) s = false := by
  rw [startsWith, ← Bool.not_eq_true, List.isPrefixOf_iff_prefix]
  exact fun hstart => h (hstart.subset List.mem_cons_self)

/-- The reader of a block goes past lines without a dash. -/
theorem readBody_append {lines : List (List Char)} (h : ∀ line ∈ lines, '-' ∉ line)
    {last : List Char} (hlast : startsWith "-----END ".toList last = true)
    (rest : List (List Char)) :
    readBody (lines ++ last :: rest) = some (lines.flatMap stripEnd, rest) := by
  induction lines with
  | nil =>
    show (if startsWith "-----END ".toList last then _ else _) = _
    rw [if_pos hlast]
    rfl
  | cons line lines ih =>
    rw [List.forall_mem_cons] at h
    have hstart : startsWith "-----END ".toList line = false := startsWith_eq_false h.1
    simp only [List.cons_append, readBody, hstart, ih h.2]
    rfl

/-- **The digits of a block are read off its lines.** -/
theorem flatMap_stripEnd_chunks (der : Bytes) :
    ((chunks lineWidth (digits der)).map (· ++ ['\n'])).flatMap stripEnd = digits der := by
  have hline : ∀ line ∈ chunks lineWidth (digits der), stripEnd (line ++ ['\n']) = line := by
    intro line hline
    refine stripEnd_append (List.forall_mem_singleton.2 rfl) fun c hc => ?_
    exact not_isBlank_of_mem_digits (mem_of_mem_chunks (by decide) hline (List.mem_of_getLast? hc))
  rw [List.flatMap_map, List.flatMap_def, List.map_congr_left hline, List.map_id',
    flatten_chunks (by decide)]

/-- What stands before the first dash. -/
theorem takeWhile_firstDash {label : List Char} (h : '-' ∉ label) (more : List Char) :
    (label ++ '-' :: more).takeWhile (· != '-') = label := by
  have hno : ∀ c ∈ label, (c != '-') = true := by
    intro c hc
    rw [bne_iff_ne]
    rintro rfl
    exact h hc
  rw [List.takeWhile_append_of_pos hno]
  exact List.append_nil _

/-- **The label is read off the first line.** -/
theorem labelOf?_beginLine {label : String} (h : '-' ∉ label.toList) :
    labelOf? ((beginLine label).toList ++ ['\n']) = some label.toList := by
  have hline : (beginLine label).toList ++ ['\n']
      = dashes ++ ("BEGIN ".toList ++ (label.toList ++ (dashes ++ ['\n']))) := by
    simp [beginLine, dashes, String.toList_append]
  have hcut : (cutAtDashes ("BEGIN ".toList ++ (label.toList ++ (dashes ++ ['\n'])))).isSome := by
    rw [isSome_cutAtDashes_iff]
    exact ⟨"BEGIN ".toList ++ label.toList, ['\n'], by simp⟩
  obtain ⟨cut, hcut⟩ := Option.isSome_iff_exists.1 hcut
  have hlabel : (label.toList ++ (dashes ++ ['\n'])).takeWhile (· != '-') = label.toList :=
    takeWhile_firstDash h _
  unfold labelOf?
  simp only [hline, dropExpected?_append, hcut, Option.bind_eq_bind, Option.bind_some, hlabel]
  rfl

/-- **The first block of a text that begins with one** is that block. -/
theorem readBlock_encodeBlock {label : String} (hnewline : '\n' ∉ label.toList)
    (hdash : '-' ∉ label.toList) (der : Bytes) (rest : List Char) :
    readBlock (linesOf ((encodeBlock label der).toList ++ rest))
      = .ok (some (⟨label, der⟩, linesOf rest)) := by
  have hbegin : startsWith "-----BEGIN ".toList ((beginLine label).toList ++ ['\n']) = true := by
    rw [startsWith, List.isPrefixOf_iff_prefix]
    exact ⟨label.toList ++ "-----\n".toList, by simp [beginLine, String.toList_append]⟩
  have hend : startsWith "-----END ".toList ((endLine label).toList ++ ['\n']) = true := by
    rw [startsWith, List.isPrefixOf_iff_prefix]
    exact ⟨label.toList ++ "-----\n".toList, by simp [endLine, String.toList_append]⟩
  have hlines : ∀ line ∈ (chunks lineWidth (digits der)).map (· ++ ['\n']), '-' ∉ line := by
    intro line hline hmem
    obtain ⟨digits', hdigits, rfl⟩ := List.mem_map.1 hline
    rcases List.mem_append.1 hmem with hmem | hmem
    · exact dash_not_mem_digits der (mem_of_mem_chunks (by decide) hdigits hmem)
    · exact absurd hmem (by decide)
  rw [linesOf_encodeBlock hnewline, readBlock, if_pos hbegin, labelOf?_beginLine hdash,
    readBody_append hlines hend, flatMap_stripEnd_chunks]
  dsimp only
  rw [encode_digits, Base64.decodeJoined?_encode, String.ofList_toList]

/-! ## All blocks -/

variable {ε α : Type} (fault : BlockFault → ε) (use : Block → Except ε α)

/-- Where no block is left the list is at its end. -/
theorem readBlocks_of_none {lines : List (List Char)} (h : readBlock lines = .ok none) :
    readBlocks fault use lines = .ok [] := by
  rw [readBlocks]
  split <;> simp_all

/-- The first block is used, and then the others. -/
theorem readBlocks_of_some {lines rest : List (List Char)} {block : Block}
    (h : readBlock lines = .ok (some (block, rest))) :
    readBlocks fault use lines = do
      let a ← use block
      let as ← readBlocks fault use rest
      return a :: as := by
  rw [readBlocks]
  split
  · simp_all
  · simp_all
  · rename_i block' rest' h'
    rw [h] at h'
    cases h'
    cases use block with
    | error e => rfl
    | ok a => cases readBlocks fault use rest <;> rfl

/-! ## One text after another

A reader of blocks goes over lines and remembers nothing between two blocks.
So it is enough to say what it does at the first line that begins one: what
was found there does not depend on the lines that are added behind, provided
that the block has ended. -/

theorem linesOf_ne_nil {s : List Char} (h : s ≠ []) : linesOf s ≠ [] := by
  intro hnil
  have hflatten := flatten_linesOf s
  rw [hnil] at hflatten
  exact h hflatten.symm

/-- **What follows the end of a line are lines of their own.** -/
theorem linesOf_append_newline (s rest : List Char) :
    linesOf (s ++ '\n' :: rest) = linesOf (s ++ ['\n']) ++ linesOf rest := by
  induction s with
  | nil => rfl
  | cons c s ih =>
    rw [List.cons_append, List.cons_append]
    by_cases hc : c = '\n'
    · subst hc
      show ['\n'] :: linesOf (s ++ '\n' :: rest) = ['\n'] :: linesOf (s ++ ['\n']) ++ linesOf rest
      rw [ih, List.cons_append]
    · rw [linesOf.eq_3 _ _ (by simpa using hc), linesOf.eq_3 _ _ (by simpa using hc), ih]
      -- the line that `c` is in has not ended
      obtain ⟨line, lines, hlines⟩ := List.exists_cons_of_ne_nil
        (linesOf_ne_nil (List.append_ne_nil_of_right_ne_nil s (List.cons_ne_nil '\n' [])))
      rw [hlines]
      rfl

/-- A block ends before the lines that are added. -/
theorem readBody_append_lines {lines rest : List (List Char)} {body : List Char}
    (h : readBody lines = some (body, rest)) (more : List (List Char)) :
    readBody (lines ++ more) = some (body, rest ++ more) := by
  induction lines generalizing body with
  | nil => cases h
  | cons line lines ih =>
    rw [List.cons_append]
    rw [readBody] at h ⊢
    by_cases hend : startsWith "-----END ".toList line
    · rw [if_pos hend] at h ⊢
      cases h
      rfl
    · rw [if_neg hend] at h ⊢
      obtain ⟨⟨body', rest'⟩, hbody, hpair⟩ := Option.map_eq_some_iff.1 h
      obtain ⟨rfl, rfl⟩ := Prod.mk.inj hpair
      rw [ih hbody]
      rfl

/-- **A line at which a block begins.** It is told by how it begins, without a
look at its label. -/
def IsFirstLine (line : List Char) : Prop := "-----BEGIN ".toList <+: line

theorem startsWith_begin_iff {line : List Char} :
    startsWith "-----BEGIN ".toList line = true ↔ IsFirstLine line := List.isPrefixOf_iff_prefix

/-- Lines before a first line do not count. -/
theorem readBlock_cons_of_not {line : List Char} (h : ¬ IsFirstLine line)
    (lines : List (List Char)) : readBlock (line :: lines) = readBlock lines := by
  rw [readBlock, if_neg fun hbegin => h (startsWith_begin_iff.1 hbegin)]

/-- **What is read at a first line**: its label, the lines up to the end of
the block, and the bytes in them. -/
theorem readBlock_cons_eq_some_iff {line : List Char} (h : IsFirstLine line)
    {lines rest : List (List Char)} {block : Block} :
    readBlock (line :: lines) = .ok (some (block, rest)) ↔
      ∃ label body contents, labelOf? line = some label ∧ readBody lines = some (body, rest)
        ∧ Base64.decodeJoined? (Utf8.encode body) = some contents
        ∧ block = ⟨String.ofList label, contents⟩ := by
  rw [readBlock, if_pos (startsWith_begin_iff.2 h)]
  cases labelOf? line with
  | none => simp
  | some label =>
    cases readBody lines with
    | none => simp
    | some read =>
      obtain ⟨body, rest'⟩ := read
      cases hcontents : Base64.decodeJoined? (Utf8.encode body) with
      | none => simp [hcontents]
      | some contents => simp [hcontents, eq_comm, and_comm]

/-- At a first line there is a block, or an error. -/
theorem readBlock_cons_ne_none {line : List Char} (h : IsFirstLine line)
    (lines : List (List Char)) : readBlock (line :: lines) ≠ .ok none := by
  rw [readBlock, if_pos (startsWith_begin_iff.2 h)]
  split
  · simp
  · split
    · simp
    · split
      · simp
      · simp

/-- **There is no block exactly if no line begins one.** -/
theorem readBlock_eq_none_iff {lines : List (List Char)} :
    readBlock lines = .ok none ↔ ∀ line ∈ lines, ¬ IsFirstLine line := by
  induction lines with
  | nil => simp [readBlock]
  | cons line lines ih =>
    rw [List.forall_mem_cons]
    by_cases hbegin : IsFirstLine line
    · exact iff_of_false (readBlock_cons_ne_none hbegin lines) fun h => h.1 hbegin
    · rw [readBlock_cons_of_not hbegin, ih, and_iff_right hbegin]

/-- Lines in which no block begins are passed over. -/
theorem readBlock_append_of_none {lines : List (List Char)} (h : readBlock lines = .ok none)
    (more : List (List Char)) : readBlock (lines ++ more) = readBlock more := by
  rw [readBlock_eq_none_iff] at h
  induction lines with
  | nil => rfl
  | cons line lines ih =>
    rw [List.forall_mem_cons] at h
    rw [List.cons_append, readBlock_cons_of_not h.1, ih h.2]

/-- **The first block is still the first** when lines are added after it. -/
theorem readBlock_append_of_some {lines rest : List (List Char)} {block : Block}
    (h : readBlock lines = .ok (some (block, rest))) (more : List (List Char)) :
    readBlock (lines ++ more) = .ok (some (block, rest ++ more)) := by
  induction lines with
  | nil => cases h
  | cons line lines ih =>
    rw [List.cons_append]
    by_cases hbegin : IsFirstLine line
    · rw [readBlock_cons_eq_some_iff hbegin] at h ⊢
      obtain ⟨label, body, contents, hlabel, hbody, hcontents, hblock⟩ := h
      exact ⟨label, body, contents, hlabel, readBody_append_lines hbody more, hcontents, hblock⟩
    · rw [readBlock_cons_of_not hbegin] at h ⊢
      exact ih h

/-- A block that cannot be read is the end of all reading. -/
theorem readBlocks_of_error {lines : List (List Char)} {e : BlockFault}
    (h : readBlock lines = .error e) : readBlocks fault use lines = .error (fault e) := by
  rw [readBlocks]
  split <;> simp_all

/-- **How a list comes about**: no block is left, or the first one is used and
the others are the rest of the list. -/
theorem readBlocks_ok_cases {lines : List (List Char)} {as : List α}
    (h : readBlocks fault use lines = .ok as) :
    (readBlock lines = .ok none ∧ as = []) ∨
      ∃ block rest a as', readBlock lines = .ok (some (block, rest)) ∧ use block = .ok a
        ∧ readBlocks fault use rest = .ok as' ∧ as = a :: as' := by
  match hblock : readBlock lines with
  | .error e =>
    rw [readBlocks_of_error fault use hblock] at h
    cases h
  | .ok none =>
    rw [readBlocks_of_none fault use hblock] at h
    exact Or.inl ⟨rfl, (Except.ok.inj h).symm⟩
  | .ok (some (block, rest)) =>
    rw [readBlocks_of_some fault use hblock] at h
    cases ha : use block with
    | error e =>
      rw [ha] at h
      cases h
    | ok a =>
      cases has : readBlocks fault use rest with
      | error e =>
        rw [ha, has] at h
        cases h
      | ok as' =>
        rw [ha, has] at h
        exact Or.inr ⟨block, rest, a, as', rfl, ha, has, (Except.ok.inj h).symm⟩

/-- **How an error comes about**: the first block cannot be read, it cannot be
used, or the error is one of the blocks after it. -/
theorem readBlocks_error_cases {lines : List (List Char)} {e : ε}
    (h : readBlocks fault use lines = .error e) :
    (∃ cause, e = fault cause) ∨
      ∃ block rest, readBlock lines = .ok (some (block, rest))
        ∧ (use block = .error e ∨ readBlocks fault use rest = .error e) := by
  match hblock : readBlock lines with
  | .error cause =>
    rw [readBlocks_of_error fault use hblock] at h
    exact Or.inl ⟨cause, (Except.error.inj h).symm⟩
  | .ok none =>
    rw [readBlocks_of_none fault use hblock] at h
    cases h
  | .ok (some (block, rest)) =>
    rw [readBlocks_of_some fault use hblock] at h
    refine Or.inr ⟨block, rest, rfl, ?_⟩
    cases ha : use block with
    | error e' =>
      rw [ha] at h
      exact Or.inl (congrArg _ (Except.error.inj h))
    | ok a =>
      cases has : readBlocks fault use rest with
      | error e' =>
        rw [ha, has] at h
        exact Or.inr (congrArg _ (Except.error.inj h))
      | ok as =>
        rw [ha, has] at h
        cases h

/-- **Nothing is read exactly if no line begins a block.** -/
theorem readBlocks_eq_nil_iff {lines : List (List Char)} :
    readBlocks fault use lines = .ok [] ↔ ∀ line ∈ lines, ¬ IsFirstLine line := by
  rw [← readBlock_eq_none_iff]
  refine ⟨fun h => ?_, readBlocks_of_none fault use⟩
  rcases readBlocks_ok_cases fault use h with ⟨hnone, -⟩ | ⟨_, _, _, _, -, -, -, hcons⟩
  · exact hnone
  · cases hcons

/-- **Where an error comes from**: a block that cannot be read, or one that
cannot be used. -/
theorem readBlocks_eq_error {lines : List (List Char)} {e : ε}
    (h : readBlocks fault use lines = .error e) :
    (∃ cause, e = fault cause) ∨ ∃ block, use block = .error e := by
  induction hlength : lines.length using Nat.strong_induction_on generalizing lines with
  | _ n ih =>
    subst hlength
    rcases readBlocks_error_cases fault use h with hcause | ⟨block, rest, hblock, huse | hrest⟩
    · exact Or.inl hcause
    · exact Or.inr ⟨block, huse⟩
    · exact ih rest.length (length_readBlock_lt hblock) hrest rfl

/-- **What is read depends on the first block that is found.** -/
theorem readBlocks_congr {lines lines' : List (List Char)} (h : readBlock lines = readBlock lines') :
    readBlocks fault use lines = readBlocks fault use lines' := by
  match hblock : readBlock lines with
  | .error e =>
    exact (readBlocks_of_error fault use hblock).trans
      (readBlocks_of_error fault use (h ▸ hblock)).symm
  | .ok none =>
    exact (readBlocks_of_none fault use hblock).trans
      (readBlocks_of_none fault use (h ▸ hblock)).symm
  | .ok (some (block, rest)) =>
    exact (readBlocks_of_some fault use hblock).trans
      (readBlocks_of_some fault use (h ▸ hblock)).symm

/-- **Blocks that are read are read before what follows them.** The reader has
nothing left to remember when the lines are at their end, so that it goes on
with further lines as if they were all there is. -/
theorem readBlocks_append {lines : List (List Char)} {as : List α}
    (h : readBlocks fault use lines = .ok as) (more : List (List Char)) :
    readBlocks fault use (lines ++ more) = (readBlocks fault use more).map (as ++ ·) := by
  induction hlength : lines.length using Nat.strong_induction_on generalizing lines as with
  | _ n ih =>
    subst hlength
    rcases readBlocks_ok_cases fault use h with
      ⟨hblock, rfl⟩ | ⟨block, rest, a, as', hblock, ha, has, rfl⟩
    · rw [readBlocks_congr fault use (readBlock_append_of_none hblock more)]
      cases readBlocks fault use more with
      | error e => rfl
      | ok bs => rfl
    · rw [readBlocks_of_some fault use (readBlock_append_of_some hblock more), ha,
        ih rest.length (length_readBlock_lt hblock) has rfl]
      cases readBlocks fault use more with
      | error e => rfl
      | ok bs => rfl

end CertAuthority.Pem
