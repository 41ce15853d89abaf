import CertAuthority.Proofs.Pem.Bundle
import Mathlib.Data.List.TakeWhile

/-!
# Where the blocks of a text stand

A *frame* is the lines of one block: the first line, the lines of the body, and
the last line. `Framed` says how the lines of a text fall into frames, without
reading anything: a frame begins at the first line that can begin a block, its
body goes on for as long as no line can end one, and everything between the
frames is passed over. A text falls into frames in one way at most
(`Framed.unique`); if its last block is never ended, in none.

The reader of blocks reads the frames, one by one (`readBlocks_eq_ok_iff`). What
it looks at in a frame is little: the label, which is cut off at the first dash
(`labelOf?_eq_some_iff`), and the digits. It does not look at the last line,
once it has found it.
-/

namespace CertAuthority.Pem

open Text

/-! ## Frames

A frame says where a block begins and where it ends, without asking what is in
it. The end is the first line that can be one, so frames do not overlap, and a
text has them in one way. -/

/-- **A line at which a block ends**, whatever label is on it. It is told by how
it begins, and anything may come after that. -/
def IsLastLine (line : List Char) : Prop := "-----END ".toList <+: line

theorem startsWith_end_iff {line : List Char} :
    startsWith "-----END ".toList line = true ↔ IsLastLine line := List.isPrefixOf_iff_prefix

/-- **The lines of a block**, as they stand in a text, each with its end.
Nothing is asked of them yet. -/
structure Frame where
  /-- The line at which the block begins. -/
  first : List Char
  /-- The lines up to the one at which it ends. -/
  body : List (List Char)
  /-- The line at which it ends. -/
  last : List Char

/-- All lines of a frame, and the lines after it. -/
def Frame.followedBy (f : Frame) (rest : List (List Char)) : List (List Char) :=
  f.first :: (f.body ++ f.last :: rest)

/-- **A frame is bounded** if its first line can begin a block, and the line
that can end one is its last line. -/
structure Frame.IsBounded (f : Frame) : Prop where
  /-- A block begins at the first line. -/
  first : IsFirstLine f.first
  /-- It does not end in the body. -/
  body : ∀ line ∈ f.body, ¬ IsLastLine line
  /-- It ends at the last line. -/
  last : IsLastLine f.last

/-- **How the lines of a text fall into frames.** A block that begins and does
not end is no frame, so a text with such a block does not fall into frames at
all. -/
inductive Framed : List (List Char) → List Frame → Prop
  /-- No block begins in the lines. -/
  | none {lines : List (List Char)} : (∀ line ∈ lines, ¬ IsFirstLine line) → Framed lines []
  /-- Behind lines that do not count there is a frame, and then there may be others. -/
  | cons {skipped rest : List (List Char)} {f : Frame} {fs : List Frame} :
    (∀ line ∈ skipped, ¬ IsFirstLine line) → f.IsBounded → Framed rest fs →
      Framed (skipped ++ f.followedBy rest) (f :: fs)

/-- A frame may begin with the first line. -/
theorem Framed.head {rest : List (List Char)} {f : Frame} {fs : List Frame} (hf : f.IsBounded)
    (h : Framed rest fs) : Framed (f.followedBy rest) (f :: fs) :=
  .cons (List.forall_mem_nil _) hf h

/-- **A text falls into frames in one way.** -/
theorem Framed.unique {lines : List (List Char)} {fs fs' : List Frame} (h : Framed lines fs)
    (h' : Framed lines fs') : fs = fs' := by
  induction h generalizing fs' with
  | none hnone =>
    cases h' with
    | none _ => rfl
    | cons _ hbounded _ =>
      exact absurd hbounded.first (hnone _ (List.mem_append_right _ List.mem_cons_self))
  | @cons skipped rest f fs hskipped hf _ ih =>
    generalize hlines : skipped ++ f.followedBy rest = lines at h'
    cases h' with
    | none hnone =>
      subst hlines
      exact absurd hf.first (hnone _ (List.mem_append_right _ List.mem_cons_self))
    | @cons skipped' rest' f' fs' hskipped' hf' hrest' =>
      obtain ⟨-, hfirst, hlines⟩ :=
        append_cons_inj_of_not hskipped hf.first hskipped' hf'.first hlines
      obtain ⟨hbody, hlast, rfl⟩ := append_cons_inj_of_not hf.body hf.last hf'.body hf'.last hlines
      obtain ⟨first, body, last⟩ := f
      obtain ⟨first', body', last'⟩ := f'
      obtain rfl : first = first' := hfirst
      obtain rfl : body = body' := hbody
      obtain rfl : last = last' := hlast
      rw [ih hrest']

theorem Framed.isBounded {lines : List (List Char)} {fs : List Frame} (h : Framed lines fs) :
    ∀ f ∈ fs, f.IsBounded := by
  induction h with
  | none _ => simp
  | cons _ hf _ ih => exact List.forall_mem_cons.2 ⟨hf, ih⟩

/-! ## What is read in a frame

The reader takes a label up to its first dash and does not look at the one in
the last line. What it reads is therefore a function of the frame, and so the
blocks of a text are what is read in its frames, one after the other. -/

/-- The five dashes are not in what has no dash before them. -/
theorem dashes_infix_append_iff {s t : List Char} (h : '-' ∉ s) :
    dashes <:+: s ++ t ↔ dashes <:+: t := by
  induction s with
  | nil => rfl
  | cons c s ih =>
    have hc : '-' ≠ c := fun heq => h (heq ▸ List.mem_cons_self)
    have hstart : ¬ dashes <+: c :: (s ++ t) := by
      rintro ⟨after, hafter⟩
      exact hc (List.cons.inj hafter).1
    rw [List.cons_append, List.infix_cons_iff, or_iff_right hstart,
      ih fun hmem => h (List.mem_cons_of_mem c hmem)]

/-- A text with a dash goes up to the first one, and on from there. -/
theorem exists_firstDash {text : List Char} (h : '-' ∈ text) :
    '-' ∉ text.takeWhile (· != '-') ∧ ∃ more, text = text.takeWhile (· != '-') ++ '-' :: more := by
  have hbefore : '-' ∉ text.takeWhile (· != '-') := fun hmem => by
    simpa using List.mem_takeWhile_imp hmem
  refine ⟨hbefore, ?_⟩
  have hsplit := List.takeWhile_append_dropWhile (p := (· != '-')) (l := text)
  cases hrest : text.dropWhile (· != '-') with
  | nil =>
    rw [hrest, List.append_nil] at hsplit
    exact absurd (hsplit.symm ▸ h) hbefore
  | cons c more =>
    have hhead := List.head?_dropWhile_not (· != '-') text
    rw [hrest] at hhead hsplit
    obtain rfl : c = '-' := by simpa using hhead
    exact ⟨more, hsplit.symm⟩

/-- **What the label of a first line is**: the text behind the marker, up to
the next dash. Five dashes have to follow somewhere, but not there. -/
theorem labelOf?_eq_some_iff {line label : List Char} :
    labelOf? line = some label ↔
      '-' ∉ label ∧ ∃ more, line = "-----BEGIN ".toList ++ (label ++ '-' :: more)
        ∧ dashes <:+: '-' :: more := by
  have hword : '-' ∉ "BEGIN ".toList := by decide
  have hmarker : "-----BEGIN ".toList = dashes ++ "BEGIN ".toList := by decide +kernel
  unfold labelOf?
  constructor
  · intro h
    obtain ⟨rest, hrest, h⟩ := Option.bind_eq_some_iff.1 h
    obtain ⟨cut, hcut, h⟩ := Option.bind_eq_some_iff.1 h
    obtain ⟨text, htext, h⟩ := Option.bind_eq_some_iff.1 h
    obtain rfl := Option.some.inj h
    rw [dropExpected?_eq_some_iff] at hrest htext
    -- the five dashes that are required come after the label
    have hdashes : dashes <:+: text := by
      rw [← dashes_infix_append_iff hword, ← htext, ← isSome_cutAtDashes_iff, hcut]
      rfl
    obtain ⟨hlabel, more, hsplit⟩ := exists_firstDash (hdashes.subset (by decide))
    refine ⟨hlabel, more, ?_, ?_⟩
    · rw [← hsplit, hrest, htext, hmarker, List.append_assoc]
    · rwa [hsplit, dashes_infix_append_iff hlabel] at hdashes
  · rintro ⟨hlabel, more, rfl, hdashes⟩
    have hcut : (cutAtDashes ("BEGIN ".toList ++ (label ++ '-' :: more))).isSome := by
      rwa [isSome_cutAtDashes_iff, dashes_infix_append_iff hword, dashes_infix_append_iff hlabel]
    obtain ⟨cut, hcut⟩ := Option.isSome_iff_exists.1 hcut
    simp only [hmarker, List.append_assoc, dropExpected?_append, hcut, Option.bind_eq_bind,
      Option.bind_some, takeWhile_firstDash hlabel]
    rfl

/-- **What the body of a block is**: the lines up to the first that can end
one, each without the blanks at its end. -/
theorem readBody_eq_some_iff {lines rest : List (List Char)} {text : List Char} :
    readBody lines = some (text, rest) ↔
      ∃ body last, lines = body ++ last :: rest ∧ (∀ line ∈ body, ¬ IsLastLine line)
        ∧ IsLastLine last ∧ text = body.flatMap stripEnd := by
  induction lines generalizing text with
  | nil => simp [readBody]
  | cons line lines ih =>
    rw [readBody]
    by_cases hline : IsLastLine line
    · rw [if_pos (startsWith_end_iff.2 hline)]
      constructor
      · intro h
        cases h
        exact ⟨[], line, rfl, by simp, hline, rfl⟩
      · rintro ⟨body, last, hlines, hbody, hlast, rfl⟩
        obtain ⟨rfl, rfl, rfl⟩ :=
          append_cons_inj_of_not (List.forall_mem_nil _) hline hbody hlast hlines
        rfl
    · rw [if_neg fun h => hline (startsWith_end_iff.1 h), Option.map_eq_some_iff]
      constructor
      · rintro ⟨⟨text', rest'⟩, hread, heq⟩
        cases heq
        obtain ⟨body, last, rfl, hbody, hlast, rfl⟩ := ih.1 hread
        exact ⟨line :: body, last, rfl, List.forall_mem_cons.2 ⟨hline, hbody⟩, hlast, rfl⟩
      · rintro ⟨body, last, hlines, hbody, hlast, rfl⟩
        cases body with
        | nil =>
          obtain ⟨rfl, -⟩ := List.cons.inj hlines
          exact absurd hlast hline
        | cons line' body =>
          obtain ⟨rfl, rfl⟩ := List.cons.inj hlines
          rw [List.forall_mem_cons] at hbody
          exact ⟨_, ih.2 ⟨body, last, rfl, hbody.2, hlast, rfl⟩, rfl⟩

/-- No body is read if no line can end it. -/
theorem readBody_eq_none {lines : List (List Char)} (h : ∀ line ∈ lines, ¬ IsLastLine line) :
    readBody lines = none := by
  refine Option.eq_none_iff_forall_ne_some.2 fun ⟨text, rest⟩ hread => ?_
  obtain ⟨body, last, rfl, -, hlast, -⟩ := readBody_eq_some_iff.1 hread
  exact h last (List.mem_append_right _ List.mem_cons_self) hlast

/-- **What is read in a frame**: the label in its first line, and the bytes in
its body. -/
def Frame.Reads (f : Frame) (block : Block) : Prop :=
  labelOf? f.first = some block.label.toList
    ∧ Base64.decodeJoined? (Utf8.encode (f.body.flatMap stripEnd)) = some block.contents

/-- **The first block of a text is what is read in its first frame.** -/
theorem readBlock_eq_some_iff {lines rest : List (List Char)} {block : Block} :
    readBlock lines = .ok (some (block, rest)) ↔
      ∃ skipped f, lines = skipped ++ Frame.followedBy f rest
        ∧ (∀ line ∈ skipped, ¬ IsFirstLine line) ∧ f.IsBounded ∧ f.Reads block := by
  induction lines with
  | nil => simp [readBlock, Frame.followedBy]
  | cons line lines ih =>
    by_cases hline : IsFirstLine line
    · rw [readBlock_cons_eq_some_iff hline]
      constructor
      · rintro ⟨label, text, contents, hlabel, hbody, hcontents, rfl⟩
        obtain ⟨body, last, rfl, hnone, hlast, rfl⟩ := readBody_eq_some_iff.1 hbody
        exact ⟨[], ⟨line, body, last⟩, rfl, by simp, ⟨hline, hnone, hlast⟩,
          by rwa [String.toList_ofList], hcontents⟩
      · rintro ⟨skipped, f, hlines, hskipped, hf, hlabel, hcontents⟩
        obtain ⟨rfl, rfl, rfl⟩ :=
          append_cons_inj_of_not (List.forall_mem_nil _) hline hskipped hf.first hlines
        refine ⟨_, _, _, hlabel, readBody_eq_some_iff.2 ?_, hcontents, by
          rw [String.ofList_toList]⟩
        exact ⟨f.body, f.last, rfl, hf.body, hf.last, rfl⟩
    · rw [readBlock_cons_of_not hline, ih]
      constructor
      · rintro ⟨skipped, f, rfl, hskipped, hf⟩
        exact ⟨line :: skipped, f, rfl, List.forall_mem_cons.2 ⟨hline, hskipped⟩, hf⟩
      · rintro ⟨skipped, f, hlines, hskipped, hf⟩
        cases skipped with
        | nil =>
          obtain ⟨rfl, -⟩ := List.cons.inj hlines
          exact absurd hf.1.first hline
        | cons line' skipped =>
          obtain ⟨rfl, rfl⟩ := List.cons.inj hlines
          exact ⟨skipped, f, rfl, (List.forall_mem_cons.1 hskipped).2, hf⟩

/-- **The blocks of a text are what is read in its frames**, each used. -/
theorem readBlocks_eq_ok_iff {ε α : Type} (fault : BlockFault → ε) (use : Block → Except ε α)
    {lines : List (List Char)} {as : List α} :
    readBlocks fault use lines = .ok as ↔
      ∃ fs, Framed lines fs
        ∧ List.Forall₂ (fun f a => ∃ block, f.Reads block ∧ use block = .ok a) fs as := by
  constructor
  · intro h
    induction hlength : lines.length using Nat.strong_induction_on generalizing lines as with
    | _ n ih =>
      subst hlength
      rcases readBlocks_ok_cases fault use h with
        ⟨hnone, rfl⟩ | ⟨block, rest, a, as, hblock, huse, hrest, rfl⟩
      · exact ⟨[], .none (readBlock_eq_none_iff.1 hnone), .nil⟩
      · obtain ⟨fs, hfs, hreads⟩ := ih rest.length (length_readBlock_lt hblock) hrest rfl
        obtain ⟨skipped, f, rfl, hskipped, hf, hread⟩ := readBlock_eq_some_iff.1 hblock
        exact ⟨f :: fs, .cons hskipped hf hfs, .cons ⟨block, hread, huse⟩ hreads⟩
  · rintro ⟨fs, hfs, hreads⟩
    induction hfs generalizing as with
    | none hnone =>
      cases hreads
      exact (readBlocks_eq_nil_iff fault use).2 hnone
    | cons hskipped hf _ ih =>
      cases hreads with
      | cons hread hreads =>
        obtain ⟨block, hread, huse⟩ := hread
        rw [readBlocks_of_some fault use
          (readBlock_eq_some_iff.2 ⟨_, _, rfl, hskipped, hf, hread⟩), huse, ih hreads]
        rfl

end CertAuthority.Pem
