import CertAuthority.Files.AtomicWrite
import CertAuthority.Files.Tree
import Mathlib.Data.List.Basic
import Mathlib.Data.List.Infix

/-!
# The paths above a path

The text of a path falls into pieces at its slashes, and the path above it is
what is left of the pieces without the last one that leads somewhere. So the
paths above a path are spelled by the first pieces of its own
(`Path.IsHeadOf`), down to the top of the file system or to nothing, and a
walk along one of them is the beginning of a walk along the path itself
(`IsHeadOf.piecesOf`).

That is what a writer relies on that makes the directories it is missing. It
asks for them by path, one path above the other, and each of them has to be on
the way to the target. A path is a text, though, with slashes that may be
doubled, left at the end or followed by a single dot, and such idle pieces are
where the text above a path and the way to it could part.
-/

namespace CertAuthority

namespace Path

/-! ## Pieces

A path is a text, and all that is done to it is done to the pieces between its
slashes. They determine the text, and an empty piece is a slash too many, at
the beginning of a path that starts at the top or somewhere else. -/

/-- The pieces of a text are what is between its slashes. -/
theorem pieces_eq_splitOn (s : List Char) : pieces s = s.splitOn '/' := by
  induction s with
  | nil => rfl
  | cons c rest ih =>
    rw [List.splitOn_cons_eq_if_modifyHead, ← ih]
    by_cases hc : c = '/'
    · subst hc
      rfl
    · rw [pieces, if_neg (by simpa using hc)]
      · have hne : pieces rest ≠ [] := ih ▸ List.splitOn_ne_nil '/' rest
        cases hp : pieces rest with
        | nil => exact absurd hp hne
        | cons piece others => rfl
      · exact hc

theorem pieces_ne_nil (s : List Char) : pieces s ≠ [] := by
  rw [pieces_eq_splitOn]
  exact List.splitOn_ne_nil '/' s

theorem slash_not_mem_of_mem_pieces {s piece : List Char} (h : piece ∈ pieces s) :
    '/' ∉ piece := by
  induction s generalizing piece with
  | nil =>
    rw [List.mem_singleton.1 h]
    exact List.not_mem_nil
  | cons c rest ih =>
    by_cases hc : c = '/'
    · subst hc
      rcases List.mem_cons.1 h with rfl | h
      · exact List.not_mem_nil
      · exact ih h
    · rw [pieces] at h
      · cases hp : pieces rest with
        | nil => exact absurd hp (pieces_ne_nil rest)
        | cons first others =>
          rw [hp] at h ih
          rcases List.mem_cons.1 h with rfl | h
          · rw [List.mem_cons, not_or]
            exact ⟨fun heq => hc heq.symm, ih List.mem_cons_self⟩
          · exact ih (List.mem_cons_of_mem _ h)
      · exact hc

/-- Pieces without slashes are told from one another when they are joined by
slashes. -/
theorem pieces_joinPieces {ps : List (List Char)} (hne : ps ≠ []) (h : ∀ p ∈ ps, '/' ∉ p) :
    pieces (joinPieces ps).toList = ps := by
  have hmap : (ps.map String.ofList).map String.toList = ps := by
    rw [List.map_map]
    exact (List.map_congr_left fun p _ => String.toList_ofList).trans (List.map_id ps)
  rw [pieces_eq_splitOn, joinPieces, String.toList_intercalate, hmap]
  exact List.splitOn_intercalate '/' h hne

/-- A text that ends in a slash ends in an empty piece. -/
theorem getLast?_pieces_append (s : List Char) : (pieces (s ++ ['/'])).getLast? = some [] := by
  rw [pieces_eq_splitOn, List.splitOn_append_cons_self, List.splitOn_nil]
  exact List.getLast?_concat

/-- A path starts at the top just when its first piece is empty and not its only
one. -/
theorem isAbsolute_iff (p : Path) :
    p.isAbsolute = true ↔ ∃ others, others ≠ [] ∧ pieces p.text.toList = [] :: others := by
  unfold isAbsolute
  rw [beq_iff_eq]
  cases p.text.toList with
  | nil =>
    constructor
    · intro h
      cases h
    · rintro ⟨others, hne, h⟩
      exact absurd (List.cons.inj h).2.symm hne
  | cons c rest =>
    by_cases hc : c = '/'
    · subst hc
      exact ⟨fun _ => ⟨pieces rest, pieces_ne_nil rest, rfl⟩, fun _ => rfl⟩
    · refine ⟨fun h => absurd (Option.some.inj h) hc, fun ⟨others, hne, h⟩ => ?_⟩
      rw [pieces] at h
      · cases hp : pieces rest with
        | nil => exact absurd hp (pieces_ne_nil rest)
        | cons first others' =>
          rw [hp] at h
          cases h
      · exact hc

/-! ## The path above a path

What is above a path has been found by leaving out its last component, with
whatever is idle around it. The text that is left is the text of the path up
to somewhere. Hence a walk to what is above is the first part of the walk to
the path. -/

/-- **A path that is spelled by the first pieces of another**, the last of
them not empty. -/
structure IsHeadOf (d p : Path) : Prop where
  /-- Its pieces are the other's first. -/
  pieces : pieces d.text.toList <+: pieces p.text.toList
  /-- It does not end in a slash, nor is it empty. -/
  last : (Path.pieces d.text.toList).getLast? ≠ some []

namespace IsHeadOf

variable {d p q : Path}

/-- The first pieces of first pieces are first pieces. -/
theorem trans (h : IsHeadOf d p) (h' : IsHeadOf p q) : IsHeadOf d q :=
  ⟨h.pieces.trans h'.pieces, h.last⟩

/-- It starts at the top of the file system if the other one does. -/
theorem isAbsolute (h : IsHeadOf d p) : d.isAbsolute = p.isAbsolute := by
  rw [Bool.eq_iff_iff, isAbsolute_iff, isAbsolute_iff]
  obtain ⟨tail, htail⟩ := h.pieces
  rw [← htail]
  constructor
  · rintro ⟨others, hne, hd⟩
    rw [hd]
    exact ⟨others ++ tail, fun h => hne (List.append_eq_nil_iff.1 h).1, rfl⟩
  · rintro ⟨others, -, hp⟩
    have hlast := h.last
    cases hd : Path.pieces d.text.toList with
    | nil => exact absurd hd (pieces_ne_nil _)
    | cons first rest =>
      rw [hd] at hp hlast
      rw [(List.cons.inj hp).1] at hlast ⊢
      refine ⟨rest, ?_, rfl⟩
      rintro rfl
      exact hlast rfl

theorem getLast?_text (h : IsHeadOf d p) : d.text.toList.getLast? ≠ some '/' := by
  intro hslash
  obtain ⟨s, hs⟩ := List.getLast?_eq_some_iff.1 hslash
  have hlast := h.last
  rw [hs] at hlast
  exact hlast (getLast?_pieces_append s)

/-- Nothing changes if the slashes at its end are left out. -/
theorem withoutTrailingSlashes (h : IsHeadOf d p) : Files.Tree.withoutTrailingSlashes d = d := by
  have hlast := h.getLast?_text
  have hne := h.last
  unfold Files.Tree.withoutTrailingSlashes
  rw [← List.head?_reverse] at hlast
  cases hrev : d.text.toList.reverse with
  | nil => rfl
  | cons c rest =>
    rw [hrev] at hlast
    have hc : ¬(c == '/') = true := fun h => hlast (congrArg some (beq_iff_eq.1 h))
    have hkeep := List.dropWhile_cons_of_neg (p := (· == '/')) (l := rest) hc
    rw [hkeep]
    show (⟨String.ofList (c :: rest).reverse⟩ : Path) = d
    rw [← hrev, List.reverse_reverse, String.ofList_toList]

/-- A walk along it is the beginning of a walk along the other one. -/
theorem piecesOf (h : IsHeadOf d p) : Files.Tree.piecesOf d <+: Files.Tree.piecesOf p := by
  unfold Files.Tree.piecesOf
  have hfilter := h.pieces.filter (· ≠ [])
  rw [if_neg h.getLast?_text]
  split_ifs
  · exact hfilter.trans (List.prefix_append _ _)
  · exact hfilter

end IsHeadOf

/-- What is left of pieces without idle ones at the end are first pieces. -/
theorem trimIdle_isPrefix (ps : List (List Char)) : trimIdle ps <+: ps := by
  cases ps with
  | nil => exact List.prefix_refl []
  | cons first others =>
    refine (List.prefix_cons_inj first).2 ?_
    rw [← List.reverse_suffix, List.reverse_reverse]
    exact List.dropWhile_suffix _

/-- What is left of pieces ends in one that leads somewhere, or is the
first. -/
theorem getLast?_trimIdle {ps : List (List Char)} (h : (trimIdle ps).getLast? = some []) :
    trimIdle ps = [[]] := by
  cases ps with
  | nil => cases h
  | cons first others =>
    rw [trimIdle] at h ⊢
    cases hdrop : others.reverse.dropWhile isIdle with
    | nil =>
      rw [hdrop] at h
      have hfirst : first = [] := Option.some.inj h
      rw [hfirst]
      rfl
    | cons piece rest =>
      have hidle := List.head?_dropWhile_not isIdle others.reverse
      rw [hdrop] at h hidle
      rw [List.reverse_cons, ← List.cons_append, List.getLast?_concat] at h
      rw [Option.some.inj h] at hidle
      have hnot : isIdle [] = false := hidle
      exact absurd hnot (by decide)

/-- The first pieces of a text spell a text with these pieces. -/
theorem pieces_joinPieces_of_isPrefix {s : List Char} {ps : List (List Char)} (h : ps <+: pieces s)
    (hne : ps ≠ []) : pieces (joinPieces ps).toList = ps :=
  pieces_joinPieces hne fun _ hpiece => slash_not_mem_of_mem_pieces (h.mem hpiece)

/-- First pieces of a path spell one that is the head of it, if the last of them
is not empty. -/
theorem isHeadOf_joinPieces {p : Path} {ps : List (List Char)} (h : ps <+: pieces p.text.toList)
    (hne : ps ≠ []) (hlast : ps.getLast? ≠ some []) : IsHeadOf ⟨joinPieces ps⟩ p := by
  have hpieces := pieces_joinPieces_of_isPrefix h hne
  constructor
  · show pieces (joinPieces ps).toList <+: _
    rw [hpieces]
    exact h
  · show (pieces (joinPieces ps).toList).getLast? ≠ _
    rw [hpieces]
    exact hlast

/-- **The path above a path** is empty, the top of the file system, or
spelled by its first pieces. -/
theorem parent?_cases {p d : Path} (h : p.parent? = some d) :
    d.text = "" ∨ d.text = "/" ∨ IsHeadOf d p := by
  unfold parent? at h
  split at h
  · cases h
  · split_ifs at h
    cases h
    exact Or.inl rfl
  · rename_i hnil hone
    split at h
    · cases h
      exact Or.inr (Or.inl rfl)
    · rename_i htop
      cases h
      refine Or.inr (Or.inr (isHeadOf_joinPieces ?_ ?_ fun hlast => htop (getLast?_trimIdle hlast)))
      · exact (trimIdle_isPrefix _).trans ((List.dropLast_prefix _).trans (trimIdle_isPrefix _))
      · cases hps : trimIdle (pieces p.text.toList) with
        | nil => exact absurd hps hnil
        | cons first others =>
          cases others with
          | nil => exact absurd hps (hone first)
          | cons second others => exact List.cons_ne_nil _ _

/-- Nothing is above nothing, or above the top. -/
theorem parent?_eq_none {p : Path} (h : p.text = "" ∨ p.text = "/") : p.parent? = none := by
  obtain ⟨text⟩ := p
  rcases h with rfl | rfl
  · rfl
  · rfl

theorem above_eq_nil {p : Path} (limit : Nat) (h : p.text = "" ∨ p.text = "/") :
    above limit p = [] := by
  cases limit with
  | zero => rfl
  | succ limit => rw [above, parent?_eq_none h]

/-- **The paths above a path**, as for the nearest. -/
theorem above_cases (limit : Nat) {p a : Path} (h : a ∈ above limit p) :
    a.text = "" ∨ a.text = "/" ∨ IsHeadOf a p := by
  induction limit generalizing p with
  | zero => cases h
  | succ limit ih =>
    rw [above] at h
    cases hd : p.parent? with
    | none =>
      rw [hd] at h
      cases h
    | some d =>
      rw [hd] at h
      have hcases := parent?_cases hd
      rcases List.mem_cons.1 h with rfl | h
      · exact hcases
      rcases hcases with hempty | htop | hhead
      · rw [above_eq_nil limit (Or.inl hempty)] at h
        cases h
      · rw [above_eq_nil limit (Or.inr htop)] at h
        cases h
      · exact (ih h).imp_right fun h => h.imp_right fun h => h.trans hhead

/-- The directory a path is in is the path above it, unless there is none or it
is empty. -/
theorem directory_eq (p : Path) :
    p.directory = ⟨"."⟩ ∨ p.directory.text ≠ "" ∧ p.parent? = some p.directory := by
  unfold directory
  cases hd : p.parent? with
  | none => exact Or.inl rfl
  | some d =>
    show (if d.text = "" then (⟨"."⟩ : Path) else d) = ⟨"."⟩ ∨ _
    by_cases hempty : d.text = ""
    · exact Or.inl (if_pos hempty)
    · right
      show (if d.text = "" then (⟨"."⟩ : Path) else d).text ≠ "" ∧ some d
        = some (if d.text = "" then (⟨"."⟩ : Path) else d)
      rw [if_neg hempty]
      exact ⟨hempty, rfl⟩

/-- **The directory a path is in** is the top of the file system, or has a
text that does not end in a slash. -/
theorem directory_cases (p : Path) : p.directory.text = "/" ∨ IsHeadOf p.directory p.directory := by
  rcases directory_eq p with hdot | ⟨hempty, hparent⟩
  · rw [hdot]
    exact Or.inr ⟨List.prefix_refl _, by decide⟩
  · rcases parent?_cases hparent with h | h | h
    · exact absurd h hempty
    · exact Or.inl h
    · exact Or.inr ⟨List.prefix_refl _, h.last⟩

/-- **The directory a path is in and those above it.** -/
theorem ancestors_directory_cases {p a : Path} (h : a ∈ p.directory.ancestors) :
    a.text = "" ∨ a.text = "/" ∨ IsHeadOf a p.directory := by
  rcases List.mem_cons.1 h with rfl | h
  · exact Or.inr (directory_cases p)
  · exact above_cases _ h

end Path

end CertAuthority
