import CertAuthority.Proofs.Calendar.Date
import CertAuthority.Proofs.Files.Ancestors
import CertAuthority.Proofs.Files.Walk

/-!
# Names in a directory

A name is put below a directory by writing it after the directory's path, with
a slash between them. If that path ends in a name itself (`Path.EndsInName`),
as those of the components' directories do, nothing else happens to the two:
the path is that of the directory and one more piece, the directory it is in
is that one, and a walk along it is a walk to the directory and one more step.
So what it leads to, a link not seen through, is whatever has that name in the
directory (`Tree.locate_join`). It is in this way that two paths below one
directory are told apart by their names alone, and that a file with a fresh
name is another file than the target.

As for its components, a name adds itself to those of any directory, however
that one is spelled (`Path.components_join`). Here the path of the directory
may be empty, end in slashes or in dots, since a store may be set up at any
path at all. Names are the texts that a check of the components lets through
(`Path.isPlainSegment_iff`): not empty, neither of the two that stand for a
direction, and without a slash.

A file system sets bounds to names and to paths, and takes none with a NUL in
it. A path below a directory that keeps within them is `IsTaken`. One that
does not leads nowhere, and whatever is asked about it is refused
(`locate_join_refused`).
-/

namespace CertAuthority

namespace Path

/-! ## Names

A label is taken for a component if its text is a single plain segment. That
is the case just if it is a piece that leads somewhere and not up, and it is
pieces that walks are made of. -/

/-- **A piece that is a name**: it leads somewhere, and not up. It is what
labels and file names are checked for, and says nothing of how long a name may
be. -/
structure IsNamePiece (piece : List Char) : Prop where
  /-- It is not empty. -/
  ne_nil : piece ≠ []
  /-- It does not stay where it is. -/
  ne_dot : piece ≠ ['.']
  /-- It does not go up. -/
  ne_up : piece ≠ ['.', '.']
  /-- It is one piece. -/
  slash : '/' ∉ piece

/-- A piece that is a component with a name is neither idle nor a step up, and
has that name. -/
theorem component?_eq_normal {piece : List Char} {n : String}
    (h : component? piece = some (.normal n)) :
    isIdle piece = false ∧ piece ≠ ['.', '.'] ∧ n = String.ofList piece := by
  unfold component? at h
  split_ifs at h with hidle hup
  · cases h
  · cases h
    exact ⟨Bool.eq_false_of_not_eq_true hidle, hup, rfl⟩

/-- A piece that is a name is the component of that name. -/
theorem component?_name {piece : List Char} (h : IsNamePiece piece) :
    component? piece = some (.normal (String.ofList piece)) := by
  have hidle : ¬ isIdle piece = true := by
    unfold isIdle
    rw [Bool.or_eq_true, beq_iff_eq, beq_iff_eq, not_or]
    exact ⟨h.ne_nil, h.ne_dot⟩
  unfold component?
  rw [if_neg hidle, if_neg h.ne_up]

/-- Every name among the components of a text comes from a piece of it. -/
theorem exists_piece_of_mem_componentsOf {s : List Char} {n : String}
    (h : Component.normal n ∈ componentsOf s) :
    ∃ piece ∈ pieces s, component? piece = some (.normal n) := by
  unfold componentsOf at h
  cases hp : pieces s with
  | nil =>
    rw [hp] at h
    cases h
  | cons first others =>
    rw [hp] at h
    have hlater : Component.normal n ∈ others.filterMap component? →
        ∃ piece ∈ first :: others, component? piece = some (.normal n) := by
      intro hmem
      obtain ⟨piece, hpiece, hcomponent⟩ := List.mem_filterMap.1 hmem
      exact ⟨piece, List.mem_cons_of_mem _ hpiece, hcomponent⟩
    dsimp only at h
    split_ifs at h
    · rcases List.mem_cons.1 h with hcurrent | hmem
      · cases hcurrent
      · exact hlater hmem
    · cases h
    · rcases List.mem_cons.1 h with hroot | hmem
      · cases hroot
      · exact hlater hmem
    · rcases List.mem_append.1 h with hfirst | hmem
      · exact ⟨first, List.mem_cons_self, Option.mem_toList.1 hfirst⟩
      · exact hlater hmem

/-- A name among the components of a text is the piece that it is written as,
and has what pieces that are names have. -/
theorem isNamePiece_of_mem_componentsOf {s : List Char} {n : String}
    (h : Component.normal n ∈ componentsOf s) : IsNamePiece n.toList := by
  obtain ⟨piece, hpiece, hcomponent⟩ := exists_piece_of_mem_componentsOf h
  obtain ⟨hidle, hup, rfl⟩ := component?_eq_normal hcomponent
  rw [String.toList_ofList]
  refine ⟨?_, ?_, hup, slash_not_mem_of_mem_pieces hpiece⟩
  · rintro rfl
    cases hidle
  · rintro rfl
    cases hidle

/-- **A single plain segment is a name.** -/
theorem IsPlainSegment.isNamePiece {s : String} (h : IsPlainSegment s) : IsNamePiece s.toList := by
  refine isNamePiece_of_mem_componentsOf (s := s.toList) ?_
  rw [show componentsOf s.toList = [.normal s] from h]
  exact List.mem_singleton_self _

/-- Pieces that end in a name have nothing idle at the end. -/
theorem trimIdle_append_name (ps : List (List Char)) {piece : List Char} (h : IsNamePiece piece) :
    trimIdle (ps ++ [piece]) = ps ++ [piece] := by
  have hidle : ¬ isIdle piece = true := by
    unfold isIdle
    rw [Bool.or_eq_true, beq_iff_eq, beq_iff_eq, not_or]
    exact ⟨h.ne_nil, h.ne_dot⟩
  cases ps with
  | nil => rfl
  | cons first others =>
    rw [List.cons_append, trimIdle, List.reverse_append, List.reverse_singleton,
      List.singleton_append, List.dropWhile_cons_of_neg hidle, List.reverse_cons,
      List.reverse_reverse]

/-! ## Below a directory -/

/-- A text is made of its pieces, with slashes between them. -/
theorem joinPieces_pieces (s : List Char) : joinPieces (pieces s) = String.ofList s := by
  have hmap : ((pieces s).map String.ofList).map String.toList = pieces s := by
    rw [List.map_map]
    exact (List.map_congr_left fun p _ => String.toList_ofList).trans (List.map_id _)
  rw [← String.toList_inj, joinPieces, String.toList_intercalate, hmap, pieces_eq_splitOn]
  exact (List.intercalate_splitOn '/').trans String.toList_ofList.symm

theorem pieces_append_slash (a b : List Char) : pieces (a ++ '/' :: b) = pieces a ++ pieces b := by
  rw [pieces_eq_splitOn, pieces_eq_splitOn, pieces_eq_splitOn, List.splitOn_append_cons_self]

theorem pieces_name {piece : List Char} (h : IsNamePiece piece) : pieces piece = [piece] := by
  rw [pieces_eq_splitOn]
  exact List.splitOn_eq_singleton h.slash

/-- **A path whose last piece is a name.** There is no slash after it and no
dot, so that what is written behind a slash is put below it and nowhere else. -/
def EndsInName (p : Path) : Prop :=
  ∃ ps piece, pieces p.text.toList = ps ++ [piece] ∧ IsNamePiece piece

namespace EndsInName

variable {d : Path}

/-- Such a path has a text, which does not end in a slash. -/
theorem getLast?_text (h : EndsInName d) : ∃ c, d.text.toList.getLast? = some c ∧ c ≠ '/' := by
  obtain ⟨ps, piece, hpieces, hname⟩ := h
  cases hlast : d.text.toList.getLast? with
  | none =>
    rw [List.getLast?_eq_none_iff.1 hlast] at hpieces
    have hempty := congrArg List.getLast? hpieces
    rw [List.getLast?_concat] at hempty
    exact absurd (Option.some.inj hempty).symm hname.ne_nil
  | some c =>
    refine ⟨c, rfl, ?_⟩
    rintro rfl
    obtain ⟨s, hs⟩ := List.getLast?_eq_some_iff.1 hlast
    have hempty := getLast?_pieces_append s
    rw [← hs, hpieces, List.getLast?_concat] at hempty
    exact hname.ne_nil (Option.some.inj hempty)

/-- Its pieces are its own first ones, and none of them is spare. -/
theorem isHeadOf (h : EndsInName d) : IsHeadOf d d := by
  obtain ⟨ps, piece, hpieces, hname⟩ := h
  refine ⟨List.prefix_refl _, ?_⟩
  rw [hpieces, List.getLast?_concat]
  exact fun hempty => hname.ne_nil (Option.some.inj hempty)

end EndsInName

theorem isAbsolute_name {n : String} (hn : IsNamePiece n.toList) :
    (⟨n⟩ : Path).isAbsolute = false := by
  rw [← Bool.not_eq_true]
  intro habsolute
  obtain ⟨others, -, hothers⟩ := (isAbsolute_iff ⟨n⟩).1 habsolute
  rw [show pieces (Path.mk n).text.toList = [n.toList] from pieces_name hn] at hothers
  exact hn.ne_nil (List.head_eq_of_cons_eq hothers)

/-- **The pieces of a name below any directory** are those of the directory
and the name. A slash at the end of the directory's path is the one between
the two, and a directory without a text has no piece of its own. -/
theorem pieces_join_cases (base : Path) {n : String} (hn : IsNamePiece n.toList) :
    (base.text ≠ "" ∧ pieces (base.join ⟨n⟩).text.toList = pieces base.text.toList ++ [n.toList])
      ∨ ∃ ps, pieces base.text.toList = ps ++ [[]]
        ∧ pieces (base.join ⟨n⟩).text.toList = ps ++ [n.toList] := by
  unfold join
  rw [if_neg (by rw [isAbsolute_name hn]; decide)]
  -- A slash is put between the two texts unless the first one is empty or ends in one.
  cases hlast : base.text.toList.getLast? with
  | none =>
    refine Or.inr ⟨[], ?_, pieces_name hn⟩
    rw [List.getLast?_eq_none_iff.1 hlast]
    rfl
  | some c =>
    by_cases hc : c = '/'
    · subst hc
      obtain ⟨s, hs⟩ := List.getLast?_eq_some_iff.1 hlast
      refine Or.inr ⟨pieces s, ?_, ?_⟩
      · rw [hs, pieces_append_slash]
        rfl
      · show pieces (base.text ++ n).toList = _
        rw [String.toList_append, hs, List.append_assoc, List.singleton_append,
          pieces_append_slash, pieces_name hn]
    · have hslash : "/".toList = ['/'] := rfl
      refine Or.inl ⟨fun hempty => ?_, ?_⟩
      · rw [hempty] at hlast
        cases hlast
      · split
        · rename_i heq
          cases heq
        · rename_i heq
          exact absurd (Option.some.inj heq) hc
        · show pieces (base.text ++ "/" ++ n).toList = _
          rw [String.toList_append, String.toList_append, hslash, List.append_assoc,
            List.singleton_append, pieces_append_slash, pieces_name hn]

/-- A name below any directory is the last piece. -/
theorem endsInName_join (base : Path) {n : String} (hn : IsNamePiece n.toList) :
    EndsInName (base.join ⟨n⟩) := by
  rcases pieces_join_cases base hn with ⟨-, hpieces⟩ | ⟨ps, -, hpieces⟩
  · exact ⟨_, n.toList, hpieces, hn⟩
  · exact ⟨ps, n.toList, hpieces, hn⟩

namespace IsHeadOf

variable {d : Path} {n : String}

/-- **The pieces of a name below a directory** whose path does not end in a
slash. -/
theorem pieces_join (h : IsHeadOf d d) (hn : IsNamePiece n.toList) :
    Path.pieces (d.join ⟨n⟩).text.toList = Path.pieces d.text.toList ++ [n.toList] := by
  rcases pieces_join_cases d hn with ⟨-, hpieces⟩ | ⟨ps, hps, -⟩
  · exact hpieces
  · exact absurd (by rw [hps, List.getLast?_concat]) h.last

/-- The directory's path is the head of any path below it. -/
theorem isHeadOf_join (h : IsHeadOf d d) (hn : IsNamePiece n.toList) :
    IsHeadOf d (d.join ⟨n⟩) :=
  ⟨h.pieces_join hn ▸ List.prefix_append _ _, h.last⟩

end IsHeadOf

/-! ## Components

The components of a path leave out what is idle. So two paths with the same
components may have different texts, but a name put below each of them adds
the same component to both. -/

/-- The components of a text, by its pieces. -/
theorem componentsOf_of_pieces {s first : List Char} {others : List (List Char)}
    (h : pieces s = first :: others) :
    componentsOf s
      = if first = ['.'] then .current :: others.filterMap component?
        else if first = [] then if others = [] then [] else .root :: others.filterMap component?
        else (component? first).toList ++ others.filterMap component? := by
  rw [componentsOf, h]

/-- **A further component** is the last one, if the first piece stays what it
is. -/
theorem componentsOf_concat {s s' first : List Char} {others others' : List (List Char)}
    {c : Component} (h : pieces s = first :: others) (h' : pieces s' = first :: others')
    (hlater : others'.filterMap component? = others.filterMap component? ++ [c])
    (htop : first = [] → others ≠ []) : componentsOf s' = componentsOf s ++ [c] := by
  have hne : others' ≠ [] := by
    rintro rfl
    simp at hlater
  rw [componentsOf_of_pieces h, componentsOf_of_pieces h', hlater]
  split_ifs with hdot hempty hnone
  · rfl
  · exact absurd hnone (htop hempty)
  · rfl
  · rw [List.append_assoc]

theorem component?_toList {n : String} (hn : IsNamePiece n.toList) :
    component? n.toList = some (.normal n) := by
  rw [component?_name hn, String.ofList_toList]

/-- A name is the only component of the text that it is. -/
theorem componentsOf_name {n : String} (hn : IsNamePiece n.toList) :
    componentsOf n.toList = [.normal n] := by
  rw [componentsOf_of_pieces (pieces_name hn), if_neg hn.ne_dot, if_neg hn.ne_nil,
    component?_toList hn]
  rfl

/-- **The single plain segments are the names.** -/
theorem isPlainSegment_iff {s : String} : IsPlainSegment s ↔ IsNamePiece s.toList :=
  ⟨IsPlainSegment.isNamePiece, componentsOf_name⟩

/-- **A name below a directory is one component more**, whatever the path of
the directory looks like. -/
theorem components_join (base : Path) {n : String} (hn : IsNamePiece n.toList) :
    (base.join ⟨n⟩).components = base.components ++ [.normal n] := by
  have hname := component?_toList hn
  unfold components
  rcases pieces_join_cases base hn with ⟨hne, hjoin⟩ | ⟨ps, hbase, hjoin⟩
  · match hbase : pieces base.text.toList with
    | [] => exact absurd hbase (pieces_ne_nil _)
    | first :: others =>
      rw [hbase, List.cons_append] at hjoin
      refine componentsOf_concat hbase hjoin (by simp [hname]) ?_
      rintro rfl rfl
      -- One empty piece is what a path without a text has.
      have hempty := joinPieces_pieces base.text.toList
      rw [hbase, String.ofList_toList] at hempty
      exact hne hempty.symm
  · match ps with
    | [] =>
      rw [List.nil_append] at hbase hjoin
      rw [componentsOf_of_pieces hbase, componentsOf_of_pieces hjoin, if_neg hn.ne_dot,
        if_neg hn.ne_nil, hname]
      rfl
    | first :: others =>
      have hidle : component? [] = none := rfl
      refine componentsOf_concat hbase hjoin (by simp [hname, hidle]) ?_
      simp

/-- The name of a path below a directory is that name. -/
theorem fileName?_join (base : Path) {n : String} (hn : IsNamePiece n.toList) :
    (base.join ⟨n⟩).fileName? = some n := by
  rw [fileName?, components_join base hn, List.getLast?_concat]

section Join

variable {d : Path} {n : String} (hd : EndsInName d) (hn : IsNamePiece n.toList)
include hd hn

/-- **The path above a path below a directory** is the directory's. -/
theorem parent?_join : (d.join ⟨n⟩).parent? = some d := by
  have hpieces := hd.isHeadOf.pieces_join hn
  have htrim := trimIdle_append_name (pieces d.text.toList) hn
  unfold parent?
  rw [hpieces, htrim]
  obtain ⟨ps, piece, hps, hname⟩ := hd
  have hjoin : joinPieces (ps ++ [piece]) = d.text := by
    rw [← hps, joinPieces_pieces, String.ofList_toList]
  have hdrop : (pieces d.text.toList ++ [n.toList]).dropLast = ps ++ [piece] := by
    rw [List.dropLast_concat, hps]
  split
  · rename_i hnil
    exact absurd hnil (List.append_ne_nil_of_right_ne_nil _ (List.cons_ne_nil _ _))
  · rename_i first hone
    have hlength := congrArg List.length hone
    rw [hps, List.length_append, List.length_append] at hlength
    simp at hlength
  · rw [hdrop, trimIdle_append_name ps hname]
    split
    · rename_i htop
      have hempty := congrArg List.getLast? htop
      rw [List.getLast?_concat] at hempty
      exact absurd (Option.some.inj hempty) hname.ne_nil
    · rw [hjoin]

/-- **The directory of a path below a directory** is that one. -/
theorem directory_join : (d.join ⟨n⟩).directory = d := by
  have hparent := parent?_join hd hn
  obtain ⟨c, hlast, -⟩ := hd.getLast?_text
  have hne : d.text ≠ "" := by
    intro hempty
    rw [hempty] at hlast
    cases hlast
  unfold directory
  rw [hparent]
  exact if_neg hne

end Join

end Path

namespace Files.Tree

open CertAuthority.Path (EndsInName IsHeadOf IsNamePiece)

variable {t : Tree}

/-! ## One more step -/

/-- A leg that ends at a directory goes on there, and one that turns off
does so with the name still to be walked. -/
def Leg.GoesOn (t : Tree) (piece : List Char) : Leg → Leg → Prop
  | .landed (.entry d (.directory _)), m => m = t.leg false d [piece]
  | .landed _, _ => True
  | .turned d target rest, m => m = .turned d target (rest ++ [piece])

/-- **A leg with a name added goes on with it**, by induction on the leg. Links
are seen through on the way to the directory and not at the name. -/
theorem leg_concat (place : Place) (pieces : List (List Char)) (piece : List Char) :
    (t.leg true place pieces).GoesOn t piece (t.leg false place (pieces ++ [piece])) := by
  induction place, pieces using leg_induction t with
  | nil place =>
    rw [leg_nil, List.nil_append]
    cases (t.get? place).getD (.directory plainDirectoryMode) with
    | directory mode => rfl
    | file mode content => trivial
    | link target => trivial
  | dot place rest ih =>
    rw [List.cons_append, leg_dot, leg_dot]
    exact ih
  | up place rest ih =>
    rw [List.cons_append, leg_up, leg_up]
    exact ih
  | long place first rest hlong =>
    rw [hlong]
    trivial
  | absent place first rest hname hget =>
    rw [leg_absent true rest hname hget]
    split_ifs <;> trivial
  | directory place first rest mode hname hget ih =>
    rw [List.cons_append, leg_directory true rest hname hget, leg_directory false _ hname hget]
    exact ih
  | file place first rest mode content hname hget =>
    rw [leg_file true rest hname hget]
    split_ifs <;> trivial
  | link place first rest target hname hget =>
    -- The link is not at the end, since the name comes after it.
    have hne : rest ++ [piece] ≠ [] := List.append_ne_nil_of_right_ne_nil _ (List.cons_ne_nil _ _)
    rw [List.cons_append, leg_link true rest hname hget, leg_link false _ hname hget,
      if_neg (fun h => by cases h.2), if_neg (fun h => hne h.1)]
    rfl

/-- **A walk to a name in a directory** is a walk to the directory and one
more step. -/
theorem walk_concat {links : Nat} {place d : Place} {pieces : List (List Char)} {mode : Nat}
    (h : t.walk true links place pieces = .entry d (.directory mode)) (piece : List Char) {l : Landing}
    (hl : t.leg false d [piece] = .landed l) :
    t.walk false links place (pieces ++ [piece]) = l := by
  induction links, place, pieces using walk_induction t true with
  | landed links place pieces l' hl' =>
    have hgoes := leg_concat (t := t) place pieces piece
    rw [walk_of_landed hl'] at h
    rw [hl', h] at hgoes
    exact walk_of_landed (hgoes.trans hl)
  | stuck place pieces d' target rest hl' =>
    rw [walk_of_turned hl'] at h
    cases h
  | turned links place pieces d' target rest hl' ih =>
    have hgoes := leg_concat (t := t) place pieces piece
    rw [hl'] at hgoes
    rw [walk_of_turned hl'] at h
    rw [walk_of_turned hgoes, ← List.append_assoc]
    exact ih h

/-! ## Below a directory

The path of a name below a directory leads where the name leads in that
directory. It is walked as the directory's path is, with one more piece at its
end, and need not lead anywhere if the texts are too long for a file system.
-/

/-- A path to a name does not end in a slash. -/
theorem getLast?_join_ne_slash (dir : Path) {n : String} (hn : IsNamePiece n.toList) :
    (dir.join ⟨n⟩).text.toList.getLast? ≠ some '/' := by
  obtain ⟨c, hlast, hc⟩ := (Path.endsInName_join dir hn).getLast?_text
  rw [hlast]
  exact fun h => hc (Option.some.inj h)

/-- A name is not among the empty pieces, which a walk leaves out. -/
theorem filter_name {n : String} (hn : IsNamePiece n.toList) :
    [n.toList].filter (· ≠ []) = [n.toList] :=
  List.filter_cons_of_pos (decide_eq_true hn.ne_nil)

/-- **The pieces of a walk to a name below a directory**: those to the
directory, and the name. -/
theorem piecesOf_join {dir : Path} {n : String} (hdir : IsHeadOf dir dir)
    (hn : IsNamePiece n.toList) : piecesOf (dir.join ⟨n⟩) = piecesOf dir ++ [n.toList] := by
  unfold piecesOf
  dsimp only
  rw [if_neg hdir.getLast?_text, if_neg (getLast?_join_ne_slash dir hn), hdir.pieces_join hn,
    List.filter_append, filter_name hn]

/-- A path to a name is not empty, for which alone it would be refused. -/
theorem text_join_ne_empty (dir : Path) {n : String} (hn : IsNamePiece n.toList) :
    (dir.join ⟨n⟩).text ≠ "" := by
  intro hempty
  obtain ⟨c, hlast, -⟩ := (Path.endsInName_join dir hn).getLast?_text
  rw [hempty] at hlast
  cases hlast

/-- **A walk to a name below a directory** is one to the directory and one more
step. -/
theorem walk_join {dir : Path} {n : String} {d : Place} {mode : Nat} (hdir : IsHeadOf dir dir)
    (hn : IsNamePiece n.toList) (h : t.locate true dir = .entry d (.directory mode)) {l : Landing}
    (hl : t.leg false d [n.toList] = .landed l) :
    t.walk false mostLinks (startOf (dir.join ⟨n⟩) t.workingDirectory) (piecesOf (dir.join ⟨n⟩))
      = l := by
  rw [piecesOf_join hdir hn, startOf, ← (hdir.isHeadOf_join hn).isAbsolute]
  exact walk_concat (walk_of_locate h) n.toList hl

/-- **What a name in a directory leads to**, a link not seen through. -/
def under (t : Tree) (d : Place) (n : String) : Landing :=
  match t.get? (n :: d) with
  | none => .vacant d n
  | some e => .entry (n :: d) e

/-- A leg of a single name ends at what has that name. -/
theorem leg_last (place : Place) {piece : List Char} (hp : IsName piece) :
    t.leg false place [piece] = .landed (t.under place (String.ofList piece)) := by
  unfold under
  cases hget : t.get? (String.ofList piece :: place) with
  | none => rw [leg_absent false [] hp hget, if_pos rfl]
  | some e =>
    cases e with
    | link target => rw [leg_link false [] hp hget, if_pos ⟨rfl, rfl⟩]
    | directory mode => exact leg_name hp hget fun target h => by cases h
    | file mode content => exact leg_name hp hget fun target h => by cases h

/-- A path that a file system takes, and that does not end in too long a
name. -/
structure IsTaken (dir : Path) (n : String) : Prop where
  /-- There is no NUL in it. -/
  nul : hasNul (dir.join ⟨n⟩) = false
  /-- The path is not too long. -/
  path : (dir.join ⟨n⟩).text.utf8ByteSize ≤ longestPath
  /-- Nor is the name. -/
  name : n.utf8ByteSize ≤ longestName

instance (dir : Path) (n : String) : Decidable (IsTaken dir n) :=
  decidable_of_iff (hasNul (dir.join ⟨n⟩) = false
    ∧ (dir.join ⟨n⟩).text.utf8ByteSize ≤ longestPath ∧ n.utf8ByteSize ≤ longestName)
    ⟨fun h => ⟨h.1, h.2.1, h.2.2⟩, fun h => ⟨h.nul, h.path, h.name⟩⟩

section Join

variable {dir : Path} {n : String} {d : Place} {mode : Nat} (hdir : EndsInName dir)
  (hn : IsNamePiece n.toList) (h : t.locate true dir = .entry d (.directory mode))
include hdir hn h

/-- **A path below a directory** leads to what has that name there. -/
theorem locate_join (htaken : IsTaken dir n) : t.locate false (dir.join ⟨n⟩) = t.under d n := by
  have hname : IsName n.toList := by
    refine ⟨hn.ne_dot, hn.ne_up, ?_⟩
    rw [String.ofList_toList]
    exact htaken.name
  unfold locate
  rw [if_neg (by rw [htaken.nul]; decide), if_neg (text_join_ne_empty dir hn),
    if_neg (Nat.not_lt.2 htaken.path)]
  have hlast := leg_last (t := t) d hname
  rw [String.ofList_toList] at hlast
  exact walk_join hdir.isHeadOf hn h hlast

/-- A path that no file system takes leads nowhere. -/
theorem locate_join_refused (htaken : ¬ IsTaken dir n) :
    ∃ fault, t.locate false (dir.join ⟨n⟩) = .refused fault := by
  by_cases hnul : hasNul (dir.join ⟨n⟩) = true
  · exact ⟨.nulInPath, if_pos hnul⟩
  by_cases hlong : longestPath < (dir.join ⟨n⟩).text.utf8ByteSize
  · refine ⟨.nameTooLong, ?_⟩
    unfold locate
    rw [if_neg hnul, if_neg (text_join_ne_empty dir hn), if_pos hlong]
  have hname : longestName < n.utf8ByteSize := by
    by_contra hshort
    exact htaken ⟨Bool.eq_false_of_not_eq_true hnul, Nat.le_of_not_lt hlong, Nat.le_of_not_lt hshort⟩
  refine ⟨.nameTooLong, ?_⟩
  unfold locate
  rw [if_neg hnul, if_neg (text_join_ne_empty dir hn), if_neg hlong]
  refine walk_join hdir.isHeadOf hn h ?_
  rw [leg, if_neg hn.ne_dot, if_neg hn.ne_up, String.ofList_toList]
  exact if_pos hname

/-- There is nothing at it, as far as anyone can see. -/
theorem kind?_join_refused (htaken : ¬ IsTaken dir n) : t.kind? (dir.join ⟨n⟩) = none := by
  obtain ⟨fault, hfault⟩ := locate_join_refused hdir hn h htaken
  unfold kind?
  rcases locate_follow (t := t) true (dir.join ⟨n⟩) with hsame | ⟨q, target, hlink⟩
  · rw [hsame, hfault]
  · rw [hfault] at hlink
    cases hlink

end Join

end Files.Tree

end CertAuthority
