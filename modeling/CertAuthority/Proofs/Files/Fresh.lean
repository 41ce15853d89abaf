import CertAuthority.Proofs.Files.Success

/-!
# Writes to fresh paths

A path is fresh if it leads to a vacant name, in a directory that is there, and
the file system has room for a temporary file beside it (`Tree.IsFresh`). A
write to such a path succeeds, on a host that refuses nothing, whatever the
path looks like and whether or not files may be replaced
(`ends_write_fresh`), and then the path leads to the file.

The temporary file does not get in the way. It has another name, as a vacant
name is the last one of its path (`Tree.fileName?_of_locate_vacant`), and names
that are vacant stay so until something has them
(`Tree.locate_vacant_extends`).

Freshness can be computed (`isFresh_iff`), so that a tree can be tested for
it. It is a condition on the path as it is written. There is nothing at other
paths either that lead to no directory, or to a name that is too long, but no
file can be put there.
-/

namespace CertAuthority

namespace Path

/-! ## The last piece -/

/-- **The pieces of a text spell no other text.** -/
theorem pieces_inj {s s' : List Char} (h : pieces s = pieces s') : s = s' := by
  have hs := joinPieces_pieces s
  rw [h, joinPieces_pieces s'] at hs
  exact (String.ofList_inj.1 hs).symm

/-- The last piece of a text is empty only if the text is, or ends in a
slash. -/
theorem eq_nil_or_slash_of_getLast?_pieces {s : List Char} (h : (pieces s).getLast? = some []) :
    s = [] ∨ s.getLast? = some '/' := by
  obtain ⟨ps, hps⟩ := List.getLast?_eq_some_iff.1 h
  by_cases hnil : ps = []
  · subst hnil
    exact Or.inl (pieces_inj hps)
  · have hfront : pieces (joinPieces ps).toList = ps := pieces_joinPieces hnil fun piece hpiece =>
      slash_not_mem_of_mem_pieces (s := s) (hps ▸ List.mem_append_left _ hpiece)
    have hwhole : s = (joinPieces ps).toList ++ ['/'] := by
      refine pieces_inj ?_
      rw [hps, pieces_append_slash, hfront]
      rfl
    exact Or.inr (by rw [hwhole, List.getLast?_concat])

/-- The name of a path is its last piece, if that is a name. -/
theorem fileName?_of_pieces {p : Path} {ps : List (List Char)} {n : String}
    (h : pieces p.text.toList = ps ++ [n.toList]) (hn : IsNamePiece n.toList) :
    p.fileName? = some n := by
  have hlast : ∃ front, p.components = front ++ [.normal n] := by
    have hname := component?_toList hn
    unfold components
    cases ps with
    | nil =>
      rw [componentsOf_of_pieces h, if_neg hn.ne_dot, if_neg hn.ne_nil, hname]
      exact ⟨[], rfl⟩
    | cons first others =>
      rw [List.cons_append] at h
      have hlater : (others ++ [n.toList]).filterMap component?
          = others.filterMap component? ++ [.normal n] := by simp [hname]
      rw [componentsOf_of_pieces h, hlater, if_neg (List.append_ne_nil_of_right_ne_nil _ (by simp))]
      split_ifs
      · exact ⟨.current :: others.filterMap component?, rfl⟩
      · exact ⟨.root :: others.filterMap component?, rfl⟩
      · exact ⟨(component? first).toList ++ others.filterMap component?,
          (List.append_assoc _ _ _).symm⟩
  obtain ⟨front, hfront⟩ := hlast
  rw [fileName?, hfront, List.getLast?_concat]

end Path

namespace Files.Tree

open CertAuthority.Path (EndsInName IsNamePiece)

variable {t t' : Tree} {p : Path} {d : Place} {n : String}

/-! ## Vacant names

A path that leads to a vacant name ends in that name. More entries elsewhere
do not change where it leads, as long as they leave the name vacant. -/

/-- **A vacant name is the name of the path** that leads to it. -/
theorem fileName?_of_locate_vacant (h : t.locate false p = .vacant d n) :
    p.fileName? = some n := by
  unfold locate at h
  split_ifs at h with hnul hempty
  have hend := walk_isEndOf t false mostLinks (startOf p t.workingDirectory) (piecesOf p)
  rw [h] at hend
  obtain ⟨hname, hlast⟩ : IsName n.toList ∧ (piecesOf p).getLast? = some n.toList := by
    cases hend with
    | vacant absent name last => exact ⟨name, last rfl⟩
  unfold piecesOf at hlast
  dsimp only at hlast
  split_ifs at hlast with hslash
  · -- a path that ends in a slash does not end in a name
    rw [List.getLast?_concat] at hlast
    exact absurd (Option.some.inj hlast).symm hname.ne_dot
  · rcases List.eq_nil_or_concat (Path.pieces p.text.toList) with hnil | ⟨ps, piece, hps⟩
    · exact absurd hnil (Path.pieces_ne_nil _)
    rw [List.concat_eq_append] at hps
    have hpiece : (Path.pieces p.text.toList).getLast? = some piece := by
      rw [hps, List.getLast?_concat]
    have hne : piece ≠ [] := by
      rintro rfl
      rcases Path.eq_nil_or_slash_of_getLast?_pieces hpiece with hnil | hlast'
      · exact hempty (String.toList_eq_nil_iff.1 hnil)
      · exact hslash hlast'
    have hkept : [piece].filter (· ≠ []) = [piece] :=
      List.filter_cons_of_pos (decide_eq_true hne)
    rw [hps, List.filter_append, hkept, List.getLast?_concat] at hlast
    obtain rfl : piece = n.toList := Option.some.inj hlast
    have hmem : n.toList ∈ Path.pieces p.text.toList := hps ▸ List.mem_append_right _ (by simp)
    exact Path.fileName?_of_pieces hps
      ⟨hne, hname.ne_dot, hname.ne_up, Path.slash_not_mem_of_mem_pieces hmem⟩

/-- A leg that ends at a vacant name ends there in a larger tree, if the name
is vacant there. -/
theorem leg_vacant_extends (h : Extends t t') {follow : Bool} (place : Place)
    (pieces : List (List Char)) (hget : t'.get? (n :: d) = none)
    (hvacant : t.leg follow place pieces = .landed (.vacant d n)) :
    t'.leg follow place pieces = .landed (.vacant d n) := by
  -- A leg that ends at a vacant name has passed directories only, and these are in the
  -- larger tree.
  induction place, pieces using leg_induction t with
  | nil place =>
    rw [leg_nil] at hvacant
    cases hvacant
  | dot place rest ih =>
    rw [leg_dot] at hvacant ⊢
    exact ih hvacant
  | up place rest ih =>
    rw [leg_up] at hvacant ⊢
    exact ih hvacant
  | long place piece rest hlong =>
    rw [hlong] at hvacant
    cases hvacant
  | absent place piece rest hname hentry =>
    rw [leg_absent follow rest hname hentry] at hvacant
    split_ifs at hvacant with hrest <;> cases hvacant
    rw [leg_absent follow rest hname hget, if_pos hrest]
  | directory place piece rest mode hname hentry ih =>
    rw [leg_directory follow rest hname hentry] at hvacant
    rw [leg_directory follow rest hname (h.get? _ _ hentry)]
    exact ih hvacant
  | file place piece rest mode content hname hentry =>
    rw [leg_file follow rest hname hentry] at hvacant
    split_ifs at hvacant <;> cases hvacant
  | link place piece rest target hname hentry =>
    rw [leg_link follow rest hname hentry] at hvacant
    split_ifs at hvacant
    cases hvacant

theorem walk_vacant_extends (h : Extends t t') {follow : Bool} {links : Nat} {place : Place}
    {pieces : List (List Char)} (hget : t'.get? (n :: d) = none)
    (hvacant : t.walk follow links place pieces = .vacant d n) :
    t'.walk follow links place pieces = .vacant d n := by
  induction links, place, pieces using walk_induction t follow with
  | landed links place pieces l hl =>
    rw [walk_of_landed hl] at hvacant
    rw [hvacant] at hl
    exact walk_of_landed (leg_vacant_extends h place pieces hget hl)
  | stuck place pieces d' target rest hl =>
    rw [walk_of_turned hl] at hvacant
    cases hvacant
  | turned links place pieces d' target rest hl ih =>
    have hleg := leg_extends h follow place pieces
    rw [hl] at hleg
    rw [walk_of_turned hl] at hvacant
    rw [walk_of_turned hleg]
    exact ih hvacant

/-- **A path that leads to a vacant name** leads there in a larger tree, if the
name is vacant there. -/
theorem locate_vacant_extends (h : Extends t t') (hget : t'.get? (n :: d) = none)
    (hvacant : t.locate false p = .vacant d n) : t'.locate false p = .vacant d n := by
  unfold locate at hvacant ⊢
  split_ifs at hvacant ⊢
  rw [h.workingDirectory]
  exact walk_vacant_extends h hget hvacant

/-! ## Fresh paths

Nothing is at a fresh path, and a file can be written there. More is needed
for that than that there is nothing: a directory to write it in, and room for
the temporary name that the file has first. -/

/-- **A fresh path**: it leads to a vacant name, in a directory that is there,
and there is room for a temporary file. -/
structure IsFresh (t : Tree) (p : Path) : Prop where
  /-- Nothing has the name. -/
  vacant : ∃ d n, t.locate false p = .vacant d n
  /-- The directory is there. -/
  directory : ∃ d mode, t.locate true p.directory = .entry d (.directory mode)
  /-- There is room for a temporary file. -/
  temporary : ∃ x, t.createTemporary p.directory p = .ok x

/-- Whether a path is fresh. -/
def isFresh (t : Tree) (p : Path) : Bool :=
  match t.locate false p, t.locate true p.directory, t.createTemporary p.directory p with
  | .vacant .., .entry _ (.directory _), .ok _ => true
  | _, _, _ => false

theorem isFresh_iff : t.isFresh p = true ↔ t.IsFresh p := by
  unfold isFresh
  constructor
  · intro h
    split at h
    · rename_i hvacant hdirectory htemporary
      exact ⟨⟨_, _, hvacant⟩, ⟨_, _, hdirectory⟩, ⟨_, htemporary⟩⟩
    · cases h
  · rintro ⟨⟨d, n, hvacant⟩, ⟨d', mode, hdirectory⟩, ⟨x, htemporary⟩⟩
    rw [hvacant, hdirectory, htemporary]

/-- A path that leads to a vacant name leads to nothing. -/
theorem kind?_of_vacant (h : t.locate false p = .vacant d n) : t.kind? p = none := by
  unfold kind?
  rcases locate_follow (t := t) true p with heq | ⟨q, target, hlink⟩
  · rw [heq, h]
  · rw [h] at hlink
    cases hlink

/-- A temporary file for a path has another name. -/
theorem ne_of_createTemporary {temporary : Path} {d' : Place} {n' : String} {tree : Tree}
    (h : t.locate false p = .vacant d n)
    (hmade : t.createTemporary p.directory p = .ok (temporary, tree))
    (hvacant : t.locate false temporary = .vacant d' n') : n' ≠ n := by
  have hname := fileName?_of_locate_vacant h
  have hname' := fileName?_of_locate_vacant hvacant
  unfold createTemporary at hmade
  split at hmade
  · split at hmade
    · cases hmade
    · rename_i fresh hfresh
      dsimp only at hmade
      split_ifs at hmade
      obtain ⟨hother, hpiece⟩ := freshName?_eq_some hfresh
      cases hfile : t.createFile (p.directory.join ⟨fresh⟩) temporaryMode with
      | error fault =>
        rw [hfile] at hmade
        cases hmade
      | ok made =>
        rw [hfile] at hmade
        cases hmade
        rw [Path.fileName?_join _ hpiece] at hname'
        rintro rfl
        exact hother (hname'.trans hname.symm)
  · cases hmade
  · cases hmade
  · cases hmade

/-- **A temporary file can be given a vacant name.** -/
theorem settles_vacant {temporary : Path} {d' : Place} {n' : String} {m : Nat} {content : Bytes}
    (h : t.locate false p = .vacant d n) (hvacant : t.locate false temporary = .vacant d' n')
    (hne : n' ≠ n) (writeMode : WriteMode) :
    (t.set (n' :: d') (.file m content)).Settles temporary p writeMode := by
  have hplace : n :: d ≠ n' :: d' := fun heq => hne (List.head_eq_of_cons_eq heq).symm
  have hleads : (t.set (n' :: d') (.file m content)).locate false p = .vacant d n := by
    refine locate_vacant_extends (extends_set _ (get?_of_locate_vacant hvacant)) ?_ h
    rw [get?_set_ne _ _ hplace]
    exact get?_of_locate_vacant h
  cases writeMode with
  | createNew =>
    unfold Settles moveNew
    rw [movable_temporary hvacant]
    dsimp only [bind, Except.bind]
    rw [hleads]
    exact ⟨_, rfl⟩
  | overwrite =>
    have hnul : hasNul p = false := by
      rw [← Bool.not_eq_true]
      intro hnul
      unfold locate at h
      rw [if_pos hnul] at h
      cases h
    unfold Settles replace
    rw [if_neg (by rw [hnul]; decide), movable_temporary hvacant]
    dsimp only [bind, Except.bind]
    rw [hleads]
    exact ⟨_, rfl⟩

/-- **A path leads to a private file** at a place, whether or not links are
seen through. -/
def LeadsToPrivate (t : Tree) (p : Path) (q : Place) (content : Bytes) : Prop :=
  ∀ follow, t.locate follow p = .entry q (.file privateFileMode content)

/-- A path that leads to a file leads to it whether or not links are seen
through. -/
theorem LeadsToPrivate.of_locate {q : Place} {content : Bytes}
    (h : t.locate false p = .entry q (.file privateFileMode content)) :
    t.LeadsToPrivate p q content := by
  intro follow
  rcases locate_follow (t := t) follow p with heq | ⟨q', target, hlink⟩
  · exact heq.trans h
  · rw [h] at hlink
    cases hlink

theorem LeadsToPrivate.read {q : Place} {content : Bytes} (h : t.LeadsToPrivate p q content) :
    t.read p = .ok content := by
  unfold Tree.read
  rw [h true]

end Files.Tree

namespace Files

variable {h : Host} {path : Path} {content : Bytes} {writeMode : WriteMode} {t made t' : Tree}
  {q d : Place} {n : String}

/-! ## Writes -/

/-- **Where a file was written at a vacant name** there is the file. -/
theorem Written.leadsToPrivate (hwritten : Written path content writeMode t made t' q)
    (hvacant : t.locate false path = .vacant d n) :
    q = n :: d ∧ t'.LeadsToPrivate path q content := by
  have hnone := Tree.get?_of_locate_vacant hvacant
  have hplace : q = n :: d := by
    rcases hwritten.way.get? (n :: d) with heq | ⟨-, hmade, -⟩
    · have hleads := hwritten.leads
      rw [Tree.locate_vacant_extends hwritten.way.toExtends (heq.trans hnone) hvacant] at hleads
      exact (Option.some.inj hleads).symm
    · -- no directory is made where the file is to go
      have hleads := Tree.locate_extends hwritten.way.toExtends false path
      rw [hvacant] at hleads
      have hentry := Tree.Leg.landed.inj (hleads _ hmade fun target hlink => by cases hlink)
      have hsame := hwritten.leads
      rw [hentry] at hsame
      obtain rfl := Option.some.inj hsame
      exact absurd hmade (hwritten.notDirectory _)
  subst hplace
  refine ⟨rfl, .of_locate ?_⟩
  have hleads := Tree.locate_extends (hwritten.toExtends hnone) false path
  rw [hvacant] at hleads
  exact Tree.Leg.landed.inj (hleads _ hwritten.moved.self fun target hlink => by cases hlink)

/-- **A write to a fresh path succeeds**, on a host that refuses nothing. -/
theorem ends_write_fresh (hobliging : h.Obliging) (hfresh : h.tree.IsFresh path) (content : Bytes)
    (writeMode : WriteMode) :
    (write path content writeMode).run.Ends h fun r h' =>
      r = .ok () ∧ ∃ q, h'.tree.LeadsToPrivate path q content := by
  obtain ⟨⟨d, n, hvacant⟩, ⟨d', mode, hthere⟩, ⟨⟨temporary, tree⟩, hmade⟩⟩ := hfresh
  obtain ⟨-, d'', n', htemporary, -⟩ := Tree.vacant_createTemporary hmade
  have hne := Tree.ne_of_createTemporary hvacant hmade htemporary
  have hsucceeds := (ends_write_there hobliging hthere content writeMode).mono fun r h' hr =>
    hr.2 ⟨fun _ => Tree.kind?_of_vacant hvacant, temporary, tree, d'', n', hmade, htemporary,
      Tree.settles_vacant hvacant htemporary hne writeMode⟩
  refine (hsucceeds.and (ends_write h path content writeMode)).mono fun r h' hr => ?_
  obtain ⟨⟨u, rfl⟩, made, q, hwritten⟩ := hr
  exact ⟨rfl, q, (hwritten.leadsToPrivate hvacant).2⟩

end Files

end CertAuthority
