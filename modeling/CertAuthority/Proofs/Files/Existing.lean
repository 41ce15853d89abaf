import CertAuthority.Proofs.Files.Fresh
import Mathlib.Data.List.Nodup

/-!
# Writes that find a file in the way

A write that fails because a file exists has come upon an entry, and this module
tells which one. The file system says that something exists when it is asked to
make a directory where there is an entry, or to give a file a new name that an
entry has, and at no other time (`Tree.makeDirectory_eq_exists_iff`,
`Tree.moveNew_eq_exists_iff`): no walk ends so (`Tree.locate_ne_exists`), and
there is always a name for a temporary file (`Tree.exists_freshName?`).

So where the directory of the target is there, the error is about the target,
and there is an entry of any kind, which was not to be replaced. Where the
directory is missing the error may be about the directory: on the way to it
there is an entry that is none (`Tree.IsBlocked`), a file or a link to nowhere,
and whether files may be replaced makes no difference.
`TellsExisting` says all of this of a write, and `ends_write_existing` that it
is so on every host that refuses nothing.
-/

namespace CertAuthority

/-- A fault is told as one of a file that exists if something exists, and then
it is about the path that was asked for. -/
theorem Error.ofFault_eq_fileAlreadyExists_iff {path p : Path} {fault : Files.Fault} :
    Error.ofFault path fault = .fileAlreadyExists p ↔ fault = .alreadyExists ∧ p = path := by
  unfold Error.ofFault
  split_ifs with hmissing hexists
  · subst hmissing
    exact iff_of_false (fun h => by cases h) fun h => absurd h.1 (by decide)
  · refine ⟨fun h => ?_, fun h => by rw [h.2]⟩
    cases h
    exact ⟨hexists, rfl⟩
  · exact iff_of_false (fun h => by cases h) fun h => hexists h.1

namespace Files

open CertAuthority.Path (IsHeadOf IsNamePiece)
open Program (request)

namespace Tree

variable {t t' made : Tree} {p path dir temporary : Path} {d : Place} {n : String}
  {mode : Nat} {content : Bytes}

/-! ## What walks are refused for -/

/-- **No walk is refused because something exists.** -/
theorem locate_ne_exists (follow : Bool) (p : Path) :
    t.locate follow p ≠ .refused .alreadyExists := by
  intro h
  have hend := locate_isEndOf t follow p
  rw [h] at hend
  cases hend with
  | refused ne => exact ne rfl

/-- **Whether there is an entry of any kind where a path leads**; a link at its
end is one itself. -/
def HasEntry (t : Tree) (p : Path) : Prop := ∃ q e, t.locate false p = .entry q e

theorem HasEntry.mono (h : t.HasEntry p) (hext : Extends t t') : t'.HasEntry p := by
  obtain ⟨q, e, he⟩ := h
  have hleads := locate_extends hext false p
  rw [he] at hleads
  obtain ⟨e', he'⟩ := hleads
  exact ⟨q, e', Leg.landed.inj he'⟩

/-- What can be seen through links is there. -/
theorem hasEntry_of_kind? (h : t.kind? p ≠ none) : t.HasEntry p := by
  rcases locate_follow (t := t) true p with heq | ⟨q, target, hlink⟩
  · unfold kind? at h
    rw [heq] at h
    cases hend : t.locate false p with
    | entry q e => exact ⟨q, e, hend⟩
    | vacant d n =>
      rw [hend] at h
      exact absurd rfl h
    | refused fault =>
      rw [hend] at h
      exact absurd rfl h
  · exact ⟨q, _, hlink⟩

/-! ## Directories -/

/-- **A directory is not made because something exists** just when there is an
entry. -/
theorem makeDirectory_eq_exists_iff :
    t.makeDirectory p mode = .error .alreadyExists ↔ t.HasEntry (withoutTrailingSlashes p) := by
  unfold makeDirectory HasEntry
  cases hend : t.locate false (withoutTrailingSlashes p) with
  | entry q e => exact iff_of_true rfl ⟨q, e, rfl⟩
  | vacant d n => exact iff_of_false (fun h => by cases h) fun ⟨q, e, h⟩ => by cases h
  | refused fault =>
    refine iff_of_false (fun h => ?_) fun ⟨q, e, h⟩ => by cases h
    cases h
    exact locate_ne_exists false _ hend

/-- **A path on the way to a directory at which there is something else**: a
file, or a link that leads to no directory. -/
structure IsBlocked (t : Tree) (p : Path) : Prop where
  /-- There is an entry. -/
  entry : t.HasEntry (withoutTrailingSlashes p)
  /-- There is no directory. -/
  other : t.kind? p ≠ some .directory

/-! ## Temporary files

The numbers of temporary files are tried one after another, and there are more
of them than there are entries in the tree. So a name that is free is found
before they run out, and that something exists is never an error of a
temporary file. -/

/-- The number of a temporary file can be read off its name. -/
theorem temporaryName_injective : Function.Injective temporaryName := by
  have hnumber : ∀ k, Nat.ofDigitChars 10 ((temporaryName k).toList.drop 4) 0 = k := by
    intro k
    unfold temporaryName
    rw [String.toList_append]
    exact Calendar.ofDigitChars_padded 6 k
  intro k k' h
  rw [← hnumber k, h, hnumber k']

/-- **There is always a name for a temporary file**: there are three more to try
than there are entries. One may be the target's, and one that of the working
directory. -/
theorem exists_freshName? (t : Tree) (d : Place) (taken : Option String) :
    ∃ n, t.freshName? d taken = some n := by
  rw [← Option.isSome_iff_exists, freshName?, List.find?_isSome]
  by_contra hnone
  have hused : (List.range (t.entries.length + 3)).map temporaryName
      ⊆ taken.toList ++ t.workingDirectory.take 1 ++ t.entries.map fun x => x.1.headD "" := by
    intro name hname
    by_contra hfree
    rw [List.mem_append, List.mem_append, not_or, not_or] at hfree
    obtain ⟨⟨htaken, hworking⟩, hentries⟩ := hfree
    refine hnone ⟨name, hname, decide_eq_true ⟨fun h => ?_, ?_⟩⟩
    · rw [← h] at htaken
      exact htaken List.mem_cons_self
    · rw [get?, Option.or_eq_none_iff, List.lookup_eq_none_iff]
      refine ⟨fun x hx => bne_iff_ne.2 fun h => hentries ?_, if_neg ?_⟩
      · exact List.mem_map.2 ⟨x, hx, by rw [← h]; rfl⟩
      · rintro (h | h)
        · cases h
        · rw [← h] at hworking
          exact hworking List.mem_cons_self
  have hnodup : ((List.range (t.entries.length + 3)).map temporaryName).Nodup :=
    List.Nodup.map temporaryName_injective List.nodup_range
  have hle := hnodup.length_le_of_subset hused
  simp only [List.length_append, List.length_map, List.length_range, List.length_take] at hle
  have htaken : taken.toList.length ≤ 1 := by cases taken <;> simp
  omega

/-- A name below the top is all there is to be walked. -/
theorem walk_join_top (h : t.locate true ⟨"/"⟩ = .entry d (.directory mode))
    (hn : IsNamePiece n.toList) {l : Landing} (hl : t.leg false d [n.toList] = .landed l) :
    t.walk false mostLinks (startOf (Path.join ⟨"/"⟩ ⟨n⟩) t.workingDirectory)
      (piecesOf (Path.join ⟨"/"⟩ ⟨n⟩)) = l := by
  have hwalk : t.walk true mostLinks [] [['.']] = .entry d (.directory mode) := walk_of_locate h
  rw [walk_of_landed (leg_dot t true [] [])] at hwalk
  obtain ⟨rfl, -⟩ := Landing.entry.inj hwalk
  have hjoin : (Path.join ⟨"/"⟩ ⟨n⟩).text.toList = '/' :: n.toList := by
    rw [Path.join, if_neg (by rw [Path.isAbsolute_name hn]; decide)]
    exact String.toList_append
  have hpieces : Path.pieces ('/' :: n.toList) = [[], n.toList] := by
    rw [Path.pieces, Path.pieces_name hn]
  have hpiecesOf : piecesOf (Path.join ⟨"/"⟩ ⟨n⟩) = [n.toList] := by
    unfold piecesOf
    dsimp only
    rw [if_neg (getLast?_join_ne_slash ⟨"/"⟩ hn), hjoin, hpieces,
      List.filter_cons_of_neg (by simp), filter_name hn]
  have hstart : startOf (Path.join ⟨"/"⟩ ⟨n⟩) t.workingDirectory = [] :=
    if_pos (by rw [Path.isAbsolute, hjoin]; rfl)
  rw [hpiecesOf, hstart]
  exact walk_of_landed hl

/-- A name that nothing has, in the directory a path is in, is no entry. -/
theorem not_hasEntry_join (h : t.locate true p.directory = .entry d (.directory mode))
    (hn : IsNamePiece n.toList) (hget : t.get? (n :: d) = none) :
    ¬ t.HasEntry (p.directory.join ⟨n⟩) := by
  rintro ⟨q, e, he⟩
  have hl : ∃ l, t.leg false d [n.toList] = .landed l ∧ l ≠ .entry q e := by
    rcases leg_cons_cases n.toList with hdot | hup | hlong | hname
    · exact absurd hdot hn.ne_dot
    · exact absurd hup hn.ne_up
    · exact ⟨_, hlong t false d [], fun h => by cases h⟩
    · refine ⟨_, leg_last d hname, ?_⟩
      rw [String.ofList_toList, under, hget]
      exact fun h => by cases h
  obtain ⟨l, hl, hne⟩ := hl
  have hwalk : t.walk false mostLinks (startOf (p.directory.join ⟨n⟩) t.workingDirectory)
      (piecesOf (p.directory.join ⟨n⟩)) = l := by
    rcases Path.directory_cases p with htop | hhead
    · have hdir : p.directory = ⟨"/"⟩ := congrArg Path.mk htop
      rw [hdir] at h ⊢
      exact walk_join_top h hn hl
    · exact walk_join hhead hn h hl
  unfold locate at he
  split_ifs at he
  exact hne (hwalk.symm.trans he)

/-- **A temporary file is never refused because something exists.** -/
theorem createTemporary_ne_exists (t : Tree) (p : Path) :
    t.createTemporary p.directory p ≠ .error .alreadyExists := by
  unfold createTemporary
  split
  · rename_i d mode hd
    obtain ⟨n, hn⟩ := exists_freshName? t d p.fileName?
    rw [hn]
    dsimp only
    split_ifs
    · exact fun h => by cases h
    · have hnot : ¬ t.HasEntry (p.directory.join ⟨n⟩) := by
        exact not_hasEntry_join hd (freshName?_eq_some hn).2 (get?_freshName? hn)
      unfold createFile
      cases hend : t.locate false (p.directory.join ⟨n⟩) with
      | entry q e => exact absurd ⟨q, e, hend⟩ hnot
      | vacant d' n' => exact fun h => by cases h
      | refused fault =>
        rintro h
        cases h
        exact locate_ne_exists false _ hend
  · exact fun h => by cases h
  · exact fun h => by cases h
  · rename_i fault hend
    rintro h
    cases h
    exact locate_ne_exists true _ hend

/-- What there is beside a temporary file was there before it. -/
theorem hasEntry_set_temporary {tree : Tree}
    (hmade : t.createTemporary p.directory p = .ok (temporary, tree))
    (hvacant : t.locate false temporary = .vacant d n) :
    (t.set (n :: d) (.file mode content)).HasEntry p ↔ t.HasEntry p := by
  have hget := get?_of_locate_vacant hvacant
  have hext := extends_set (.file mode content) hget
  refine ⟨fun h => ?_, fun h => h.mono hext⟩
  obtain ⟨q, e, he⟩ := h
  cases hend : t.locate false p with
  | entry q' e' => exact ⟨q', e', hend⟩
  | vacant d' n' =>
    have hne := ne_of_createTemporary hend hmade hvacant
    have hplace : n' :: d' ≠ n :: d := fun heq => hne (List.head_eq_of_cons_eq heq).symm
    have hstill := locate_vacant_extends hext
      ((get?_set_ne t _ hplace).trans (get?_of_locate_vacant hend)) hend
    rw [hstill] at he
    cases he
  | refused fault =>
    have hplace := place?_locate_set_file hget mode content false p
    rw [hend, he] at hplace
    cases hplace

/-! ## New names -/

/-- A file is not kept from being moved because something exists. -/
theorem movable_ne_exists (t : Tree) (p : Path) : t.movable p ≠ .error .alreadyExists := by
  unfold movable
  cases hend : t.locate false p with
  | entry q e => cases e <;> exact fun h => by cases h
  | vacant d n => exact fun h => by cases h
  | refused fault =>
    rintro h
    cases h
    exact locate_ne_exists false _ hend

/-- **No file is kept from replacing another** because that exists. -/
theorem replace_ne_exists (t : Tree) (source target : Path) :
    t.replace source target ≠ .error .alreadyExists := by
  unfold replace
  split_ifs
  · exact fun h => by cases h
  cases hmovable : t.movable source with
  | error fault =>
    rintro h
    cases h
    exact movable_ne_exists t source hmovable
  | ok x =>
    cases hend : t.locate false target with
    | entry q e =>
      dsimp only [bind, Except.bind]
      cases e <;> exact fun h => by cases h
    | vacant d n =>
      dsimp only [bind, Except.bind]
      exact fun h => by cases h
    | refused fault =>
      dsimp only [bind, Except.bind]
      rintro h
      cases h
      exact locate_ne_exists false _ hend

/-- **A temporary file does not get a new name because that exists** just when
there is an entry that has it. -/
theorem moveNew_eq_exists_iff (hvacant : t.locate false temporary = .vacant d n) :
    (t.set (n :: d) (.file mode content)).moveNew temporary p = .error .alreadyExists
      ↔ (t.set (n :: d) (.file mode content)).HasEntry p := by
  unfold moveNew HasEntry
  rw [movable_temporary hvacant]
  dsimp only [bind, Except.bind]
  cases hend : (t.set (n :: d) (.file mode content)).locate false p with
  | entry q e => exact iff_of_true rfl ⟨q, e, rfl⟩
  | vacant d' n' => exact iff_of_false (fun h => by cases h) fun ⟨q, e, h⟩ => by cases h
  | refused fault =>
    refine iff_of_false (fun h => ?_) fun ⟨q, e, h⟩ => by cases h
    cases h
    exact locate_ne_exists false _ hend

end Tree

/-! ## The directory

Directories are tried from the lowest one on, and the makers turn to the path
above where something is missing. Something that exists and is no directory
puts an end to this. The error is then about the directory of the target,
wherever on the way it was. -/

variable {h : Host} {path dir temporary : Path} {p a : Path} {content : Bytes}
  {writeMode : WriteMode}

/-- **A request to make a directory** ends as the tree has it, on a host that
refuses nothing. -/
theorem ends_makeDirectory (hobliging : h.Obliging) (p : Path) (mode : Nat) :
    (request (.makeDirectory p mode)).Ends h fun r h' => h'.refuses = h.refuses ∧
      match r with
      | .ok _ => h.tree.makeDirectory p mode = .ok h'.tree
      | .error fault => h.tree.makeDirectory p mode = .error fault ∧ h'.tree = h.tree := by
  have hend : (request (.makeDirectory p mode)).Ends h
      (h.Changed _ fun t => (t.makeDirectory p mode).map ((), ·)) := h.changed_change _ _
  refine hend.mono fun r h' hr => ⟨hr.refuses, ?_⟩
  cases r with
  | ok u => exact hr.only u rfl
  | error fault => exact ⟨hr.fault_only hobliging, (hr.error fault rfl).1⟩

/-- A directory that could not be made may be there. -/
theorem ends_unlessDirectory (hobliging : h.Obliging) (p : Path) (fault : Fault) :
    (do return if ← isDirectory p then .ok () else .error fault :
        Program (Except Fault Unit)).Ends h fun r h' =>
      r = (if h.tree.kind? p = some .directory then .ok () else .error fault)
        ∧ h'.tree = h.tree ∧ h'.refuses = h.refuses := by
  refine (ends_isDirectory hobliging p).bind fun found h' hr => ?_
  obtain ⟨rfl, htree, hrefuses⟩ := hr
  refine ⟨?_, htree, hrefuses⟩
  by_cases hkind : h.tree.kind? p = some .directory
  · rw [if_pos hkind, decide_eq_true hkind]
    rfl
  · rw [if_neg hkind, decide_eq_false hkind]
    rfl

/-- What is in the way of a directory is told from the fault, as it is when all
else has been made. -/
theorem isBlocked_of_unlessDirectory {mode : Nat} {t' : Tree} {fault : Fault}
    (hmake : h.tree.makeDirectory p mode = .error fault)
    (hr : (if h.tree.kind? p = some .directory then .ok () else .error fault : Except Fault Unit)
      = .error .alreadyExists) (htree : t' = h.tree) : t'.IsBlocked p := by
  subst htree
  split_ifs at hr with hkind
  cases hr
  exact ⟨Tree.makeDirectory_eq_exists_iff.1 hmake, hkind⟩

/-- A directory that cannot be made because something exists is blocked by it.
-/
theorem ends_makeOne_exists (hobliging : h.Obliging) (p : Path) :
    (makeOne p).Ends h fun r h' => r = .error .alreadyExists → h'.tree.IsBlocked p := by
  unfold makeOne
  refine (ends_makeDirectory hobliging p privateDirectoryMode).bind fun r h₁ hr => ?_
  obtain ⟨hrefuses₁, hr⟩ := hr
  cases r with
  | ok u => exact fun h => by cases h
  | error fault =>
    obtain ⟨hmake, htree₁⟩ := hr
    refine (ends_unlessDirectory (hobliging.of_refuses hrefuses₁) p fault).mono fun r h' hr hexists => ?_
    obtain ⟨rfl, htree, -⟩ := hr
    rw [← htree₁] at hmake
    exact isBlocked_of_unlessDirectory hmake hexists htree

/-- **If directories cannot be made because something exists**, it is something
on the way that is none. -/
theorem ends_makeAll_exists (hobliging : h.Obliging) (ps : List Path) :
    (makeAll ps).Ends h fun r h' =>
      r = .error .alreadyExists → ∃ a ∈ ps, h'.tree.IsBlocked a := by
  -- Either it is this path that is blocked, or the makers went on to those above.
  induction ps generalizing h with
  | nil => exact fun h => by cases h
  | cons p above ih =>
    rw [makeAll]
    split_ifs
    · exact fun h => by cases h
    refine (ends_makeDirectory hobliging p privateDirectoryMode).bind fun r h₁ hr => ?_
    obtain ⟨hrefuses₁, hr⟩ := hr
    have hobliging₁ : h₁.Obliging := hobliging.of_refuses hrefuses₁
    cases r with
    | ok u => exact fun h => by cases h
    | error fault =>
      obtain ⟨hmake, htree₁⟩ := hr
      show Program.Ends (if fault = .notFound then _ else _) h₁ _
      split_ifs
      · refine (ih hobliging₁).refuses.bind fun r h₂ hr => ?_
        obtain ⟨hr, hrefuses₂⟩ := hr
        cases r with
        | ok u =>
          exact (ends_makeOne_exists (hobliging₁.of_refuses hrefuses₂) p).mono fun r h' hr hexists =>
            ⟨p, List.mem_cons_self, hr hexists⟩
        | error fault' =>
          intro hexists
          obtain ⟨a, ha, hblocked⟩ := hr hexists
          exact ⟨a, List.mem_cons_of_mem p ha, hblocked⟩
      · refine (ends_unlessDirectory hobliging₁ p fault).mono fun r h' hr hexists => ?_
        obtain ⟨rfl, htree, -⟩ := hr
        rw [← htree₁] at hmake
        exact ⟨p, List.mem_cons_self, isBlocked_of_unlessDirectory hmake hexists htree⟩

/-- **A directory that cannot be made because of something on the way**: of the
paths above it, the nearest that is not missing in a missing directory leads to
something else. -/
structure Tree.IsBarred (t : Tree) (dir : Path) : Prop where
  /-- There is no directory. -/
  other : t.kind? dir ≠ some .directory
  /-- What there is on the way. -/
  way : ∃ below a above, dir.ancestors = below ++ a :: above
    ∧ (∀ b ∈ below, b.text ≠ "" ∧ t.makeDirectory b privateDirectoryMode = .error .notFound)
    ∧ a.text ≠ "" ∧ t.IsBlocked a

/-- **Directories on a way that is barred** are not made, because something
exists: below it everything is missing in something missing, and there the
makers turn to what is above. -/
theorem ends_makeAll_barred (hobliging : h.Obliging) {below above : List Path}
    (hbelow : ∀ b ∈ below,
      b.text ≠ "" ∧ h.tree.makeDirectory b privateDirectoryMode = .error .notFound)
    (hne : a.text ≠ "") (hblocked : h.tree.IsBlocked a) :
    (makeAll (below ++ a :: above)).Ends h fun r _ => r = .error .alreadyExists := by
  -- One path after the other is tried, and each of those below is missing in something
  -- missing.
  induction below generalizing h with
  | nil =>
    rw [List.nil_append, makeAll, if_neg hne]
    refine (ends_makeDirectory hobliging a privateDirectoryMode).bind fun r h₁ hr => ?_
    obtain ⟨hrefuses₁, hr⟩ := hr
    rw [Tree.makeDirectory_eq_exists_iff.2 hblocked.entry] at hr
    cases r with
    | ok u => cases hr
    | error fault =>
      obtain ⟨hfault, htree₁⟩ := hr
      cases hfault
      show Program.Ends (if Fault.alreadyExists = .notFound then _ else _) h₁ _
      rw [if_neg (by decide)]
      refine (ends_unlessDirectory (hobliging.of_refuses hrefuses₁) a _).mono fun r h' hr => ?_
      rw [hr.1, htree₁, if_neg hblocked.other]
  | cons b below ih =>
    obtain ⟨hb, hmake⟩ := hbelow b List.mem_cons_self
    rw [List.cons_append, makeAll, if_neg hb]
    refine (ends_makeDirectory hobliging b privateDirectoryMode).bind fun r h₁ hr => ?_
    obtain ⟨hrefuses₁, hr⟩ := hr
    rw [hmake] at hr
    cases r with
    | ok u => cases hr
    | error fault =>
      obtain ⟨hfault, htree₁⟩ := hr
      cases hfault
      show Program.Ends (if Fault.notFound = .notFound then _ else _) h₁ _
      rw [if_pos rfl]
      rw [← htree₁] at hblocked
      refine (ih (hobliging.of_refuses hrefuses₁) (fun b hb => ?_) hblocked).bind fun r h₂ hr => ?_
      · rw [htree₁]
        exact hbelow b (List.mem_cons_of_mem _ hb)
      · subst hr
        rfl

/-- Seeing to a directory may fail because something exists, and is then about
the directory. -/
theorem ends_ensureDirectory_exists (hobliging : h.Obliging)
    (hkind : h.tree.kind? dir ≠ some .directory) :
    (ensureDirectory dir).run.Ends h fun r h' => ∀ p, r = .error (.fileAlreadyExists p) →
      p = dir ∧ ∃ a ∈ dir.ancestors, h'.tree.IsBlocked a := by
  unfold ensureDirectory
  refine (ends_isDirectory hobliging dir).run_lift_bind fun found h₁ hr => ?_
  obtain ⟨hfound, -, hrefuses₁⟩ := hr
  rw [decide_eq_false hkind] at hfound
  subst hfound
  refine ((ends_makeAll_exists (hobliging.of_refuses hrefuses₁) dir.ancestors).run_orFault
    (Q := fun r h' => ∀ p, r = .error (.fileAlreadyExists p) →
      p = dir ∧ ∃ a ∈ dir.ancestors, h'.tree.IsBlocked a) (fun u h' _ p hp => by cases hp)
    fun fault h' hr p hp => ?_).run_bind (fun u h' _ p hp => by cases hp)
    fun e h' hr p hp => hr p (congrArg Except.error (Except.error.inj hp))
  obtain ⟨rfl, rfl⟩ := Error.ofFault_eq_fileAlreadyExists_iff.1 (Except.error.inj hp)
  exact ⟨rfl, hr rfl⟩

theorem ends_ensureDirectory_barred (hobliging : h.Obliging) (hbarred : h.tree.IsBarred dir) :
    (ensureDirectory dir).run.Ends h fun r _ => r = .error (.fileAlreadyExists dir) := by
  obtain ⟨below, a, above, hancestors, hbelow, hne, hblocked⟩ := hbarred.way
  unfold ensureDirectory
  refine (ends_isDirectory hobliging dir).run_lift_bind fun found h₁ hr => ?_
  obtain ⟨hfound, htree₁, hrefuses₁⟩ := hr
  rw [decide_eq_false hbarred.other] at hfound
  subst hfound
  rw [← htree₁] at hbelow hblocked
  have hall : (makeAll (below ++ a :: above)).Ends h₁ fun r _ => r = .error .alreadyExists :=
    ends_makeAll_barred (hobliging.of_refuses hrefuses₁) hbelow hne hblocked
  rw [← hancestors] at hall
  refine (hall.run_orFault (Q := fun r _ => r = .error (.fileAlreadyExists dir))
    (fun u h' hr => by cases hr) fun fault h' hr => ?_).run_bind (fun u h' hr => by cases hr)
    fun e h' hr => congrArg Except.error (Except.error.inj hr)
  cases hr
  rfl

/-! ## The target -/

/-- **A temporary file is kept from getting its name because that exists** only
if nothing may be replaced. -/
theorem ends_settle_exists (hobliging : h.Obliging) :
    (settle temporary path writeMode).run.Ends h fun r _ => ∀ p,
      r = .error (.fileAlreadyExists p) ↔ p = path ∧ writeMode = .createNew
        ∧ h.tree.moveNew temporary path = .error .alreadyExists := by
  refine ends_settle_obliging hobliging (fun h' hsettled p => ?_) fun fault h' hfault p => ?_
  · refine iff_of_false (fun hp => by cases hp) ?_
    rintro ⟨-, rfl, hmove⟩
    cases hsettled.symm.trans hmove
  · rw [Except.error.injEq, Error.ofFault_eq_fileAlreadyExists_iff]
    cases writeMode with
    | overwrite =>
      refine iff_of_false (fun hp => ?_) fun hp => by cases hp.2.1
      exact Tree.replace_ne_exists _ _ _ (hp.1 ▸ hfault)
    | createNew =>
      have hmove : h.tree.moveNew temporary path = .error fault := hfault
      rw [hmove, Except.error.injEq]
      exact ⟨fun hp => ⟨hp.2, rfl, hp.1⟩, fun hp => ⟨hp.2.2, hp.1⟩⟩

/-- **The last part of a write** fails because something exists if that is the
target and there was room for a temporary file. -/
theorem ends_writeByName_exists (hobliging : h.Obliging) (content : Bytes) :
    (writeByName path content writeMode).run.Ends h fun r _ => ∀ p,
      r = .error (.fileAlreadyExists p) ↔ p = path ∧ writeMode = .createNew
        ∧ h.tree.HasEntry path ∧ ∃ x, h.tree.createTemporary path.directory path = .ok x := by
  refine ends_writeByName_of hobliging (fun fault h' hfault _ p => ?_)
    fun temporary tree d n h₁ hmade hvacant hobliging₁ htree₁ => ?_
  · refine iff_of_false (fun hp => ?_) fun ⟨_, _, _, x, hx⟩ => ?_
    · obtain ⟨rfl, -⟩ := Error.ofFault_eq_fileAlreadyExists_iff.1 (Except.error.inj hp)
      exact Tree.createTemporary_ne_exists _ _ hfault
    · rw [hfault] at hx
      cases hx
  have hmove : h₁.tree.moveNew temporary path = .error .alreadyExists ↔ h.tree.HasEntry path
      ∧ ∃ x, h.tree.createTemporary path.directory path = .ok x := by
    rw [htree₁, Tree.moveNew_eq_exists_iff hvacant, Tree.hasEntry_set_temporary hmade hvacant]
    exact (and_iff_left ⟨_, hmade⟩).symm
  rw [← hmove]
  refine (ends_settle_exists hobliging₁).mono fun r h₂ hr => ?_
  cases r with
  | ok u => exact fun _ _ p => iff_of_false (fun h => by cases h) fun hp => by cases (hr p).2 hp
  | error e => exact hr

/-- What there was before it is there when it has failed. -/
theorem ends_writeByName_extends (hobliging : h.Obliging) (content : Bytes) :
    (writeByName path content writeMode).run.Ends h fun r h' =>
      ∀ e, r = .error e → Tree.Extends h.tree h'.tree := by
  refine ends_writeByName_of hobliging (fun fault h' _ htree e _ => ?_)
    fun temporary tree d n h₁ hmade hvacant hobliging₁ htree₁ => ?_
  · rw [htree]
    exact Tree.Extends.refl _
  refine (ends_settle hvacant htree₁).mono fun r h₂ hr => ?_
  cases r with
  | ok u => exact fun _ _ e he => by cases he
  | error e =>
    have htree₂ : h₂.tree = h.tree.set (n :: d) (.file privateFileMode content) := hr.trans htree₁
    refine (ends_discard hvacant htree₂).mono fun _ h' hr e' _ => ?_
    obtain ⟨-, ⟨hdir, hget⟩ | ⟨hsame, -⟩⟩ := hr
    · exact ⟨hdir, fun p e he => (hget p).trans he⟩
    · rw [hsame, htree₂]
      exact Tree.extends_set _ (Tree.get?_of_locate_vacant hvacant)

/-! ## Writes

A write has three places at which something may exist: on the way, under the
temporary name, and at the target. The second is excluded. The other two are
told from one another by the path in the error. -/

/-- **What a write to a path may say exists**, if anything, by the tree before
it and the tree after it. -/
structure TellsExisting (t : Tree) (path : Path) (mode : WriteMode) {α : Type}
    (r : Except Error α) (t' : Tree) : Prop where
  /-- In a directory that is there, it is the target, if there is an entry of any
  kind and nothing may be replaced. A link to nowhere is found only when a
  temporary file is to get its name. -/
  there : t.kind? path.directory = some .directory → ∀ p, r = .error (.fileAlreadyExists p) ↔
    p = path ∧ mode = .createNew ∧ t.HasEntry path
      ∧ (t.kind? path = none → ∃ x, t.createTemporary path.directory path = .ok x)
  /-- Where the directory is missing, it is the target, which has come to light, or
  the directory, if on the way to that is something that is none. -/
  missing : t.kind? path.directory ≠ some .directory → ∀ p, r = .error (.fileAlreadyExists p) →
    p = path ∧ mode = .createNew ∧ t'.HasEntry path
      ∨ p = path.directory ∧ ∃ a ∈ path.directory.ancestors, t'.IsBlocked a
  /-- It is the directory if that is barred, whether or not files may be
  replaced. -/
  barred : t.IsBarred path.directory → (mode = .createNew → t.kind? path = none) →
    r = .error (.fileAlreadyExists path.directory)

/-- What a write returns makes no difference. -/
theorem TellsExisting.map {t t' : Tree} {α β : Type} {r : Except Error α}
    (hr : TellsExisting t path writeMode r t') (f : α → β) :
    TellsExisting t path writeMode (r.map f) t' := by
  have hmap : ∀ e, r.map f = .error e ↔ r = .error e := by
    intro e
    cases r with
    | ok a => exact iff_of_false (fun h => by cases h) fun h => by cases h
    | error e' => exact ⟨fun h => congrArg Except.error (Except.error.inj h),
        fun h => congrArg Except.error (Except.error.inj h)⟩
  refine ⟨fun hthere p => ?_, fun hmissing p => ?_, fun hbarred hnew => ?_⟩
  · rw [hmap]
    exact hr.there hthere p
  · rw [hmap]
    exact hr.missing hmissing p
  · rw [hmap]
    exact hr.barred hbarred hnew

/-- **A write tells what exists**, on a host that refuses nothing. -/
theorem ends_write_existing (hobliging : h.Obliging) (path : Path) (content : Bytes)
    (writeMode : WriteMode) :
    (write path content writeMode).run.Ends h fun r h' =>
      TellsExisting h.tree path writeMode r h'.tree := by
  refine ends_write_of hobliging (fun hmode hkind h' htree => ?_) fun hnew h₀ hobliging₀ htree₀ => ?_
  · have hentry := Tree.hasEntry_of_kind? hkind
    refine ⟨fun _ p => ⟨fun hp => ?_, fun hp => ?_⟩, fun _ p hp => Or.inl ?_, fun _ hnone => ?_⟩
    · cases hp
      exact ⟨rfl, hmode, hentry, fun hnone => absurd hnone hkind⟩
    · rw [hp.1]
    · cases hp
      rw [htree]
      exact ⟨rfl, hmode, hentry⟩
    · exact absurd (hnone hmode) hkind
  -- Past the look at the target there are two cases: the directory is there, and only the
  -- target can exist, or it has to be made, and something on the way may be in its place.
  rw [← htree₀] at hnew ⊢
  by_cases hthere : h₀.tree.kind? path.directory = some .directory
  · obtain ⟨d, mode, hd⟩ := kind?_eq_directory_iff.1 hthere
    refine (ends_ensureDirectory_there hobliging₀ hd).run_bind_ok fun h₁ hr => ?_
    obtain ⟨htree₁, hrefuses₁⟩ := hr
    refine (ends_writeByName_exists (hobliging₀.of_refuses hrefuses₁) content).mono fun r h' hr => ?_
    rw [htree₁] at hr
    refine ⟨fun _ p => (hr p).trans ?_, fun hmissing => absurd hthere hmissing,
      fun hbarred => absurd hthere hbarred.other⟩
    refine and_congr_right fun _ => and_congr_right fun hmode => and_congr_right fun _ => ?_
    exact ⟨fun hroom _ => hroom, fun hroom => hroom (hnew hmode)⟩
  · have hdirectory := (ends_ensureDirectory_exists hobliging₀ hthere).refuses
    by_cases hbarred : h₀.tree.IsBarred path.directory
    · refine (hdirectory.and (ends_ensureDirectory_barred hobliging₀ hbarred)).run_bind
        (fun u h₁ hr => by cases hr.2) fun e h₁ hr => ?_
      obtain ⟨⟨hr, -⟩, hbar⟩ := hr
      cases hbar
      exact ⟨fun h => absurd h hthere, fun _ p hp => Or.inr (hr p (congrArg Except.error
        (Except.error.inj hp))), fun _ _ => rfl⟩
    · refine hdirectory.run_bind (fun u h₁ hr => ?_) fun e h₁ hr => ?_
      · have hobliging₁ : h₁.Obliging := hobliging₀.of_refuses hr.2
        refine ((ends_writeByName_exists hobliging₁ content).and
          (ends_writeByName_extends hobliging₁ content)).mono fun r h' hr => ?_
        refine ⟨fun h => absurd h hthere, fun _ p hp => Or.inl ?_, fun h => absurd h hbarred⟩
        obtain ⟨hpath, hmode, hentry, -⟩ := (hr.1 p).1 hp
        exact ⟨hpath, hmode, hentry.mono (hr.2 _ hp)⟩
      · exact ⟨fun h => absurd h hthere, fun _ p hp => Or.inr (hr.1 p (congrArg Except.error
          (Except.error.inj hp))), fun h => absurd h hbarred⟩

end Files

end CertAuthority
