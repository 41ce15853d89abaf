import CertAuthority.Proofs.Files.Fresh
import CertAuthority.Proofs.Files.Targets

/-!
# Two files in a directory

When two files have been written one after the other below one path, they are
in one directory, and both are there (`Written.pair`). Whether the path still
leads to the directory is another question. It does unless the second file has
taken the place of a link that the path goes by, since a file that is new takes
nothing away, and no walk gets past one that there was before
(`Written.hasDirectory`). Where it does, the paths of the files lead to them
(`Tree.HoldsPair.leadsToPrivate`).

A place is told from a path throughout. The files stay at their places
whatever becomes of paths, so it is said first which places they have, and
then by which paths one comes there. The directory of the first write is found
again in the second one's tree by walking its path anew, and the walk is
compared with the earlier one step by step (`HasDirectory.of_moved`).
-/

namespace CertAuthority.Files

open CertAuthority.Path (EndsInName IsNamePiece)

namespace Tree

variable {t t' : Tree} {dir : Path} {d d' q : Place} {mode : Nat} {content : Bytes}

/-! ## Where a directory is

The path of a directory is walked once for each of two files, and the second
walk is in a tree that has the first one. It goes the same way unless the
first file has taken the place of a link. -/

/-- **A directory that is where a path leads**, links seen through. Which
permissions it has does not matter, as they are not asked for. -/
def HasDirectory (t : Tree) (dir : Path) (d : Place) : Prop :=
  ∃ mode, t.locate true dir = .entry d (.directory mode)

namespace HasDirectory

/-- A directory is where it was in a larger tree, unless there is something
else now. -/
theorem of_extends (h : t.HasDirectory dir d) (hext : Extends t t')
    (hget : t'.get? d = t.get? d ∨ ∃ m, t'.get? d = some (.directory m)) :
    t'.HasDirectory dir d := by
  obtain ⟨mode, hd⟩ := h
  have hleads := locate_extends hext true dir
  rw [hd] at hleads
  obtain ⟨e, he⟩ := hleads
  have hend : t'.locate true dir = .entry d e := Leg.landed.inj he
  have hentry := entry_of_locate hend
  rcases hget with hsame | ⟨m, hm⟩
  · rw [hsame, ← entry_of_locate hd] at hentry
    exact ⟨mode, hentry ▸ hend⟩
  · rw [hm] at hentry
    obtain rfl : e = .directory m := hentry
    exact ⟨m, hend⟩

theorem wayMade {dir' : Path} (h : t.HasDirectory dir d) (hway : WayMade dir' t t') :
    t'.HasDirectory dir d :=
  h.of_extends hway.toExtends ((hway.get? d).imp_right fun hmade => ⟨_, hmade.2.1⟩)

/-- A path that leads to some directory past a file that took an entry's place
leads where it led before. -/
theorem moved (h : t.HasDirectory dir d) (hmoved : Moved t t' q (.file mode content))
    (h' : t'.HasDirectory dir d') : d = d' := by
  obtain ⟨m, hd⟩ := h
  obtain ⟨m', hd'⟩ := h'
  rcases locate_moved hmoved true dir with hsame | hfile | hrefused
  · rw [hsame, hd] at hd'
    cases hd'
    rfl
  · rw [hfile] at hd'
    cases hd'
  · rw [hrefused] at hd'
    cases hd'

end HasDirectory

/-- A file in the place of nothing takes nothing away. -/
theorem Moved.toExtends {e : Entry} (h : Moved t t' q e) (hq : t.get? q = none) :
    Extends t t' := by
  refine ⟨h.workingDirectory, fun p e' hp => ?_⟩
  have hne : p ≠ q := by
    rintro rfl
    rw [hq] at hp
    cases hp
  exact (h.others p hne).trans hp

/-- What a file took the place of could take it back. -/
theorem Moved.symm {e e' : Entry} (h : Moved t t' q e) (hq : t.get? q = some e') :
    Moved t' t q e' :=
  ⟨h.workingDirectory.symm, hq, fun p hp => (h.others p hp).symm⟩

/-- **A directory is where it was** after a file in it was written, if that has
not taken the place of a link. -/
theorem HasDirectory.of_moved {n : String} (h : t.HasDirectory dir d)
    (hmoved : Moved t t' (n :: d) (.file mode content))
    (hdirectory : ∀ m, t.get? (n :: d) ≠ some (.directory m))
    (hlink : ∀ target, t.get? (n :: d) ≠ some (.link target)) : t'.HasDirectory dir d := by
  have hget : t'.get? d = t.get? d := hmoved.others d (List.cons_ne_self n d).symm
  cases hentry : t.get? (n :: d) with
  | none => exact h.of_extends (hmoved.toExtends hentry) (Or.inl hget)
  | some e =>
    cases e with
    | directory m => exact absurd hentry (hdirectory m)
    | link target => exact absurd hentry (hlink target)
    | file m content' =>
      -- where one file takes another's place, walks go on as they did
      obtain ⟨m', hd⟩ := h
      rcases locate_moved (hmoved.symm hentry) true dir with hsame | hfile | hrefused
      · exact ⟨m', hsame.symm.trans hd⟩
      · rw [hd] at hfile
        cases hfile
      · rw [hd] at hrefused
        cases hrefused

/-! ## Pairs -/

/-- **Two private files in a directory**, below a path that may lead there. -/
structure HoldsPair (t : Tree) (dir : Path) (d : Place) (n n' : String) (content content' : Bytes) :
    Prop where
  /-- They have different names. -/
  different : n ≠ n'
  /-- File systems take the path of the first one. -/
  taken : IsTaken dir n
  /-- So they do that of the second one. -/
  taken' : IsTaken dir n'
  /-- The first file. -/
  first : t.get? (n :: d) = some (.file privateFileMode content)
  /-- The second file. -/
  second : t.get? (n' :: d) = some (.file privateFileMode content')

theorem leadsToPrivate_join {n : String} (hdir : EndsInName dir) (hn : IsNamePiece n.toList)
    (h : t.HasDirectory dir d) (htaken : IsTaken dir n)
    (hget : t.get? (n :: d) = some (.file privateFileMode content)) :
    t.LeadsToPrivate (dir.join ⟨n⟩) (n :: d) content := by
  obtain ⟨m, hd⟩ := h
  have hjoin := locate_join hdir hn hd htaken
  rw [under, hget] at hjoin
  exact .of_locate hjoin

/-- **The paths of the files lead to them** if that of the directory leads to
it. -/
theorem HoldsPair.leadsToPrivate {n n' : String} {content' : Bytes}
    (h : t.HoldsPair dir d n n' content content') (hdir : EndsInName dir)
    (hn : IsNamePiece n.toList) (hn' : IsNamePiece n'.toList) (hd : t.HasDirectory dir d) :
    t.LeadsToPrivate (dir.join ⟨n⟩) (n :: d) content
      ∧ t.LeadsToPrivate (dir.join ⟨n'⟩) (n' :: d) content' :=
  ⟨leadsToPrivate_join hdir hn hd h.taken h.first,
    leadsToPrivate_join hdir hn' hd h.taken' h.second⟩

end Tree

/-! ## Writes -/

variable {dir : Path} {n n' : String} {content content' : Bytes} {mode mode' : WriteMode}
  {t t₁ t₂ made made₁ : Tree} {q q' : Place}

/-- **A file that was written below a directory** is in it. -/
theorem Written.below (hdir : EndsInName dir) (hn : IsNamePiece n.toList)
    (hwritten : Written (dir.join ⟨n⟩) content mode t made t₁ q) :
    ∃ d, made.HasDirectory dir d ∧ Tree.IsTaken dir n ∧ q = n :: d := by
  obtain ⟨d, m, hd⟩ := hwritten.directory
  rw [Path.directory_join hdir hn] at hd
  have hleads := hwritten.leads
  refine ⟨d, ⟨m, hd⟩, ?_⟩
  by_cases htaken : Tree.IsTaken dir n
  · rw [Tree.locate_join hdir hn hd htaken, Tree.under] at hleads
    cases hget : made.get? (n :: d) with
    | none =>
      rw [hget] at hleads
      exact ⟨htaken, (Option.some.inj hleads).symm⟩
    | some e =>
      rw [hget] at hleads
      exact ⟨htaken, (Option.some.inj hleads).symm⟩
  · obtain ⟨fault, hfault⟩ := Tree.locate_join_refused hdir hn hd htaken
    rw [hfault] at hleads
    cases hleads

/-- What was a link when the directories had been made was one before. -/
theorem Written.link (hwritten : Written (dir.join ⟨n⟩) content mode t made t₁ q) {p : Place}
    {target : Path} (hlink : made.get? p = some (.link target)) :
    t.get? p = some (.link target) := by
  rcases hwritten.way.get? p with hsame | ⟨-, hmade, -⟩
  · exact hsame.symm.trans hlink
  · rw [hmade] at hlink
    cases hlink

/-- **Two files that were written below a directory** are in one directory. The
path of the directory leads there, unless the second file has taken the place
of a link. -/
theorem Written.pair (hdir : EndsInName dir) (hn : IsNamePiece n.toList)
    (hn' : IsNamePiece n'.toList) (hne : n ≠ n')
    (hfirst : Written (dir.join ⟨n⟩) content mode t made t₁ q)
    (hsecond : Written (dir.join ⟨n'⟩) content' mode' t₁ made₁ t₂ q') :
    ∃ d, t₂.HoldsPair dir d n n' content content'
      ∧ (t₂.HasDirectory dir d
        ∨ mode' = .overwrite ∧ ∃ target, t.get? (n' :: d) = some (.link target)) := by
  obtain ⟨d, hd, htaken, rfl⟩ := hfirst.below hdir hn
  obtain ⟨d', hd', htaken', rfl⟩ := hsecond.below hdir hn'
  have hway := hsecond.way
  rw [Path.directory_join hdir hn'] at hway
  -- the directories that the second write made might have been made before the first
  obtain ⟨earlier, hearlier, hmoved, -⟩ := hway.before hfirst.moved
  obtain rfl : d = d' := (hd.wayMade hearlier).moved hmoved hd'
  have hplace : n :: d ≠ n' :: d := fun heq => hne (List.head_eq_of_cons_eq heq)
  have hkept : t₂.get? (n :: d) = some (.file privateFileMode content) := by
    rw [hsecond.moved.others _ hplace]
    exact hway.toExtends.get? _ _ hfirst.moved.self
  refine ⟨d, ⟨hne, htaken, htaken', hkept, hsecond.moved.self⟩, ?_⟩
  by_cases hlink : ∃ target, made₁.get? (n' :: d) = some (.link target)
  · obtain ⟨target, hlink⟩ := hlink
    have hold := hsecond.link hlink
    refine Or.inr ⟨?_, target, ?_⟩
    · cases mode' with
      | overwrite => rfl
      | createNew =>
        rw [hsecond.isNew rfl] at hold
        cases hold
    · rw [hfirst.moved.others _ hplace.symm] at hold
      exact hfirst.link hold
  · exact Or.inl (hd'.of_moved hsecond.moved hsecond.notDirectory fun target htarget =>
      hlink ⟨target, htarget⟩)

end CertAuthority.Files
