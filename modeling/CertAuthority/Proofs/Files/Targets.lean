import CertAuthority.Proofs.Files.Beside
import CertAuthority.Proofs.Files.Linkless

/-!
# What writes to given paths may change

A write makes directories on the way to its path, and then there is another
entry where the path leads. So what has changed can be told from a tree in
between, which is the old one with directories on the way: the new tree is the
same but for the places that the paths lead to in that one (`Tree.ChangedAt`).
The paths are followed there and not in the old tree, where the directories
may be missing, or in the new one, where a link that a path goes by may be
gone.

One tree in between is enough for several writes in one directory
(`Written.changedAt_cons`). The directories that a later write makes might as
well have been made before the first one: nothing that was written is on the
way to them, for a walk that comes upon a file goes no further
(`Tree.WayMade.before`).
-/

namespace CertAuthority.Files

namespace Tree

variable {t t' : Tree} {dir path : Path} {q : Place}

/-! ## An entry put back

To compare the files after several writes with those before, what was done is
put into another order: all the directories first, and then the files. An
entry that was replaced is put back for this, and the directories that were
made afterwards might have been made with it there. -/

/-- The tree with an entry at a place, or with none. It is used to put back what
was there before a file was written. -/
def restore (t : Tree) (p : Place) : Option Entry → Tree
  | some e => t.set p e
  | none => t.erase p

/-- What is not there is none of the directories that are always there. -/
theorem ne_of_get?_eq_none {p : Place} (h : t.get? p = none) : p ≠ [] ∧ p ≠ t.workingDirectory := by
  rw [get?, Option.or_eq_none_iff] at h
  split_ifs at h with hgiven
  · cases h.2
  · exact not_or.1 hgiven

/-- **What is there after an entry is put back**: that entry or none at its
place, and elsewhere what there was. -/
theorem get?_restore {p : Place} {o : Option Entry}
    (ho : o = none → p ≠ [] ∧ p ≠ t.workingDirectory) (q : Place) :
    (t.restore p o).get? q = if q = p then o else t.get? q := by
  cases o with
  | some e => exact get?_set t p q e
  | none =>
    show (t.erase p).get? q = _
    split_ifs with hq
    · have hgiven : ¬ (p = [] ∨ p = (t.erase p).workingDirectory) := not_or.2 (ho rfl)
      rw [hq, get?, if_neg hgiven, Option.or_none]
      exact lookup_filter_self t.entries p
    · exact get?_erase_ne t hq

/-- **Directories that were made after an entry was replaced** might have been
made before. -/
theorem WayMade.before {t₁ : Tree} {mode : Nat} {content : Bytes}
    (h : WayMade dir t₁ t') (hmoved : Moved t t₁ q (.file mode content)) :
    ∃ made, WayMade dir t made ∧ Moved made t' q (.file mode content)
      ∧ made.get? q = t.get? q := by
  have hdir : t'.workingDirectory = t.workingDirectory :=
    h.workingDirectory.trans hmoved.workingDirectory
  have hget := get?_restore (t := t') (p := q) (o := t.get? q) fun hnone => by
    rw [hdir]
    exact ne_of_get?_eq_none hnone
  have hself : t'.get? q = some (.file mode content) := h.toExtends.get? _ _ hmoved.self
  have hback : Moved (t'.restore q (t.get? q)) t' q (.file mode content) := by
    refine ⟨?_, hself, fun p hp => ?_⟩
    · cases t.get? q <;> rfl
    · rw [hget, if_neg hp]
  refine ⟨t'.restore q (t.get? q), ⟨?_, fun p => ?_⟩, hback, ?_⟩
  · rw [← hdir, hback.workingDirectory]
  · rw [hget]
    split_ifs with hp
    · exact Or.inl (congrArg t.get? hp.symm)
    · rw [← hmoved.others p hp]
      refine (h.get? p).imp_right fun hmade => ⟨hmade.1, hmade.2.1, ?_⟩
      -- The walk to a directory that was made comes by no file.
      obtain ⟨-, hdirectory, ps, hps, e, he⟩ := hmade
      refine ⟨ps, hps, e, ?_⟩
      rw [hback.workingDirectory] at he
      rcases walk_moved hback true mostLinks _ ps with hsame | hfile | hrefused
      · exact hsame.symm.trans he
      · rw [hfile] at he
        cases he
        exact absurd rfl hp
      · rw [hrefused] at he
        cases he
  · rw [hget, if_pos rfl]

/-- A path leads where it led, in a tree with more in it but not there. -/
theorem place?_of_extends (h : Extends t t') {follow : Bool}
    (hq : (t.locate follow path).place? = some q) (hsame : t'.get? q = t.get? q) :
    (t'.locate follow path).place? = some q := by
  cases hend : t.locate follow path with
  | entry p e =>
    have hleads := locate_extends h follow path
    rw [hend] at hleads hq
    obtain ⟨e', he'⟩ := hleads
    rw [Leg.landed.inj he']
    exact hq
  | vacant d n =>
    -- If there were a file, the path would lead to it.
    rw [hend] at hq
    cases hq
    have hnone := hsame.trans (get?_of_locate_vacant hend)
    have hleads := locate_extends (h.trans (extends_set (.file 0 []) hnone)) follow path
    rw [hend] at hleads
    have hfile := hleads _ (get?_set_self _ _ _) fun target hlink => by cases hlink
    rw [← place?_locate_set_file hnone 0 [], Leg.landed.inj hfile]
    rfl
  | refused fault =>
    rw [hend] at hq
    cases hq

/-! ## Changes at given paths -/

/-- **A tree in which directories were made on the way to some paths.** -/
structure WaysMade (paths : List Path) (t t' : Tree) : Prop where
  /-- Relative paths start in the same directory. -/
  workingDirectory : t'.workingDirectory = t.workingDirectory
  /-- What is there was there, as it is, or is a private directory on the way. -/
  get? : ∀ p, t'.get? p = t.get? p
    ∨ t.get? p = none ∧ t'.get? p = some (.directory privateDirectoryMode)
      ∧ ∃ path ∈ paths, t'.OnTheWay path.directory p

/-- **A place that some path leads to**; a link at its end is not seen
through. -/
def LedTo (t : Tree) (paths : List Path) (p : Place) : Prop :=
  ∃ path ∈ paths, (t.locate false path).place? = some p

/-- **The place of a file that the host does not let go of**, if `refused` are the
requests that were just refused. It was vacant, the file is one that only its
owner can read, and the last request was to remove it. -/
def Withheld (t t' : Tree) (refused : Request → Prop) (p : Place) : Prop :=
  ∃ temporary d n content, t.locate false temporary = .vacant d n ∧ p = n :: d
    ∧ refused (.remove temporary) ∧ t'.get? p = some (.file privateFileMode content)

/-- **A tree in which at most what some paths lead to has changed**, once the
directories on the way were made. If the host was last asked to remove a temporary
file and has refused, the tree has that file, too. -/
structure ChangedAt (paths : List Path) (refused : Request → Prop) (t made t' : Tree) : Prop where
  /-- The directories on the way. -/
  ways : WaysMade paths t made
  /-- Relative paths start in the same directory. -/
  workingDirectory : t'.workingDirectory = made.workingDirectory
  /-- The rest. -/
  get? : ∀ p, t'.get? p = made.get? p ∨ made.LedTo paths p ∨ made.Withheld t' refused p

variable {paths paths' : List Path} {refused : Request → Prop} {made : Tree}

/-- Directories made on the way to one of the paths are made on the way to some
of them. -/
theorem WayMade.waysMade (h : WayMade path.directory t t') (hmem : path ∈ paths) :
    WaysMade paths t t' :=
  ⟨h.workingDirectory, fun p => (h.get? p).imp_right fun hmade =>
    ⟨hmade.1, hmade.2.1, path, hmem, hmade.2.2⟩⟩

/-- If all the paths are in one directory, it is the way to that one. -/
theorem WaysMade.wayMade (h : WaysMade paths t t') (hdir : ∀ p ∈ paths, p.directory = dir) :
    WayMade dir t t' := by
  refine ⟨h.workingDirectory, fun p => (h.get? p).imp_right ?_⟩
  rintro ⟨hnone, hmade, path, hmem, hway⟩
  exact ⟨hnone, hmade, hdir path hmem ▸ hway⟩

namespace ChangedAt

/-- Nothing has changed. -/
theorem refl (paths : List Path) (refused : Request → Prop) (t : Tree) :
    ChangedAt paths refused t t t :=
  ⟨⟨rfl, fun _ => Or.inl rfl⟩, rfl, fun _ => Or.inl rfl⟩

theorem mono (h : ChangedAt paths refused t made t') (hsub : ∀ p ∈ paths, p ∈ paths') :
    ChangedAt paths' refused t made t' := by
  refine ⟨⟨h.ways.workingDirectory, fun p => (h.ways.get? p).imp_right ?_⟩, h.workingDirectory,
    fun p => (h.get? p).imp_right (Or.imp_left ?_)⟩
  · rintro ⟨hnone, hmade, path, hmem, hway⟩
    exact ⟨hnone, hmade, path, hsub path hmem, hway⟩
  · rintro ⟨path, hmem, hleads⟩
    exact ⟨path, hsub path hmem, hleads⟩

end ChangedAt

end Tree

/-! ## Writes

However a write ends, what it has changed is what its path leads to, once the
missing directories are there. It is said for one write, and for a write
before others in the same directory, which is what a task consists of. -/

section Writes

variable {path : Path} {paths : List Path} {content : Bytes} {mode : WriteMode}
  {refused : Request → Prop} {t made t' : Tree} {q : Place}

/-- **A write changes what its path leads to.** -/
theorem Written.changedAt (h : Written path content mode t made t' q) :
    Tree.ChangedAt [path] refused t made t' := by
  refine ⟨h.way.waysMade (List.mem_singleton_self path), h.moved.workingDirectory, fun p => ?_⟩
  by_cases hp : p = q
  · exact Or.inr (Or.inl ⟨path, List.mem_singleton_self path, hp ▸ h.leads⟩)
  · exact Or.inl (h.moved.others p hp)

/-- **A write that fails changes no place that a path leads to**, and may leave
its file if it was just refused the removal. -/
theorem Unwritten.changedAt (h : Unwritten path refused t t') :
    ∃ made, Tree.ChangedAt [path] refused t made t' := by
  cases h with
  | clean way =>
    exact ⟨t', way.waysMade (List.mem_singleton_self path), rfl, fun _ => Or.inl rfl⟩
  | @leftover made temporary d n content way vacant tree hrefused =>
    refine ⟨made, way.waysMade (List.mem_singleton_self path), by rw [tree]; rfl, fun p => ?_⟩
    by_cases hp : p = n :: d
    · exact Or.inr (Or.inr ⟨temporary, d, n, content, vacant, hp, hrefused,
        by rw [tree, hp, Tree.get?_set_self]⟩)
    · rw [tree, Tree.get?_set_ne _ _ hp]
      exact Or.inl rfl

/-- **However a write ends**, it changes at most what its path leads to. -/
theorem WriteEnd.changedAt {α : Type} {h h' : Host} {r : Except Error α}
    (hend : WriteEnd h path content mode r h') :
    ∃ made, Tree.ChangedAt [path] h'.HasJustRefused h.tree made h'.tree := by
  cases r with
  | ok a =>
    obtain ⟨made, q, hwritten⟩ := hend
    exact ⟨made, hwritten.changedAt⟩
  | error e => exact Unwritten.changedAt hend

/-- **A write that may not replace anything** adds at most. -/
theorem WriteEnd.toExtends {α : Type} {h h' : Host} {r : Except Error α}
    (hend : WriteEnd h path content .createNew r h') : Tree.Extends h.tree h'.tree := by
  cases r with
  | ok a =>
    obtain ⟨made, q, hwritten⟩ := hend
    exact hwritten.toExtends (hwritten.isNew rfl)
  | error e => exact Unwritten.toExtends hend

/-- **A write and then writes to other paths in the same directory** change at
most what all these paths lead to. -/
theorem Written.changedAt_cons {t₁ made₁ made₂ : Tree}
    (hwritten : Written path content mode t made₁ t₁ q)
    (h : Tree.ChangedAt paths refused t₁ made₂ t')
    (hdir : ∀ p ∈ paths, p.directory = path.directory) :
    ∃ made, Tree.ChangedAt (path :: paths) refused t made t' := by
  -- The directories that later writes made are made before the first file is put in its
  -- place.
  obtain ⟨made, hmade, hmoved, hsame⟩ := (h.ways.wayMade hdir).before hwritten.moved
  have hleads : made.LedTo (path :: paths) q :=
    ⟨path, List.mem_cons_self, Tree.place?_of_extends hmade.toExtends hwritten.leads hsame⟩
  refine ⟨made, (hwritten.way.trans hmade).waysMade List.mem_cons_self,
    h.workingDirectory.trans hmoved.workingDirectory, fun p => ?_⟩
  -- A path of the later writes led to the same place without the first file, unless it ends
  -- at that file or nowhere.
  rcases h.get? p with heq | ⟨path', hmem, hplace⟩ | ⟨temporary, d, n, content, hvac, hrest⟩
  · by_cases hp : p = q
    · exact Or.inr (Or.inl (hp ▸ hleads))
    · exact Or.inl (heq.trans (hmoved.others p hp))
  · right
    left
    rcases Tree.locate_moved hmoved false path' with heq | hfile | hnowhere
    · exact ⟨path', List.mem_cons_of_mem path hmem, heq ▸ hplace⟩
    · rw [hfile] at hplace
      cases hplace
      exact hleads
    · rw [hnowhere] at hplace
      cases hplace
  · right
    right
    rcases Tree.locate_moved hmoved false temporary with heq | hfile | hnowhere
    · exact ⟨temporary, d, n, content, heq ▸ hvac, hrest⟩
    · rw [hfile] at hvac
      cases hvac
    · rw [hnowhere] at hvac
      cases hvac

end Writes

end CertAuthority.Files
