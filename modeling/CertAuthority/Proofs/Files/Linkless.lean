import CertAuthority.Proofs.Files.AtomicWrite

/-!
# Trees without links

Where there are no links, a walk is one leg, and it is a matter of
directories: what it comes by are directories, and it ends at an entry or
where one could be. So if every directory stays a directory and every file a
file (`Tree.KeepsPlaces`), then a path that leads to an entry leads to the
same place ever after, whatever else is written
(`Tree.Linkless.locate_keeps`).

A write keeps places, and it puts a file where its path leads. So from then on
the path leads to that file (`Written.locate`), and all other entries are as
they were (`Written.get?_of_ne`). A write that fails keeps every entry
(`Unwritten.toExtends`). Neither makes a link, and thus a whole history of
writes and reads can be followed in one tree after another without leaving the
trees of this kind.

With links none of this is to be had. A write replaces a link by the file, and
any path that went by that link leads elsewhere afterwards, be it the path
that was written to. `KeepsPlaces` is also less than being larger: a file may
become another file, with another mode and other content, since a walk does
not look into files.
-/

namespace CertAuthority.Files

namespace Tree

variable {t t' : Tree} {p : Path} {q : Place}

/-- **A tree without links.** In such a tree a path leads by directories alone,
and what is added to it later does not change where. -/
def Linkless (t : Tree) : Prop := ∀ p target, t.get? p ≠ some (.link target)

/-- **A tree in which directories are still directories and files still
files**, whatever has become of their contents. -/
structure KeepsPlaces (t t' : Tree) : Prop where
  /-- Relative paths start in the same directory. -/
  workingDirectory : t'.workingDirectory = t.workingDirectory
  /-- Directories are directories. -/
  directory : ∀ p m, t.get? p = some (.directory m) → t'.get? p = some (.directory m)
  /-- Files are files. -/
  file : ∀ p m content, t.get? p = some (.file m content) →
    ∃ m' content', t'.get? p = some (.file m' content')

/-- A larger tree keeps places: in it a file is the same file even. -/
theorem Extends.keepsPlaces (h : Extends t t') : KeepsPlaces t t' :=
  ⟨h.workingDirectory, fun p _ hp => h.get? p _ hp, fun p m content hp => ⟨m, content, h.get? p _ hp⟩⟩

/-- Places that are kept twice are kept. -/
theorem KeepsPlaces.trans {t'' : Tree} (h : KeepsPlaces t t') (h' : KeepsPlaces t' t'') :
    KeepsPlaces t t'' := by
  refine ⟨h'.workingDirectory.trans h.workingDirectory,
    fun p m hp => h'.directory p m (h.directory p m hp), fun p m content hp => ?_⟩
  obtain ⟨m', content', hp'⟩ := h.file p m content hp
  exact h'.file p m' content' hp'

/-- A file in place of anything but a directory. -/
theorem Moved.keepsPlaces {mode : Nat} {content : Bytes} (h : Moved t t' q (.file mode content))
    (hq : ∀ m, t.get? q ≠ some (.directory m)) : KeepsPlaces t t' := by
  refine ⟨h.workingDirectory, fun p m hp => ?_, fun p m content' hp => ?_⟩
  · rw [h.others p (by rintro rfl; exact hq m hp), hp]
  · by_cases hpq : p = q
    · exact ⟨mode, content, hpq ▸ h.self⟩
    · exact ⟨m, content', (h.others p hpq).trans hp⟩

theorem WayMade.linkless {dir : Path} (h : WayMade dir t t') (ht : t.Linkless) : t'.Linkless := by
  intro p target hp
  rcases h.get? p with heq | ⟨-, hmade, -⟩
  · exact ht p target (heq.symm.trans hp)
  · rw [hmade] at hp
    cases hp

/-- No link comes of a file that gets a name, nor of directories that are made.
-/
theorem Moved.linkless {mode : Nat} {content : Bytes} (h : Moved t t' q (.file mode content))
    (ht : t.Linkless) : t'.Linkless := by
  intro p target hp
  by_cases hpq : p = q
  · rw [hpq, h.self] at hp
    cases hp
  · exact ht p target ((h.others p hpq).symm.trans hp)

/-- Nor of a file that is put somewhere. -/
theorem Linkless.set_file (ht : t.Linkless) (q : Place) (mode : Nat) (content : Bytes) :
    (t.set q (.file mode content)).Linkless := by
  intro p target hp
  rw [get?_set] at hp
  split_ifs at hp
  · cases hp
  · exact ht p target hp

/-- It is enough that no entry of the tree is one. -/
theorem Linkless.of_entries (h : ∀ x ∈ t.entries, ∀ target, x.2 ≠ .link target) : t.Linkless := by
  intro p target hp
  unfold get? at hp
  cases hlookup : t.entries.lookup p with
  | none =>
    rw [hlookup, Option.none_or] at hp
    split_ifs at hp
    cases hp
  | some e =>
    rw [hlookup, Option.some_or] at hp
    obtain ⟨before, after, hentries, -⟩ := List.lookup_eq_some_iff.1 hlookup
    have hmem : (p, e) ∈ t.entries := by simp [hentries]
    exact h (p, e) hmem target (Option.some.inj hp)

namespace Linkless

variable (ht : t.Linkless)
include ht

/-- A path that leads to something does not lead to a link. -/
theorem not_link {follow : Bool} {e : Entry} (h : t.locate follow p = .entry q e) (target : Path) :
    e ≠ .link target := by
  rintro rfl
  have hentry := entry_of_locate h
  cases hget : t.get? q with
  | none =>
    rw [hget] at hentry
    cases hentry
  | some e =>
    rw [hget] at hentry
    exact ht q target (hget.trans (congrArg some hentry.symm))

/-- There is nothing to see through, so it makes no difference whether one does.
-/
theorem locate_follow (follow : Bool) (p : Path) : t.locate follow p = t.locate false p := by
  rcases Tree.locate_follow (t := t) follow p with heq | ⟨q, target, hlink⟩
  · exact heq
  · exact absurd rfl (ht.not_link hlink target)

/-- **Legs in a tree that keeps places.** The walk ends in one leg, and if
that ended at an entry, or where a file is now, it ends there. -/
theorem leg_keeps (h : KeepsPlaces t t') (follow : Bool) (place : Place)
    (pieces : List (List Char)) :
    ∃ l, t.leg follow place pieces = .landed l
      ∧ ∀ q, l.place? = some q →
        ((∃ e, l = .entry q e) ∨ ∃ m content, t'.get? q = some (.file m content)) →
        ∃ e, t'.leg follow place pieces = .landed (.entry q e) := by
  induction place, pieces using leg_induction t with
  | nil place =>
    rw [leg_nil, leg_nil]
    refine ⟨_, rfl, fun q hq _ => ?_⟩
    cases hq
    exact ⟨_, rfl⟩
  | dot place rest ih =>
    rw [leg_dot, leg_dot]
    exact ih
  | up place rest ih =>
    rw [leg_up, leg_up]
    exact ih
  | long place piece rest hlong =>
    rw [hlong]
    exact ⟨_, rfl, fun q hq => by cases hq⟩
  | absent place piece rest hname hget =>
    rw [leg_absent follow rest hname hget]
    refine ⟨_, rfl, fun q hq hthere => ?_⟩
    split_ifs at hq hthere with hrest
    · cases hq
      -- What was vacant is an entry only if there is a file now.
      rcases hthere with ⟨e, he⟩ | ⟨m, content, hfile⟩
      · cases he
      · exact ⟨_, hrest ▸ leg_name hname hfile fun target hlink => by cases hlink⟩
    · cases hq
  | directory place piece rest m hname hget ih =>
    rw [leg_directory follow rest hname hget,
      leg_directory follow rest hname (h.directory _ m hget)]
    exact ih
  | file place piece rest m content hname hget =>
    rw [leg_file follow rest hname hget]
    refine ⟨_, rfl, fun q hq _ => ?_⟩
    split_ifs at hq with hrest <;> cases hq
    obtain ⟨m', content', hfile⟩ := h.file _ m content hget
    exact ⟨_, hrest ▸ leg_name hname hfile fun target hlink => by cases hlink⟩
  | link place piece rest target hname hget => exact absurd hget (ht _ target)

/-- **Where a path leads in a tree that keeps places**: where it led before,
if that is an entry, or if there is a file now. -/
theorem locate_keeps (h : KeepsPlaces t t') {follow : Bool}
    (hq : (t.locate follow p).place? = some q)
    (hthere : (∃ e, t.locate follow p = .entry q e) ∨ ∃ m content, t'.get? q = some (.file m content)) :
    ∃ e, t'.locate follow p = .entry q e := by
  rcases locate_cases p with hwalk | ⟨fault, -, hrefused⟩
  · obtain ⟨l, hl, hleads⟩ := ht.leg_keeps h follow (startOf p t.workingDirectory) (piecesOf p)
    rw [hwalk, walk_of_landed hl] at hq hthere
    obtain ⟨e, he⟩ := hleads q hq hthere
    rw [hwalk, h.workingDirectory, walk_of_landed he]
    exact ⟨e, rfl⟩
  · rw [hrefused] at hq
    cases hq

end Linkless

/-- A path that leads to a place leads to the file that is there. -/
theorem eq_file_of_locate {follow : Bool} {e : Entry} {m : Nat} {content : Bytes}
    (h : t.locate follow p = .entry q e) (hget : t.get? q = some (.file m content)) :
    e = .file m content := by
  rw [entry_of_locate h, hget]
  rfl

end Tree

/-! ## Writes -/

section Writes

variable {path : Path} {content : Bytes} {mode : WriteMode} {t made t' : Tree} {q : Place}

/-- **A write that succeeds keeps places**: what it replaces is no directory. -/
theorem Written.keepsPlaces (h : Written path content mode t made t' q) : Tree.KeepsPlaces t t' :=
  h.way.toExtends.keepsPlaces.trans (h.moved.keepsPlaces h.notDirectory)

theorem Written.linkless (h : Written path content mode t made t' q) (ht : t.Linkless) :
    t'.Linkless :=
  h.moved.linkless (h.way.linkless ht)

/-- **Where a file was written there is the file.** -/
theorem Written.locate (h : Written path content mode t made t' q) (ht : t.Linkless)
    (follow : Bool) : t'.locate follow path = .entry q (.file privateFileMode content) := by
  have hmade : made.Linkless := h.way.linkless ht
  have hleads : (made.locate follow path).place? = some q := by
    rw [hmade.locate_follow, h.leads]
  obtain ⟨e, he⟩ := hmade.locate_keeps (h.moved.keepsPlaces h.notDirectory) hleads
    (Or.inr ⟨_, _, h.moved.self⟩)
  rw [he, Tree.eq_file_of_locate he h.moved.self]

/-- What is anywhere else is there still. -/
theorem Written.get?_of_ne (h : Written path content mode t made t' q) {p : Place} {e : Entry}
    (hp : p ≠ q) (he : t.get? p = some e) : t'.get? p = some e := by
  rw [h.moved.others p hp]
  exact h.way.toExtends.get? p e he

variable {refused : Request → Prop}

/-- **A write that fails takes nothing away.** -/
theorem Unwritten.toExtends (h : Unwritten path refused t t') : Tree.Extends t t' := by
  cases h with
  | clean way => exact way.toExtends
  | leftover way vacant tree _ =>
    rw [tree]
    exact way.toExtends.trans (Tree.extends_set _ (Tree.get?_of_locate_vacant vacant))

theorem Unwritten.linkless (h : Unwritten path refused t t') (ht : t.Linkless) : t'.Linkless := by
  cases h with
  | clean way => exact way.linkless ht
  | leftover way vacant tree _ =>
    rw [tree]
    exact (way.linkless ht).set_file _ _ _

end Writes

end CertAuthority.Files
