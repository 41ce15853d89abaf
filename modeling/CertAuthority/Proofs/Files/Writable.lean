import CertAuthority.Proofs.Files.Existing
import CertAuthority.Proofs.Files.Pair

/-!
# Two files that can be written

A path is writable if a write there succeeds on every host that has the tree
and refuses nothing, whatever is written (`Tree.IsWritable`). For two paths it
is not enough that each of them is, since the first file may be in the way of
the second one; a tree takes a pair if nothing is at either path and files can
be written there one after the other (`Tree.TakesPair`).

In a directory that is there, two free names are enough
(`Tree.takesPair_below`), unless the first file has the name of a temporary
one. That name is then used up, and the next one may be too long for the path.

To be writable is said by what a write does and not by what is in the tree, so
that it can stand as a condition wherever a command writes two files, without
the reasons for which a tree may refuse one. Which trees satisfy it is a
question of its own, and the answer given here is a sufficient one: it covers
the directory of a component, with or without other files in it.
-/

namespace CertAuthority.Files

open CertAuthority.Path (EndsInName IsNamePiece)
open Program (Ends)

/-! ## Where a file was written in a directory that was there -/

/-- **A write into a directory that is there** changes nothing but what is at the
path. -/
theorem ends_write_moved {h : Host} {path : Path} {d : Place} {mode : Nat} (hobliging : h.Obliging)
    (hthere : h.tree.locate true path.directory = .entry d (.directory mode)) (content : Bytes)
    (writeMode : WriteMode) :
    (write path content writeMode).run.Ends h fun r h' => ∀ u, r = .ok u →
      ∃ q, (h.tree.locate false path).place? = some q
        ∧ Tree.Moved h.tree h'.tree q (.file privateFileMode content) := by
  refine ends_write_of hobliging (fun _ _ h' _ u hu => by cases hu) fun _ h₀ hobliging₀ htree₀ => ?_
  rw [← htree₀] at hthere ⊢
  refine (ends_ensureDirectory_there hobliging₀ hthere).run_bind_ok fun h₁ hr => ?_
  obtain ⟨htree₁, hrefuses₁⟩ := hr
  rw [← htree₁]
  refine ends_writeByName_of (hobliging₀.of_refuses hrefuses₁) (fun _ h' _ _ u hu => by cases hu)
    fun temporary tree d' n h₂ _ hvacant _ htree₂ => ?_
  refine (ends_settle hvacant htree₂).mono fun r h₃ hr => ?_
  cases r with
  | ok u =>
    obtain ⟨q, hq, -, -, hmoved⟩ := hr
    exact fun h' htree' _ _ => ⟨q, hq, htree' ▸ hmoved⟩
  | error e => exact fun u hu => by cases hu

namespace Tree

variable {t t' : Tree} {dir : Path} {n n' : String} {d q : Place} {m : Nat} {content : Bytes}

/-! ## Room for temporary files

The name that is tried is the first one that is free, so where the same of
these names are taken the same one is tried. How many there are to try depends
on the tree as well, but there are always more than are taken. -/

/-- **The name of a temporary file** is the first one that is free, however many
there are to try. -/
theorem freshName?_congr (h : ∀ k, t'.get? (temporaryName k :: d) = t.get? (temporaryName k :: d))
    (taken : Option String) : t'.freshName? d taken = t.freshName? d taken := by
  obtain ⟨n, hn⟩ := exists_freshName? t d taken
  obtain ⟨n', hn'⟩ := exists_freshName? t' d taken
  have hfirst : ∀ {s : Tree} {name : String}, s.freshName? d taken = some name →
      ∃ k, temporaryName k = name
        ∧ (some (temporaryName k) ≠ taken ∧ s.get? (temporaryName k :: d) = none)
        ∧ ∀ j < k, ¬ (some (temporaryName j) ≠ taken ∧ s.get? (temporaryName j :: d) = none) := by
    intro s name hname
    unfold freshName? at hname
    rw [List.find?_map, Option.map_eq_some_iff] at hname
    obtain ⟨k, hk, rfl⟩ := hname
    obtain ⟨hfree, -, hbefore⟩ := List.find?_range_eq_some.1 hk
    exact ⟨k, rfl, of_decide_eq_true hfree, fun j hj hfree => by
      simpa [hfree.1, hfree.2] using hbefore j hj⟩
  obtain ⟨k, rfl, hfree, hbefore⟩ := hfirst hn
  obtain ⟨k', rfl, hfree', hbefore'⟩ := hfirst hn'
  rw [h] at hfree'
  rw [hn, hn']
  rcases Nat.lt_trichotomy k k' with hlt | rfl | hlt
  · refine absurd ?_ (hbefore' k hlt)
    rw [h]
    exact hfree
  · rfl
  · exact absurd hfree' (hbefore k' hlt)

/-- **There is room for a temporary file** in a directory if the path of the first
free name is one that file systems take. -/
theorem exists_createTemporary_iff (hdir : EndsInName dir)
    (h : t.locate true dir = .entry d (.directory m)) (target : Path) :
    (∃ x, t.createTemporary dir target = .ok x) ↔ ∃ n, t.freshName? d target.fileName? = some n
      ∧ (t.absolute (dir.join ⟨n⟩)).text.utf8ByteSize ≤ longestPath ∧ IsTaken dir n := by
  obtain ⟨n, hn⟩ := exists_freshName? t d target.fileName?
  have hname := (freshName?_eq_some hn).2
  have hfile : (∃ s, t.createFile (dir.join ⟨n⟩) temporaryMode = .ok s) ↔ IsTaken dir n := by
    unfold createFile
    by_cases htaken : IsTaken dir n
    · rw [locate_join hdir hname h htaken, under, get?_freshName? hn]
      exact iff_of_true ⟨_, rfl⟩ htaken
    · obtain ⟨fault, hfault⟩ := locate_join_refused hdir hname h htaken
      rw [hfault]
      refine iff_of_false ?_ htaken
      rintro ⟨s, hs⟩
      cases hs
  have hrest : (∃ x, t.createTemporary dir target = .ok x)
      ↔ (t.absolute (dir.join ⟨n⟩)).text.utf8ByteSize ≤ longestPath ∧ IsTaken dir n := by
    unfold createTemporary
    rw [h, ← hfile]
    dsimp only
    rw [hn]
    dsimp only
    split_ifs with hlong
    · refine iff_of_false ?_ fun hshort => absurd hlong (Nat.not_lt.2 hshort.1)
      rintro ⟨x, hx⟩
      cases hx
    · rw [and_iff_right (Nat.not_lt.1 hlong)]
      cases t.createFile (dir.join ⟨n⟩) temporaryMode with
      | ok s => exact iff_of_true ⟨_, rfl⟩ ⟨s, rfl⟩
      | error fault =>
        refine iff_of_false ?_ ?_ <;> rintro ⟨x, hx⟩ <;> cases hx
  rw [hrest]
  refine ⟨fun hroom => ⟨n, hn, hroom⟩, ?_⟩
  rintro ⟨n', hn', hroom⟩
  rw [hn] at hn'
  cases hn'
  exact hroom

/-- **A tree takes a file beside another one** if it has taken it without that
one. -/
theorem Takes.beside {mode : WriteMode} (htakes : t.Takes dir n' mode) (hdir : EndsInName dir)
    (hthere : t.HasDirectory dir d) (hmoved : Moved t t' (n :: d) (.file m content))
    (hget : t.get? (n :: d) = none) (hne : n ≠ n') (hordinary : ∀ k, n ≠ temporaryName k) :
    t'.Takes dir n' mode := by
  have hothers : ∀ name, n ≠ name → t'.get? (name :: d) = t.get? (name :: d) := fun name hname =>
    hmoved.others _ fun heq => hname (List.head_eq_of_cons_eq heq).symm
  have hthere' : t'.HasDirectory dir d := hthere.of_extends (hmoved.toExtends hget)
    (Or.inl (hmoved.others d (List.cons_ne_self n d).symm))
  obtain ⟨mode₀, hd⟩ := hthere
  obtain ⟨mode₁, hd'⟩ := hthere'
  have habsolute : ∀ p, t'.absolute p = t.absolute p := fun p => by
    unfold absolute
    rw [hmoved.workingDirectory]
  obtain ⟨d₀, m₀, hd₀, hfree⟩ := htakes.free
  rw [hd] at hd₀
  cases hd₀
  refine ⟨htakes.taken, ?_, d, mode₁, hd', ?_⟩
  · have hroom := htakes.temporary
    rw [exists_createTemporary_iff hdir hd] at hroom
    rw [exists_createTemporary_iff hdir hd', freshName?_congr fun k => hothers _ (hordinary k)]
    simpa only [habsolute] using hroom
  · cases mode with
    | createNew => exact (hothers n' hne).trans hfree
    | overwrite =>
      intro m' hdirectory
      rw [hothers n' hne] at hdirectory
      exact hfree m' hdirectory

/-! ## Paths that can be written to

Whether a path can be written to is a question about the tree, but is asked by
what becomes of a write, on every host that has it. That a pair of files can
be written follows from what is easier to see: a directory that is there, and
two names in it that are free and short enough. -/

/-- **A path to which a file can be written**, whatever it holds, on every host
that has the tree and refuses nothing. -/
def IsWritable (t : Tree) (path : Path) (mode : WriteMode) : Prop :=
  ∀ (h : Host) (content : Bytes), h.tree = t → h.Obliging →
    (write path content mode).run.Ends h fun r _ => r = .ok ()

/-- **Two paths that are absent and writable**: nothing is at either of them, and
files can be written there, one after the other. -/
structure TakesPair (t : Tree) (path path' : Path) (mode : WriteMode) : Prop where
  /-- Nothing is at the first path. -/
  absent : ¬ t.HasEntry path
  /-- Nothing is at the second one. -/
  absent' : ¬ t.HasEntry path'
  /-- A file can be written to the first one. -/
  writable : t.IsWritable path mode
  /-- Then one can be written to the second one. -/
  writable' : ∀ (h : Host) (content : Bytes), h.tree = t → h.Obliging →
    (write path content mode).run.Ends h fun _ h' => h'.tree.IsWritable path' mode

theorem TakesPair.kind? {path path' : Path} {mode : WriteMode} (h : t.TakesPair path path' mode) :
    t.kind? path = none ∧ t.kind? path' = none :=
  ⟨not_not.1 fun hkind => h.absent (hasEntry_of_kind? hkind),
    not_not.1 fun hkind => h.absent' (hasEntry_of_kind? hkind)⟩

/-- **A tree that takes a file** of some name has a path that can be written to.
-/
theorem Takes.isWritable {mode : WriteMode} (htakes : t.Takes dir n mode) (hdir : EndsInName dir)
    (hn : IsNamePiece n.toList) : t.IsWritable (dir.join ⟨n⟩) mode := by
  rintro h content rfl hobliging
  obtain ⟨d, m, hd, -⟩ := htakes.free
  refine (ends_write_below hobliging hdir hn hd content mode).mono fun r h' hr => ?_
  obtain ⟨u, hu⟩ := hr.2 htakes
  exact hu

/-- A free name can be given to a file, whether or not files may be replaced. -/
theorem Takes.of_createNew (htakes : t.Takes dir n .createNew) (mode : WriteMode) :
    t.Takes dir n mode := by
  obtain ⟨htaken, htemporary, d, m, hd, hfree⟩ := htakes
  refine ⟨htaken, htemporary, d, m, hd, ?_⟩
  cases mode with
  | createNew => exact hfree
  | overwrite =>
    intro m' hdirectory
    rw [show t.get? (n :: d) = none from hfree] at hdirectory
    cases hdirectory

/-- **A directory takes a pair of files under two free names.** -/
theorem takesPair_below (hdir : EndsInName dir) (hn : IsNamePiece n.toList)
    (hn' : IsNamePiece n'.toList) (hne : n ≠ n') (hordinary : ∀ k, n ≠ temporaryName k)
    (htakes : t.Takes dir n .createNew) (htakes' : t.Takes dir n' .createNew) (mode : WriteMode) :
    t.TakesPair (dir.join ⟨n⟩) (dir.join ⟨n'⟩) mode := by
  have habsent : ∀ {name : String}, IsNamePiece name.toList → t.Takes dir name .createNew →
      ¬ t.HasEntry (dir.join ⟨name⟩) := by
    rintro name hname ⟨htaken, -, d, m, hd, hfree⟩ ⟨q, e, he⟩
    rw [locate_join hdir hname hd htaken, under, show t.get? (name :: d) = none from hfree] at he
    cases he
  refine ⟨habsent hn htakes, habsent hn' htakes', (htakes.of_createNew mode).isWritable hdir hn, ?_⟩
  rintro h content rfl hobliging
  obtain ⟨d, m, hd, hfree⟩ := htakes.free
  have hthere : h.tree.locate true (dir.join ⟨n⟩).directory = .entry d (.directory m) := by
    rw [Path.directory_join hdir hn]
    exact hd
  refine (((htakes.of_createNew mode).isWritable hdir hn h content rfl hobliging).and
    (ends_write_moved hobliging hthere content mode)).mono fun r h' hr => ?_
  obtain ⟨q, hq, hmoved⟩ := hr.2 () hr.1
  rw [locate_join hdir hn hd htakes.taken, under, show h.tree.get? (n :: d) = none from hfree] at hq
  cases hq
  exact ((htakes'.of_createNew mode).beside hdir ⟨m, hd⟩ hmoved hfree hne hordinary).isWritable hdir hn'

end Tree

end CertAuthority.Files
