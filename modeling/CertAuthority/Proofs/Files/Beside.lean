import CertAuthority.Proofs.Files.Success

/-!
# Writes beside a file that was written

When a file has been written in a directory, a second one can be written
beside it if the tree takes it (`ends_write_beside`). The directory is there,
but for one case: the path of the directory goes by the very entry that the
first file has replaced, a link. Then it leads nowhere any more, and the
second write fails, since a walk that comes upon a file goes no further
(`Tree.locate_moved`).

The case cannot be excluded by looking at paths, for a link may be anywhere on
the way and lead anywhere. But it can be told apart in the tree with the first
file: either the directory is where it was, or what its path leads to is no
directory and none can be made there. In either case whether the second write
succeeds is what that tree has to say of it, and so the statement is an
equivalence without a condition on links.
-/

namespace CertAuthority.Files

open CertAuthority.Path (EndsInName IsNamePiece)
open Program (request)

namespace Tree

variable {t t' : Tree} {q : Place} {mode : Nat} {content : Bytes}

/-! ## Walks past a new file

Two trees are compared that differ at one place, where the second one has a
file. A walk that went by what was there ends at the file now, or is refused
at it, and all others go as before. -/

/-- **A leg in a tree with a file in another entry's place** goes as before,
ends at the file, or is refused there. -/
theorem leg_moved (h : Moved t t' q (.file mode content)) (follow : Bool) (place : Place)
    (pieces : List (List Char)) :
    t'.leg follow place pieces = t.leg follow place pieces
      ∨ t'.leg follow place pieces = .landed (.entry q (.file mode content))
      ∨ t'.leg follow place pieces = .landed (.refused .notADirectory) := by
  -- The induction follows the later tree: of the entries that a leg goes by only files can
  -- be new, and a leg ends there.
  induction place, pieces using leg_induction t' with
  | nil place =>
    rw [leg_nil, leg_nil]
    by_cases hplace : place = q
    · subst hplace
      rw [h.self]
      exact Or.inr (Or.inl rfl)
    · rw [h.others place hplace]
      exact Or.inl rfl
  | dot place rest ih =>
    rw [leg_dot, leg_dot]
    exact ih
  | up place rest ih =>
    rw [leg_up, leg_up]
    exact ih
  | long place piece rest hlong =>
    rw [hlong, hlong]
    exact Or.inl rfl
  | absent place piece rest hname hget =>
    have hbefore := h.get?_of_ne hget fun heq => by cases heq
    rw [leg_absent follow rest hname hget, leg_absent follow rest hname hbefore]
    exact Or.inl rfl
  | directory place piece rest mode' hname hget ih =>
    have hbefore := h.get?_of_ne hget fun heq => by cases heq
    rw [leg_directory follow rest hname hget, leg_directory follow rest hname hbefore]
    exact ih
  | file place piece rest mode' content' hname hget =>
    by_cases hplace : String.ofList piece :: place = q
    · have hself : t'.get? (String.ofList piece :: place) = some (.file mode content) := by
        rw [hplace]
        exact h.self
      rw [leg_file follow rest hname hself]
      split_ifs
      · rw [hplace]
        exact Or.inr (Or.inl rfl)
      · exact Or.inr (Or.inr rfl)
    · have hbefore := (h.others _ hplace).symm.trans hget
      rw [leg_file follow rest hname hget, leg_file follow rest hname hbefore]
      exact Or.inl rfl
  | link place piece rest target hname hget =>
    have hbefore := h.get?_of_ne hget fun heq => by cases heq
    rw [leg_link follow rest hname hget, leg_link follow rest hname hbefore]
    exact Or.inl rfl

theorem walk_moved (h : Moved t t' q (.file mode content)) (follow : Bool) (links : Nat)
    (place : Place) (pieces : List (List Char)) :
    t'.walk follow links place pieces = t.walk follow links place pieces
      ∨ t'.walk follow links place pieces = .entry q (.file mode content)
      ∨ t'.walk follow links place pieces = .refused .notADirectory := by
  induction links, place, pieces using walk_induction t follow with
  | landed links place pieces l hl =>
    rcases leg_moved h follow place pieces with hsame | hfile | hrefused
    · rw [walk_of_landed hl, walk_of_landed (hsame.trans hl)]
      exact Or.inl rfl
    · exact Or.inr (Or.inl (walk_of_landed hfile))
    · exact Or.inr (Or.inr (walk_of_landed hrefused))
  | stuck place pieces d target rest hl =>
    rcases leg_moved h follow place pieces with hsame | hfile | hrefused
    · rw [walk_of_turned hl, walk_of_turned (hsame.trans hl)]
      exact Or.inl rfl
    · exact Or.inr (Or.inl (walk_of_landed hfile))
    · exact Or.inr (Or.inr (walk_of_landed hrefused))
  | turned links place pieces d target rest hl ih =>
    rcases leg_moved h follow place pieces with hsame | hfile | hrefused
    · rw [walk_of_turned hl, walk_of_turned (hsame.trans hl)]
      exact ih
    · exact Or.inr (Or.inl (walk_of_landed hfile))
    · exact Or.inr (Or.inr (walk_of_landed hrefused))

/-- **Where a path leads in a tree with a file in another entry's place**:
where it led before, or to the file, or nowhere past it. -/
theorem locate_moved (h : Moved t t' q (.file mode content)) (follow : Bool) (p : Path) :
    t'.locate follow p = t.locate follow p ∨ t'.locate follow p = .entry q (.file mode content)
      ∨ t'.locate follow p = .refused .notADirectory := by
  rcases locate_cases p with hwalk | ⟨fault, -, hrefused⟩
  · rw [hwalk, hwalk, h.workingDirectory]
    exact walk_moved h follow _ _ _
  · exact Or.inl ((hrefused t' follow).trans (hrefused t follow).symm)

variable {dir : Path} {d : Place} {m : Nat}

/-- A directory that is not where it was cannot be made either. -/
theorem makeDirectory_moved (h : Moved t t' q (.file mode content)) (hdir : EndsInName dir)
    (hthere : t.locate true dir = .entry d (.directory m)) (mode' : Nat) :
    ∃ fault, t'.makeDirectory dir mode' = .error fault ∧ fault ≠ .notFound := by
  have hentry : ∃ q' e, t.locate false dir = .entry q' e := by
    rcases locate_follow (t := t) true dir with heq | ⟨q', target, hlink⟩
    · exact ⟨d, _, heq.symm.trans hthere⟩
    · exact ⟨q', _, hlink⟩
  unfold makeDirectory
  rw [hdir.isHeadOf.withoutTrailingSlashes]
  rcases locate_moved h false dir with hsame | hfile | hrefused
  · obtain ⟨q', e, he⟩ := hentry
    rw [hsame, he]
    exact ⟨_, rfl, by decide⟩
  · rw [hfile]
    exact ⟨_, rfl, by decide⟩
  · rw [hrefused]
    exact ⟨_, rfl, by decide⟩

end Tree

/-! ## The second write

What it takes to write the second file is what it took before. Only the path
of the directory may have gone by a link whose place the first file has by
now. Then it leads to no directory, and none can be made there either. -/

section Beside

variable {h : Host} {dir : Path}

/-- A directory that is not there and cannot be made. -/
theorem ends_ensureDirectory_blocked (hobliging : h.Obliging) (hne : dir.text ≠ "")
    (hkind : h.tree.kind? dir ≠ some .directory)
    (hmake : ∃ fault, h.tree.makeDirectory dir privateDirectoryMode = .error fault
      ∧ fault ≠ .notFound) :
    (ensureDirectory dir).run.Ends h fun r _ => ¬ ∃ u, r = .ok u := by
  unfold ensureDirectory
  refine (ends_isDirectory hobliging dir).run_lift_bind fun found h₁ hr => ?_
  obtain ⟨hfound, htree₁, hrefuses₁⟩ := hr
  rw [decide_eq_false hkind] at hfound
  subst hfound
  have hobliging₁ : h₁.Obliging := hobliging.of_refuses hrefuses₁
  have hall : (makeAll dir.ancestors).Ends h₁ fun r _ => ∃ fault, r = .error fault := by
    unfold Path.ancestors
    rw [makeAll, if_neg hne]
    have hend : (request (.makeDirectory dir privateDirectoryMode)).Ends h₁
        (h₁.Changed _ fun t => (t.makeDirectory dir privateDirectoryMode).map ((), ·)) :=
      h₁.changed_change _ _
    obtain ⟨fault, hfault, hnot⟩ := hmake
    refine hend.refuses.bind fun r h₂ hr => ?_
    obtain ⟨hchanged, hrefuses₂⟩ := hr
    have heq := hchanged.eq hobliging₁
    rw [htree₁, hfault] at heq
    subst heq
    have htree₂ := (hchanged.error fault rfl).1
    have hobliging₂ : h₂.Obliging := hobliging₁.of_refuses hrefuses₂
    show Program.Ends (if fault = .notFound then _ else _) h₂ _
    rw [if_neg hnot]
    rw [← htree₁, ← htree₂] at hkind
    refine (ends_isDirectory hobliging₂ dir).bind fun found h₃ hr => ?_
    have hfound := hr.1
    rw [decide_eq_false hkind] at hfound
    subst hfound
    exact ⟨fault, rfl⟩
  refine (hall.run_orFault (Q := fun r _ => ¬ ∃ u, r = .ok u) (fun u h' hr => ?_)
    fun fault h' hr => not_exists_error_eq_ok).run_bind (fun u h' hr => absurd ⟨u, rfl⟩ hr)
    fun e h' hr => not_exists_error_eq_ok
  obtain ⟨fault, hfault⟩ := hr
  cases hfault

/-- **A file can be written beside one that was written** if the tree takes
it, on a host that refuses nothing. -/
theorem ends_write_beside (hobliging : h.Obliging) (hdir : EndsInName dir) {n n' : String}
    (hn : IsNamePiece n.toList) (hn' : IsNamePiece n'.toList) {content : Bytes}
    {writeMode : WriteMode} {t made : Tree} {q : Place}
    (hwritten : Written (dir.join ⟨n⟩) content writeMode t made h.tree q) (content' : Bytes)
    (writeMode' : WriteMode) :
    (write (dir.join ⟨n'⟩) content' writeMode').run.Ends h fun r _ =>
      (∃ u, r = .ok u) ↔ h.tree.Takes dir n' writeMode' := by
  by_cases hthere : ∃ d m, h.tree.locate true dir = .entry d (.directory m)
  · obtain ⟨d, m, hthere⟩ := hthere
    exact ends_write_below hobliging hdir hn' hthere content' writeMode'
  have hnot : ¬ h.tree.Takes dir n' writeMode' := by
    intro htakes
    obtain ⟨d, m, hd, -⟩ := htakes.free
    exact hthere ⟨d, m, hd⟩
  have hkind : h.tree.kind? dir ≠ some .directory := fun hkind =>
    hthere (kind?_eq_directory_iff.1 hkind)
  have hmake : ∃ fault, h.tree.makeDirectory dir privateDirectoryMode = .error fault
      ∧ fault ≠ .notFound := by
    obtain ⟨d, m, hd⟩ := hwritten.directory
    rw [Path.directory_join hdir hn] at hd
    exact Tree.makeDirectory_moved hwritten.moved hdir hd _
  have hne : dir.text ≠ "" := by
    obtain ⟨c, hlast, -⟩ := hdir.getLast?_text
    intro hempty
    rw [hempty] at hlast
    cases hlast
  refine ends_write_of hobliging
    (fun _ _ _ _ => iff_of_false not_exists_error_eq_ok hnot) fun _ h₀ hobliging₀ htree₀ => ?_
  rw [← htree₀] at hkind hmake
  rw [Path.directory_join hdir hn']
  refine (ends_ensureDirectory_blocked hobliging₀ hne hkind hmake).run_bind (fun u h' hr => ?_)
    fun e h' hr => iff_of_false not_exists_error_eq_ok hnot
  exact absurd ⟨u, rfl⟩ hr

end Beside

end CertAuthority.Files
