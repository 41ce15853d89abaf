import CertAuthority.Proofs.Files.Ancestors
import CertAuthority.Proofs.Files.Walk
import CertAuthority.Proofs.Program.Run
import Mathlib.Tactic.SplitIfs

/-!
# Files are written in one piece

A write goes through three kinds of trees. First the missing directories
along the way to the target are made, one at a time, and nothing else
changes (`Tree.WayMade`, which every answer preserves). Then there is one
more file, under a name of its own, which is filled and restricted. Last the
file gets the target's name, or is removed, and in both cases its own name
is as vacant as it was.

So a write that succeeds has changed the target and made directories, and
one that fails has made directories at most, at whatever request it was
refused (`ends_write`). There is one exception, and it is the last request of a
write that has failed: to remove the file that was to become the target. Nobody
looks at the answer, so if it is that request that the host refuses, the file
stays, which nobody but its owner can read (`Unwritten.leftover`). What the host
refuses at other times makes no difference.
-/

namespace CertAuthority.Files

open Program (request)

namespace Tree

variable {t t' : Tree} {dir path : Path}

/-! ## Directories on the way

Before a file is written, the directories that its path goes by are made if
they are missing. Some of them may have been made when one of them is refused,
so the relation has to be transitive and to hold of no step at all. -/

/-- **A place on the way to a directory**: where the first pieces of its
path lead. -/
def OnTheWay (t : Tree) (dir : Path) (p : Place) : Prop :=
  ∃ ps, ps <+: piecesOf dir
    ∧ ∃ e, t.walk true mostLinks (startOf dir t.workingDirectory) ps = .entry p e

/-- What is on the way in one tree is on the way in every larger one. -/
theorem OnTheWay.mono {p : Place} (hp : t.OnTheWay dir p) (h : Extends t t') :
    t'.OnTheWay dir p := by
  obtain ⟨ps, hps, e, he⟩ := hp
  have hleads := walk_extends h true mostLinks (startOf dir t.workingDirectory) ps
  rw [he] at hleads
  obtain ⟨e', he'⟩ := hleads
  refine ⟨ps, hps, e', ?_⟩
  rw [h.workingDirectory]
  exact Leg.landed.inj he'

/-- **A tree in which directories were made on the way to one.** What is
there was there already, as it is, or is a private directory on the way. -/
structure WayMade (dir : Path) (t t' : Tree) : Prop where
  /-- Relative paths start in the same directory. -/
  workingDirectory : t'.workingDirectory = t.workingDirectory
  /-- What is there. -/
  get? : ∀ p, t'.get? p = t.get? p
    ∨ t.get? p = none ∧ t'.get? p = some (.directory privateDirectoryMode) ∧ t'.OnTheWay dir p

namespace WayMade

theorem toExtends (h : WayMade dir t t') : Extends t t' := by
  refine ⟨h.workingDirectory, fun p e hp => ?_⟩
  rcases h.get? p with heq | ⟨hnone, -, -⟩
  · exact heq.trans hp
  · rw [hnone] at hp
    cases hp

theorem refl (dir : Path) (t : Tree) : WayMade dir t t := ⟨rfl, fun _ => Or.inl rfl⟩

theorem trans {t'' : Tree} (h : WayMade dir t t') (h' : WayMade dir t' t'') :
    WayMade dir t t'' := by
  refine ⟨h'.workingDirectory.trans h.workingDirectory, fun p => ?_⟩
  rcases h'.get? p with heq' | ⟨hnone', hmade', hway'⟩
  · rcases h.get? p with heq | ⟨hnone, hmade, hway⟩
    · exact Or.inl (heq'.trans heq)
    · exact Or.inr ⟨hnone, heq'.trans hmade, hway.mono h'.toExtends⟩
  · exact Or.inr ⟨h.toExtends.get?_eq_none hnone', hmade', hway'⟩

/-- Only what is there matters, not how the tree keeps it. -/
theorem congr {t'' : Tree} (h : WayMade dir t t')
    (hdir : t''.workingDirectory = t'.workingDirectory) (hget : ∀ p, t''.get? p = t'.get? p) :
    WayMade dir t t'' :=
  h.trans ⟨hdir, fun p => Or.inl (hget p)⟩

end WayMade

/-- The top of the file system is there. -/
theorem locate_top (t : Tree) :
    t.locate false (withoutTrailingSlashes ⟨"/"⟩)
      = .entry [] ((t.get? []).getD (.directory plainDirectoryMode)) := by
  have hpath : withoutTrailingSlashes ⟨"/"⟩ = ⟨"/"⟩ := rfl
  have hpieces : piecesOf ⟨"/"⟩ = [['.']] := rfl
  rw [hpath, locate, if_neg (by decide), if_neg (by decide), if_neg (by decide +kernel), hpieces]
  exact walk_of_landed (leg_dot t false [] [])

/-- **Making a directory above a path** is a step on the way. -/
theorem wayMade_makeDirectory {p : Path} (hp : p ∈ path.directory.ancestors) (hne : p.text ≠ "")
    (h : t.makeDirectory p privateDirectoryMode = .ok t') : WayMade path.directory t t' := by
  unfold makeDirectory at h
  cases hend : t.locate false (withoutTrailingSlashes p) with
  | entry q e =>
    rw [hend] at h
    cases h
  | refused fault =>
    rw [hend] at h
    cases h
  | vacant d n =>
    rw [hend] at h
    cases h
    have hget := get?_of_locate_vacant hend
    refine ⟨rfl, fun q => ?_⟩
    rw [get?_set]
    split_ifs with hq
    · refine Or.inr ⟨hq ▸ hget, rfl, ?_⟩
      rcases Path.ancestors_directory_cases hp with hempty | htop | hhead
      · exact absurd hempty hne
      -- The top is there, so it was not vacant.
      · obtain ⟨text⟩ := p
        subst htop
        rw [locate_top] at hend
        cases hend
      · rw [hhead.withoutTrailingSlashes] at hend
        have hlocate := locate_set_vacant (e := .directory (grantedMode privateDirectoryMode)) true
          hend (fun target h => by cases h)
        have hwalk := walk_of_locate hlocate
        rw [startOf, hhead.isAbsolute] at hwalk
        rw [hq]
        exact ⟨_, hhead.piecesOf, _, hwalk⟩
    · exact Or.inl rfl

/-! ## A file that is to become another

A temporary file is made, filled, restricted and then given its name or
removed. What comes of these steps together is one change (`Moved`): the file
is where its name says, and nothing is left of the name that it had before. -/

section Temporary

variable {temporary : Path} {d : Place} {n : String} {mode : Nat} {content : Bytes}

/-- A file at a vacant name is what the path leads to. -/
theorem locate_temporary (h : t.locate false temporary = .vacant d n) (follow : Bool) :
    (t.set (n :: d) (.file mode content)).locate follow temporary
      = .entry (n :: d) (.file mode content) :=
  locate_set_vacant follow h fun _ hlink => by cases hlink

/-- It can be filled, and has the content then and no other. -/
theorem fill_temporary (h : t.locate false temporary = .vacant d n) (content' : Bytes) :
    (t.set (n :: d) (.file mode content)).fill temporary content'
      = .ok (t.set (n :: d) (.file mode content')) := by
  rw [fill, locate_temporary h]
  show Except.ok _ = _
  rw [set_set]

theorem restrict_temporary (h : t.locate false temporary = .vacant d n) (mode' : Nat) :
    (t.set (n :: d) (.file mode content)).restrict temporary mode'
      = .ok (t.set (n :: d) (.file mode' content)) := by
  rw [restrict, locate_temporary h]
  show Except.ok _ = _
  rw [set_set]

theorem movable_temporary (h : t.locate false temporary = .vacant d n) :
    (t.set (n :: d) (.file mode content)).movable temporary
      = .ok (n :: d, .file mode content) := by
  rw [movable, locate_temporary h]

/-- A file at a vacant name can be removed, by which the name is vacant again.
-/
theorem remove_temporary (h : t.locate false temporary = .vacant d n) :
    (t.set (n :: d) (.file mode content)).remove temporary
      = .ok ((t.set (n :: d) (.file mode content)).erase (n :: d)) := by
  rw [remove, movable_temporary h]
  rfl

/-- **A file takes another's place**: it is there, its own name is vacant
again, and the rest is as it was. -/
structure Moved (t t' : Tree) (q : Place) (e : Entry) : Prop where
  /-- Relative paths start in the same directory. -/
  workingDirectory : t'.workingDirectory = t.workingDirectory
  /-- The file is there. -/
  self : t'.get? q = some e
  /-- The rest. -/
  others : ∀ p, p ≠ q → t'.get? p = t.get? p

/-- What is there and is not the file was there before. -/
theorem Moved.get?_of_ne {q p : Place} {e : Entry} {r : Option Entry} (h : Moved t t' q e)
    (hget : t'.get? p = r) (hne : r ≠ some e) : t.get? p = r := by
  have hp : p ≠ q := by
    rintro rfl
    exact hne (hget.symm.trans h.self)
  exact (h.others p hp).symm.trans hget

/-- A file that is put at a vacant name, taken away and put elsewhere has taken
the place there, and nothing tells of the name it had before. -/
theorem moved_set_erase {q : Place} {e : Entry} (hget : t.get? q = none) (q' : Place) :
    Moved t (((t.set q e).erase q).set q' e) q' e := by
  refine ⟨rfl, get?_set_self _ _ _, fun p hp => ?_⟩
  rw [get?_set_ne _ _ hp, get?_erase_set e hget]

/-- **To replace a target by a file** is to have the file take the target's
place, which was no directory. -/
theorem moved_replace (h : t.locate false temporary = .vacant d n) {target : Path}
    (hreplace : (t.set (n :: d) (.file mode content)).replace temporary target = .ok t') :
    ∃ q, (t.locate false target).place? = some q ∧ (∀ m, t.get? q ≠ some (.directory m))
      ∧ Moved t t' q (.file mode content) := by
  have hget := get?_of_locate_vacant h
  have hplace := place?_locate_set_file hget mode content false target
  have hext := extends_set (.file mode content) hget
  -- What is replaced is no directory, in the larger tree and so in the smaller one.
  have hnot : ∀ q e, (t.set (n :: d) (.file mode content)).locate false target = .entry q e →
      (∀ m, e ≠ .directory m) → ∀ m, t.get? q ≠ some (.directory m) := by
    intro q e hend hne m hdirectory
    have hentry := entry_of_locate hend
    rw [hext.get? _ _ hdirectory] at hentry
    exact hne m hentry
  unfold replace at hreplace
  rw [movable_temporary h] at hreplace
  split_ifs at hreplace
  · cases hreplace
  · cases hend : (t.set (n :: d) (.file mode content)).locate false target with
    | vacant d' n' =>
      rw [hend] at hreplace hplace
      cases hreplace
      have hnone := hext.get?_eq_none (get?_of_locate_vacant hend)
      refine ⟨_, hplace.symm, fun m hdirectory => ?_, moved_set_erase hget _⟩
      rw [hnone] at hdirectory
      cases hdirectory
    | entry q e =>
      rw [hend] at hreplace hplace
      cases e with
      | directory mode' => cases hreplace
      | file mode' content' =>
        cases hreplace
        exact ⟨_, hplace.symm, hnot _ _ hend (fun m h => by cases h), moved_set_erase hget _⟩
      | link target' =>
        cases hreplace
        exact ⟨_, hplace.symm, hnot _ _ hend (fun m h => by cases h), moved_set_erase hget _⟩
    | refused fault =>
      rw [hend] at hreplace
      cases hreplace

/-- **To give a file a new name** is the same, and there was nothing of that
name. -/
theorem moved_moveNew (h : t.locate false temporary = .vacant d n) {target : Path}
    (hmove : (t.set (n :: d) (.file mode content)).moveNew temporary target = .ok t') :
    ∃ q, (t.locate false target).place? = some q ∧ t.get? q = none
      ∧ Moved t t' q (.file mode content) := by
  have hget := get?_of_locate_vacant h
  have hplace := place?_locate_set_file hget mode content false target
  unfold moveNew at hmove
  rw [movable_temporary h] at hmove
  cases hend : (t.set (n :: d) (.file mode content)).locate false target with
  | vacant d' n' =>
    rw [hend] at hmove hplace
    cases hmove
    have hext := extends_set (.file mode content) hget
    exact ⟨_, hplace.symm, hext.get?_eq_none (get?_of_locate_vacant hend), moved_set_erase hget _⟩
  | entry q e =>
    rw [hend] at hmove
    cases hmove
  | refused fault =>
    rw [hend] at hmove
    cases hmove

/-- A file that could be made was made at a vacant name. -/
theorem vacant_createFile (h : t.createFile temporary mode = .ok t') :
    ∃ d n, t.locate false temporary = .vacant d n ∧ t' = t.set (n :: d) (.file mode []) := by
  unfold createFile at h
  split at h
  · rename_i d n hend
    cases h
    exact ⟨d, n, hend, rfl⟩
  · cases h
  · cases h

/-- A file is made where there was nothing, in a directory that is there. -/
theorem vacant_createTemporary {target : Path}
    (h : t.createTemporary dir target = .ok (temporary, t')) :
    (∃ d m, t.locate true dir = .entry d (.directory m))
      ∧ ∃ d n, t.locate false temporary = .vacant d n
        ∧ t' = t.set (n :: d) (.file temporaryMode []) := by
  unfold createTemporary at h
  split at h
  · rename_i place m hplace
    refine ⟨⟨place, m, hplace⟩, ?_⟩
    split at h
    · cases h
    · rename_i name hname
      dsimp only at h
      split_ifs at h
      cases hfile : t.createFile (dir.join ⟨name⟩) temporaryMode with
      | error fault =>
        rw [hfile] at h
        cases h
      | ok made =>
        rw [hfile] at h
        cases h
        exact vacant_createFile hfile
  · cases h
  · cases h
  · cases h

end Temporary

end Tree

/-! ## What a write asks for

Which requests are made can be read off the program, whatever the answers are.
So much is enough to know that seeing to a directory makes directories on the
way and nothing else, since every single one of these requests does no more.
-/

variable {h h' : Host} {path temporary : Path} {content : Bytes} {mode : WriteMode}

section Asks

variable {P : Request → Prop} (hkind : ∀ p, P (.kind p))
include hkind

/-- To see whether there is a directory takes a look. -/
theorem asks_isDirectory (p : Path) : (isDirectory p).Asks P :=
  Program.Asks.bind (Program.asks_request (hkind p)) fun _ => trivial

/-- To make one directory takes the request, and a look if there is one already.
-/
theorem asks_makeOne {p : Path} (hmake : P (.makeDirectory p privateDirectoryMode)) :
    (makeOne p).Asks P := by
  refine Program.Asks.bind (Program.asks_request hmake) fun r => ?_
  cases r with
  | ok u => trivial
  | error fault => exact (asks_isDirectory hkind p).bind fun _ => trivial

/-- To make several takes the requests for each of them, but for paths that have
no text. -/
theorem asks_makeAll {ps : List Path}
    (hmake : ∀ p ∈ ps, p.text ≠ "" → P (.makeDirectory p privateDirectoryMode)) :
    (makeAll ps).Asks P := by
  induction ps with
  | nil => trivial
  | cons p above ih =>
    rw [makeAll]
    split_ifs with hempty
    · trivial
    have hp := hmake p List.mem_cons_self hempty
    refine Program.Asks.bind (Program.asks_request hp) fun r => ?_
    cases r with
    | ok u => trivial
    | error fault =>
      show (if fault = .notFound then _ else _ : Program _).Asks _
      split_ifs
      · refine (ih fun q hq => hmake q (List.mem_cons_of_mem _ hq)).bind fun r => ?_
        cases r with
        | ok u => exact asks_makeOne hkind hp
        | error fault => trivial
      · exact (asks_isDirectory hkind p).bind fun _ => trivial

/-- **Seeing to a directory** takes looks, directories on the way and a note. -/
theorem asks_ensureDirectory {dir : Path} (hnote : ∀ e, P (.note e))
    (hmake : ∀ p ∈ dir.ancestors, p.text ≠ "" → P (.makeDirectory p privateDirectoryMode)) :
    (ensureDirectory dir).run.Asks P := by
  unfold ensureDirectory
  refine (asks_isDirectory hkind dir).run_lift.run_bind fun found => ?_
  split_ifs
  · trivial
  · exact (asks_makeAll hkind hmake).run_orFault.run_bind fun _ => Program.asks_note (hnote _)

end Asks

/-- **Giving a file its name** takes one request, and a note if it comes too
late. -/
theorem asks_settle {P : Request → Prop} (hnote : ∀ e, P (.note e))
    (hreplace : ∀ source target, P (.replace source target))
    (hmove : ∀ source target, P (.moveNew source target)) (temporary path : Path)
    (mode : WriteMode) : (settle temporary path mode).run.Asks P := by
  cases mode with
  | overwrite => exact Program.Asks.run_orFault (Program.asks_request (hreplace _ _))
  | createNew =>
    refine Program.Asks.run_bind (Program.Asks.run_lift (Program.asks_request (hmove _ _)))
      fun r => ?_
    cases r with
    | ok u => trivial
    | error fault =>
      show Program.Asks P (ExceptT.run (if fault = Fault.alreadyExists then _ else _))
      split_ifs
      · exact Program.Asks.run_bind (Program.asks_note (hnote _)) fun _ => trivial
      · trivial

/-- To discard a file is to ask for its removal, and for nothing else whatever
the answer is. -/
theorem asks_discard {P : Request → Prop} (hremove : ∀ p, P (.remove p)) (temporary : Path) :
    (discard temporary).run.Asks P :=
  Program.Asks.run_bind (Program.Asks.run_lift (Program.asks_request (hremove _))) fun _ => trivial

/-- The requests of a program that sees to a directory: it looks, makes
directories at or above that one, and leaves notes. -/
def SeesTo (dir : Path) : Request → Prop
  | .makeDirectory p mode => p ∈ dir.ancestors ∧ p.text ≠ "" ∧ mode = privateDirectoryMode
  | r => r.looks = true

/-- Each of these requests makes a directory on the way at most. -/
theorem wayMade_answer (h : Host) {r : Request} (hr : SeesTo path.directory r) :
    Tree.WayMade path.directory h.tree (h.answer r).2.tree := by
  cases r with
  | makeDirectory p mode =>
    obtain ⟨hp, hne, rfl⟩ := hr
    have hchanged := h.changed_change (.makeDirectory p privateDirectoryMode)
      fun t => (t.makeDirectory p privateDirectoryMode).map ((), ·)
    cases hresult : (h.answer (.makeDirectory p privateDirectoryMode)).1 with
    | ok u => exact Tree.wayMade_makeDirectory hp hne (hchanged.only u hresult)
    | error fault =>
      have hsame := (hchanged.error fault hresult).1
      exact (Tree.WayMade.refl _ _).congr (congrArg _ hsame) fun p => congrArg (·.get? p) hsame
  | note | random | today | externalKey | kind | createTemporary | fill | restrict | replace
  | moveNew | remove | read | print | complain =>
    have hsame := h.tree_answer _ (Request.looks_iff.1 hr).1
    exact (Tree.WayMade.refl _ _).congr (congrArg _ hsame) fun p => congrArg (·.get? p) hsame

/-- **Seeing to the directory of a path** makes directories on the way. -/
theorem ends_ensureDirectory (h : Host) (path : Path) :
    (ensureDirectory path.directory).run.Ends h
      fun _ h' => Tree.WayMade path.directory h.tree h'.tree :=
  (asks_ensureDirectory (P := SeesTo path.directory) (fun _ => rfl) (fun _ => rfl)
    fun _ hp hne => ⟨hp, hne, rfl⟩).runOn
    (R := fun h h' => Tree.WayMade path.directory h.tree h'.tree) (fun _ => Tree.WayMade.refl _ _)
    (fun h₁ h₂ => h₁.trans h₂) (fun h _ hr => wayMade_answer h hr) h

/-! ## The requests of a write

The file is filled, restricted and given its name, each of these if the one
before was granted. When one of them fails, the removal of the file is the
next request and the last one about files, so that it is known to have been
refused if the file is still there. -/

section Write

variable {made : Tree} {d : Place} {n : String}

/-- The tree in which a temporary file has got its name, in the one way or the
other: by replacing what has it, or by having it anew. -/
def Tree.settled (t : Tree) (temporary path : Path) : WriteMode → Except Fault Tree
  | .overwrite => t.replace temporary path
  | .createNew => t.moveNew temporary path

/-- **Giving a file its name** ends with the tree that comes of it, or with an
error about the target, which is the tree's or the host's. -/
theorem ends_settle_of {Q : Except Error Unit → Host → Prop}
    (hok : ∀ h' : Host, h.tree.settled temporary path mode = .ok h'.tree → Q (.ok ()) h')
    (herror : ∀ fault (h' : Host), h'.tree = h.tree →
      (h.tree.settled temporary path mode = .error fault
        ∨ ∃ r, h.refuses h.asked r = some fault) → Q (.error (.ofFault path fault)) h') :
    (settle temporary path mode).run.Ends h Q := by
  cases mode with
  | overwrite =>
    have hend : (request (.replace temporary path)).Ends h
        (h.Changed _ fun t => (t.replace temporary path).map ((), ·)) := h.changed_change _ _
    refine hend.run_orFault (fun u h' hr => hok h' (hr.only u rfl)) fun fault h' hr => ?_
    exact herror fault h' hr.error_only.1 (hr.error_only.2.imp_right fun hrefused => ⟨_, hrefused⟩)
  | createNew =>
    have hend : (request (.moveNew temporary path)).Ends h
        (h.Changed _ fun t => (t.moveNew temporary path).map ((), ·)) := h.changed_change _ _
    refine hend.run_lift_bind fun r h' hr => ?_
    cases r with
    | ok u => exact hok h' (hr.only u rfl)
    | error fault =>
      obtain ⟨hsame, hwhy⟩ := hr.error_only
      have hwhy' : h.tree.moveNew temporary path = .error fault
          ∨ ∃ r, h.refuses h.asked r = some fault := hwhy.imp_right fun hrefused => ⟨_, hrefused⟩
      -- A note is taken of a name that somebody else was first to give.
      by_cases hexists : fault = .alreadyExists
      · subst hexists
        exact herror _ _ hsame hwhy'
      · show Program.Ends (ExceptT.run (if fault = Fault.alreadyExists then _ else _)) h' _
        rw [if_neg hexists]
        exact herror _ _ hsame hwhy'

/-- **How a file gets its name**, or does not. -/
theorem ends_settle (hvac : made.locate false temporary = .vacant d n)
    (htree : h.tree = made.set (n :: d) (.file privateFileMode content)) :
    (settle temporary path mode).run.Ends h fun r h' =>
      match r with
      | .ok _ => ∃ q, (made.locate false path).place? = some q
        ∧ (∀ m, made.get? q ≠ some (.directory m)) ∧ (mode = .createNew → made.get? q = none)
        ∧ Tree.Moved made h'.tree q (.file privateFileMode content)
      | .error _ => h'.tree = h.tree := by
  refine ends_settle_of (fun h' hsettled => ?_) fun fault h' hsame _ => hsame
  rw [htree] at hsettled
  cases mode with
  | overwrite =>
    obtain ⟨q, hq, hnot, hmoved⟩ := Tree.moved_replace hvac hsettled
    exact ⟨q, hq, hnot, (fun hmode => by cases hmode), hmoved⟩
  | createNew =>
    obtain ⟨q, hq, hvacant, hmoved⟩ := Tree.moved_moveNew hvac hsettled
    refine ⟨q, hq, fun m hdirectory => ?_, fun _ => hvacant, hmoved⟩
    rw [hvacant] at hdirectory
    cases hdirectory

/-- **Filling a file and restricting it** are changes that the tree allows, so it
is left to give the file its name, if the host refuses neither. -/
theorem ends_fillAndSettle_of {Q : Except Error Unit → Host → Prop}
    (hvac : made.locate false temporary = .vacant d n)
    (htree : h.tree = made.set (n :: d) (.file Tree.temporaryMode []))
    (hsettle : ∀ h' : Host, h'.refuses = h.refuses →
      h'.tree = made.set (n :: d) (.file privateFileMode content) →
        (settle temporary path mode).run.Ends h' Q)
    (hrefused : ∀ e (h' : Host) content', (∃ r, h.MayRefuse r) →
      h'.tree = made.set (n :: d) (.file privateFileMode content') → Q (.error e) h') :
    (fillAndSettle temporary path content mode).run.Ends h Q := by
  have hfill : (request (.fill temporary content)).Ends h
      (h.Changed _ fun t => (t.fill temporary content).map ((), ·)) := h.changed_change _ _
  have hfilled : h.tree.fill temporary content
      = .ok (made.set (n :: d) (.file privateFileMode content)) := by
    rw [htree]
    exact Tree.fill_temporary hvac content
  refine hfill.run_orFault_allowed hfilled (fun h₁ hrefuses₁ htree₁ => ?_)
    fun e h' hr hsame => hrefused e h' [] ⟨_, hr⟩ (hsame.trans htree)
  have hrestrict : (request (.restrict temporary privateFileMode)).Ends h₁
      (h₁.Changed _ fun t => (t.restrict temporary privateFileMode).map ((), ·)) :=
    h₁.changed_change _ _
  have hrestricted : h₁.tree.restrict temporary privateFileMode
      = .ok (made.set (n :: d) (.file privateFileMode content)) := by
    rw [htree₁]
    exact Tree.restrict_temporary hvac _
  refine hrestrict.run_orFault_allowed hrestricted
    (fun h₂ hrefuses₂ htree₂ => hsettle h₂ (hrefuses₂.trans hrefuses₁) htree₂) fun e h' hr hsame => ?_
  rw [Host.MayRefuse, hrefuses₁] at hr
  exact hrefused e h' content ⟨_, hr⟩ (hsame.trans htree₁)

/-- **A file is filled, restricted and gets its name**, or stays where it
is. -/
theorem ends_fillAndSettle (hvac : made.locate false temporary = .vacant d n)
    (htree : h.tree = made.set (n :: d) (.file Tree.temporaryMode [])) :
    (fillAndSettle temporary path content mode).run.Ends h fun r h' =>
      match r with
      | .ok _ => ∃ q, (made.locate false path).place? = some q
        ∧ (∀ m, made.get? q ≠ some (.directory m)) ∧ (mode = .createNew → made.get? q = none)
        ∧ Tree.Moved made h'.tree q (.file privateFileMode content)
      | .error _ => ∃ content', h'.tree = made.set (n :: d) (.file privateFileMode content') := by
  refine ends_fillAndSettle_of hvac htree (fun h₁ _ hrestricted => ?_)
    fun e h' content' _ ht => ⟨content', ht⟩
  refine (ends_settle hvac hrestricted).mono fun r h' hr => ?_
  cases r with
  | ok u => exact hr
  | error e => exact ⟨content, hr.trans hrestricted⟩

/-- **A file whose purpose has failed is removed**, unless that very request is
refused. -/
theorem ends_discard (hvac : made.locate false temporary = .vacant d n) {content' : Bytes}
    (htree : h.tree = made.set (n :: d) (.file privateFileMode content')) :
    (discard temporary).run.Ends h fun r h' => (∃ u, r = .ok u)
      ∧ (h'.tree.workingDirectory = made.workingDirectory ∧ (∀ p, h'.tree.get? p = made.get? p)
        ∨ h'.tree = h.tree ∧ h'.HasJustRefused (.remove temporary)) := by
  have hremove : (request (.remove temporary)).Ends h
      (h.Changed _ fun t => (t.remove temporary).map ((), ·)) := h.changed_change _ _
  refine hremove.run_lift_bind fun r h' hr => ⟨⟨(), rfl⟩, ?_⟩
  have hallowed : h.tree.remove temporary
      = .ok ((made.set (n :: d) (.file privateFileMode content')).erase (n :: d)) := by
    rw [htree]
    exact Tree.remove_temporary hvac
  obtain ⟨-, ht⟩ | ⟨-, hrefused⟩ := hr.allowed hallowed
  · left
    show h'.tree.workingDirectory = _ ∧ ∀ p, h'.tree.get? p = _
    rw [ht]
    exact ⟨rfl, Tree.get?_erase_set _ (Tree.get?_of_locate_vacant hvac)⟩
  · exact Or.inr ⟨hrefused.1, hr.hasJustRefused hrefused.2⟩

end Write

/-! ## Writes

A write that fails leaves nothing behind but directories, or besides them the
temporary file, if the host has just refused to remove it. Which of the two it
is depends on that one request, whatever the host refuses at other times. -/

/-- **What becomes of a tree in which a file was written**: the file is
where the path leads, once the directories on the way are made, and nothing else
is new but these directories. Where the path leads is settled before the file
gets there. If what it replaces is a link, the path may go by that link, and
then it does not lead to the file afterwards. -/
structure Written (path : Path) (content : Bytes) (mode : WriteMode) (t made t' : Tree)
    (q : Place) : Prop where
  /-- The directories on the way. -/
  way : Tree.WayMade path.directory t made
  /-- Where the path leads; a link at its end is not seen through. -/
  leads : (made.locate false path).place? = some q
  /-- The directory the path is in is there. -/
  directory : ∃ d m, made.locate true path.directory = .entry d (.directory m)
  /-- What was there was no directory. -/
  notDirectory : ∀ m, made.get? q ≠ some (.directory m)
  /-- The file has the target's place. -/
  moved : Tree.Moved made t' q (.file privateFileMode content)
  /-- A new file was new. -/
  isNew : mode = .createNew → t.get? q = none

/-- A file that is new takes nothing away. -/
theorem Written.toExtends {path : Path} {content : Bytes} {mode : WriteMode} {t made t' : Tree}
    {q : Place} (h : Written path content mode t made t' q) (hnew : t.get? q = none) :
    Tree.Extends t t' := by
  refine ⟨h.moved.workingDirectory.trans h.way.workingDirectory, fun p e hp => ?_⟩
  have hne : p ≠ q := by
    rintro rfl
    rw [hnew] at hp
    cases hp
  rw [h.moved.others p hne]
  exact h.way.toExtends.get? p e hp

/-- **What becomes of a tree in which a file was not written**, if `refused` are
the requests that were just refused. -/
inductive Unwritten (path : Path) (refused : Request → Prop) (t t' : Tree) : Prop where
  /-- Nothing is new but directories on the way. -/
  | clean (way : Tree.WayMade path.directory t t')
  /-- The host did not let go of the file that was to become the target: the
  last request was to remove it, and was refused. -/
  | leftover {made : Tree} {temporary : Path} {d : Place} {n : String} {content : Bytes}
    (way : Tree.WayMade path.directory t made)
    (vacant : made.locate false temporary = .vacant d n)
    (tree : t' = made.set (n :: d) (.file privateFileMode content))
    (refused : refused (.remove temporary))

/-- **How a write ends**: the file is written, or it is not, and then the host
may have refused to remove the one that was to become it. -/
def WriteEnd (h : Host) (path : Path) (content : Bytes) (mode : WriteMode) {α : Type}
    (r : Except Error α) (h' : Host) : Prop :=
  match r with
  | .ok _ => ∃ made q, Written path content mode h.tree made h'.tree q
  | .error _ => Unwritten path h'.HasJustRefused h.tree h'.tree

/-- A file is made for the content, and becomes the target or is removed. -/
theorem ends_writeInto (h : Host) (path : Path) (content : Bytes) (mode : WriteMode) {made : Tree}
    {d : Place} {n : String} (hway : Tree.WayMade path.directory h.tree made)
    (hthere : ∃ d m, made.locate true path.directory = .entry d (.directory m)) {h₁ : Host}
    (hvac : made.locate false temporary = .vacant d n)
    (htree : h₁.tree = made.set (n :: d) (.file Tree.temporaryMode [])) :
    (tryCatch (fillAndSettle temporary path content mode) fun e => do
      discard temporary
      throw e : Action Unit).run.Ends h₁ (WriteEnd h path content mode) := by
  refine (ends_fillAndSettle hvac htree).run_tryCatch (fun u h' hr => ?_) fun e h₂ hr => ?_
  · obtain ⟨q, hq, hnot, hnew, hmoved⟩ := hr
    exact ⟨made, q, hway, hq, hthere, hnot, hmoved,
      fun hmode => hway.toExtends.get?_eq_none (hnew hmode)⟩
  · obtain ⟨content', htree'⟩ := hr
    refine (ends_discard hvac htree').run_bind (fun u h' hr => ?_) fun e h' hr => ?_
    · obtain ⟨-, ⟨hdir, hget⟩ | ⟨hsame, hrefused⟩⟩ := hr
      · exact .clean (hway.congr hdir hget)
      · exact .leftover hway hvac (hsame.trans htree') hrefused
    · obtain ⟨⟨u, hu⟩, -⟩ := hr
      cases hu

/-- **A write is all or nothing**, but for the file that a refused clean-up
leaves. -/
theorem ends_write (h : Host) (path : Path) (content : Bytes) (mode : WriteMode) :
    (write path content mode).run.Ends h (WriteEnd h path content mode) := by
  unfold write
  extract_lets dir proceed
  -- Once nothing speaks against the write, whatever was asked before.
  have hproceed : ∀ h₀ : Host, h₀.tree = h.tree →
      (proceed ()).run.Ends h₀ (WriteEnd h path content mode) := by
    intro h₀ htree₀
    refine (ends_ensureDirectory h₀ path).run_bind (fun u h₁ hway => ?_) fun e h₁ hway => ?_
    · rw [htree₀] at hway
      have hcreate : (request (.createTemporary path.directory path)).Ends h₁
          (h₁.Changed _ fun t => t.createTemporary path.directory path) := h₁.changed_change _ _
      refine (hcreate.run_orFault (Q := fun r h' =>
        match r with
        | .ok temporary => (∃ d m, h₁.tree.locate true path.directory = .entry d (.directory m))
          ∧ ∃ d n, h₁.tree.locate false temporary = .vacant d n
            ∧ h'.tree = h₁.tree.set (n :: d) (.file Tree.temporaryMode [])
        | .error _ => h'.tree = h₁.tree) (fun temporary h' hr => ?_) fun fault h' hr => ?_).run_bind
          (fun temporary h₂ hr => ?_) fun e h₂ hr => ?_
      · exact Tree.vacant_createTemporary (hr.ok temporary rfl)
      · exact (hr.error fault rfl).1
      · obtain ⟨hthere, d, n, hvac, htree₂⟩ := hr
        exact (ends_writeInto h path content mode hway hthere hvac htree₂).run_bind
          (fun u h' hr => hr) fun e h' hr => hr
      · exact .clean (hway.congr (congrArg _ hr) fun p => congrArg (·.get? p) hr)
    · rw [htree₀] at hway
      exact .clean hway
  by_cases hmode : mode = .createNew
  · rw [if_pos hmode]
    have hkind : (request (.kind path)).Ends h fun _ h' => h'.tree = h.tree :=
      (h.refuses_lookFor path).2
    refine hkind.run_lift_bind fun found h₀ htree₀ => ?_
    split_ifs
    · exact .clean ((Tree.WayMade.refl _ _).congr (congrArg _ htree₀)
        fun p => congrArg (·.get? p) htree₀)
    · exact hproceed h₀ htree₀
  · rw [if_neg hmode]
    exact hproceed h rfl

end CertAuthority.Files
