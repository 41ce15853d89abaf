import CertAuthority.Proofs.Files.AtomicWrite
import CertAuthority.Proofs.Files.Names

/-!
# When a write succeeds

On a host that refuses nothing of its own, it is for the tree to say whether a
write into a directory that is there succeeds: there has to be room for a
temporary file, and that one has to get the name (`ends_write_there`). Below a
directory whose path ends in a name, a write fails for one of three reasons:
no file system takes the path, there is no room for a temporary file, or the
name is taken by what may not be replaced. If it is none of them
(`Tree.Takes`) the write succeeds (`ends_write_below`).

What a write comes to in general is known already (`ends_write`), but that it
comes to a success is another matter, because it takes more than to follow the
requests. Each of them has to be shown to be possible in the tree in which it
is made. So the requests are followed again, with the tree at hand: the
directory is found and left alone, a file of a fresh name is put into it, and
since that one is no other than the target, the question is the same as in the
tree before (`locate_target`).

A host may refuse for reasons of its own, such as permissions or a full disk,
and nothing can be promised then. To be `Obliging` is not to do so, and it is
the hypothesis of everything in this module.
-/

namespace CertAuthority

theorem not_exists_error_eq_ok {ε α : Type} {e : ε} :
    ¬ ∃ a : α, (Except.error e : Except ε α) = .ok a := by
  rintro ⟨a, ha⟩
  cases ha

/-- **A host that refuses nothing** for reasons of its own, at no time. What it
answers to a request about files is then what the tree says. -/
def Host.Obliging (h : Host) : Prop := ∀ asked r, h.refuses asked r = none

namespace Host

variable {α : Type} {h h' : Host} {r : Request}

/-- A host that refuses what an obliging one does is obliging. -/
theorem Obliging.of_refuses (hobliging : h.Obliging) (heq : h'.refuses = h.refuses) :
    h'.Obliging := by
  intro asked r
  rw [heq, hobliging]

theorem Obliging.not_mayRefuse (hobliging : h.Obliging) : ¬ ∃ r, h.MayRefuse r := by
  rintro ⟨r, asked, hrefused⟩
  exact hrefused (hobliging asked r)

/-- What the host answers, the files have answered. -/
theorem Changed.fault {f : Files.Tree → Except Files.Fault (α × Files.Tree)} {fault : Files.Fault}
    (hc : h.Changed r f (.error fault) h') (hobliging : h.Obliging) : f h.tree = .error fault := by
  rcases (hc.error fault rfl).2 with hfault | hrefused
  · exact hfault
  · rw [hobliging] at hrefused
    cases hrefused

/-- On a host that refuses nothing the files decide. -/
theorem Changed.eq {f : Files.Tree → Except Files.Fault (α × Files.Tree)}
    {a : Except Files.Fault α} (hc : h.Changed r f a h') (hobliging : h.Obliging) :
    a = (f h.tree).map Prod.fst := by
  cases a with
  | ok x =>
    rw [hc.ok x rfl]
    rfl
  | error fault =>
    rw [hc.fault hobliging]
    rfl

/-- So have they if the change has no further answer. -/
theorem Changed.fault_only {f : Files.Tree → Except Files.Fault Files.Tree} {fault : Files.Fault}
    (hc : h.Changed r (fun t => (f t).map ((), ·)) (.error fault) h') (hobliging : h.Obliging) :
    f h.tree = .error fault := by
  refine hc.error_only.2.resolve_right fun hrefused => ?_
  rw [hobliging] at hrefused
  cases hrefused

/-- What a host that refuses nothing finds. -/
theorem lookFor_eq (hobliging : h.Obliging) (path : Path) :
    (h.lookFor path).1 = h.tree.kind? path := by
  unfold lookFor refusal
  rw [hobliging]

end Host

namespace Files

open CertAuthority.Path (EndsInName IsNamePiece)
open Program (request)

namespace Tree

variable {t t' : Tree} {dir temporary : Path} {n n' : String} {d : Place} {mode mode' : Nat}
  {content : Bytes}

/-- Every name that is tried for a temporary file is a name. -/
theorem isNamePiece_temporaryName (k : Nat) : IsNamePiece (temporaryName k).toList := by
  have htext : (temporaryName k).toList
      = '.' :: 't' :: 'm' :: 'p' :: (Calendar.padded 6 k).toList := by
    unfold temporaryName
    rw [String.toList_append]
    rfl
  rw [htext]
  refine ⟨List.cons_ne_nil _ _, (fun h => by cases h), (fun h => by cases h), fun hslash => ?_⟩
  have hdigits : '/' ∈ (Calendar.padded 6 k).toList := by simpa using hslash
  exact absurd (Calendar.isDigit_of_mem_padded hdigits) (by decide)

/-- It begins with a dot. -/
theorem head?_temporaryName (k : Nat) : (temporaryName k).toList.head? = some '.' := by
  unfold temporaryName
  rw [String.toList_append]
  rfl

/-- The name of a temporary file is a name, and not the one that is taken: it is
looked for among those that differ from the target's. -/
theorem freshName?_eq_some {taken : Option String} (h : t.freshName? d taken = some n) :
    some n ≠ taken ∧ IsNamePiece n.toList := by
  unfold freshName? at h
  have hfound := List.find?_some h
  have hboth : some n ≠ taken ∧ t.get? (n :: d) = none := of_decide_eq_true hfound
  obtain ⟨k, -, rfl⟩ := List.mem_map.1 (List.mem_of_find?_eq_some h)
  exact ⟨hboth.1, isNamePiece_temporaryName k⟩

/-- Nothing has that name. -/
theorem get?_freshName? {taken : Option String} (h : t.freshName? d taken = some n) :
    t.get? (n :: d) = none := by
  unfold freshName? at h
  have hfound := List.find?_some h
  have hboth : some n ≠ taken ∧ t.get? (n :: d) = none := of_decide_eq_true hfound
  exact hboth.2

/-- A directory stays where it is if there is a new file below it. -/
theorem locate_set_below (e : Entry) (hget : t.get? (n :: d) = none)
    (h : t.locate true dir = .entry d (.directory mode)) :
    (t.set (n :: d) e).locate true dir = .entry d (.directory mode) := by
  have hleads := locate_extends (extends_set e hget) true dir
  rw [h] at hleads
  obtain ⟨e', he'⟩ := hleads
  have hland : (t.set (n :: d) e).locate true dir = .entry d e' := Leg.landed.inj he'
  have hsame : (t.set (n :: d) e).get? d = t.get? d :=
    get?_set_ne t e (List.cons_ne_self n d).symm
  rw [hland, entry_of_locate hland, hsame, ← entry_of_locate h]

/-- **A temporary file below a directory** is in it, under a name of its
own. -/
theorem createTemporary_below (hdir : EndsInName dir) (hn : IsNamePiece n.toList)
    (h : t.locate true dir = .entry d (.directory mode))
    (htemporary : t.createTemporary dir (dir.join ⟨n⟩) = .ok (temporary, t')) :
    ∃ n', n' ≠ n ∧ t.locate false temporary = .vacant d n'
      ∧ t' = t.set (n' :: d) (.file temporaryMode []) := by
  unfold createTemporary at htemporary
  rw [h, Path.fileName?_join dir hn] at htemporary
  dsimp only at htemporary
  cases hfresh : t.freshName? d (some n) with
  | none =>
    rw [hfresh] at htemporary
    cases htemporary
  | some n' =>
    rw [hfresh] at htemporary
    dsimp only at htemporary
    split_ifs at htemporary
    obtain ⟨hother, hname⟩ := freshName?_eq_some hfresh
    have hne : n' ≠ n := fun heq => hother (congrArg some heq)
    cases hfile : t.createFile (dir.join ⟨n'⟩) temporaryMode with
    | error fault =>
      rw [hfile] at htemporary
      cases htemporary
    | ok made =>
      rw [hfile] at htemporary
      cases htemporary
      -- A file that was made was made where its path led, so that was in the directory
      -- after all.
      obtain ⟨d', n'', hvacant, htree⟩ := vacant_createFile hfile
      have htaken : IsTaken dir n' := by
        by_contra hnot
        obtain ⟨fault, hfault⟩ := locate_join_refused hdir hname h hnot
        rw [hvacant] at hfault
        cases hfault
      have hjoin := locate_join hdir hname h htaken
      rw [hvacant, under] at hjoin
      cases hget : t.get? (n' :: d) with
      | some e =>
        rw [hget] at hjoin
        cases hjoin
      | none =>
        rw [hget] at hjoin
        cases hjoin
        exact ⟨n', hne, hvacant, htree⟩

/-! ## Names that can be given

A temporary file gets the name of its target in one of two ways: it replaces
what has that name, or it has the name anew. Either is a matter of the tree,
and all there is to ask is whether the name is free and the path one that file
systems take. -/

section Settle

variable (hdir : EndsInName dir) (hn : IsNamePiece n.toList)
  (h : t.locate true dir = .entry d (.directory mode)) (hne : n' ≠ n)
  (hvacant : t.locate false temporary = .vacant d n')
include hdir hn h hne hvacant

/-- **The target is found as it was**, for the temporary file has another name.
-/
theorem locate_target (htaken : IsTaken dir n) :
    (t.set (n' :: d) (.file mode' content)).locate false (dir.join ⟨n⟩)
      = t.under d n := by
  have hget := get?_of_locate_vacant hvacant
  have hplace : n :: d ≠ n' :: d := fun heq => hne (List.head_eq_of_cons_eq heq).symm
  rw [locate_join hdir hn (locate_set_below _ hget h) htaken, under, get?_set_ne _ _ hplace]
  rfl

/-- A file can replace what has a name, if the path is taken and it is no
directory. -/
theorem replace_below :
    (∃ t', (t.set (n' :: d) (.file mode' content)).replace temporary (dir.join ⟨n⟩) = .ok t')
      ↔ IsTaken dir n ∧ ∀ m, t.get? (n :: d) ≠ some (.directory m) := by
  have hget := get?_of_locate_vacant hvacant
  by_cases htaken : IsTaken dir n
  · unfold replace
    rw [if_neg (by rw [htaken.nul]; decide), movable_temporary hvacant]
    dsimp only [bind, Except.bind]
    rw [locate_target hdir hn h hne hvacant htaken, under]
    cases hentry : t.get? (n :: d) with
    | none => exact ⟨fun _ => ⟨htaken, fun m hm => by cases hm⟩, fun _ => ⟨_, rfl⟩⟩
    | some e =>
      cases e with
      | directory m =>
        exact ⟨fun hok => absurd hok not_exists_error_eq_ok, fun hnot => absurd rfl (hnot.2 m)⟩
      | file m content' => exact ⟨fun _ => ⟨htaken, fun m' hm => by cases hm⟩, fun _ => ⟨_, rfl⟩⟩
      | link target => exact ⟨fun _ => ⟨htaken, fun m' hm => by cases hm⟩, fun _ => ⟨_, rfl⟩⟩
  · obtain ⟨fault, hfault⟩ := locate_join_refused hdir hn
      (locate_set_below (.file mode' content) hget h) htaken
    refine ⟨fun hok => ?_, fun hnot => absurd hnot.1 htaken⟩
    obtain ⟨t', ht'⟩ := hok
    unfold replace at ht'
    rw [movable_temporary hvacant] at ht'
    split_ifs at ht'
    · cases ht'
    · rw [hfault] at ht'
      cases ht'

/-- It can have the name anew, if the path is taken and there is nothing. -/
theorem moveNew_below :
    (∃ t', (t.set (n' :: d) (.file mode' content)).moveNew temporary (dir.join ⟨n⟩) = .ok t')
      ↔ IsTaken dir n ∧ t.get? (n :: d) = none := by
  have hget := get?_of_locate_vacant hvacant
  by_cases htaken : IsTaken dir n
  · unfold moveNew
    rw [movable_temporary hvacant]
    dsimp only [bind, Except.bind]
    rw [locate_target hdir hn h hne hvacant htaken, under]
    cases hentry : t.get? (n :: d) with
    | none => exact ⟨fun _ => ⟨htaken, rfl⟩, fun _ => ⟨_, rfl⟩⟩
    | some e =>
      exact ⟨fun hok => absurd hok not_exists_error_eq_ok, fun hnot => by cases hnot.2⟩
  · obtain ⟨fault, hfault⟩ := locate_join_refused hdir hn
      (locate_set_below (.file mode' content) hget h) htaken
    refine ⟨fun hok => ?_, fun hnot => absurd hnot.1 htaken⟩
    obtain ⟨t', ht'⟩ := hok
    unfold moveNew at ht'
    rw [movable_temporary hvacant] at ht'
    dsimp only [bind, Except.bind] at ht'
    rw [hfault] at ht'
    cases ht'

end Settle

/-- **A name that can be given to a file** in a directory: it is free, or
belongs to a file or a link that may be replaced. -/
def IsFree (t : Tree) (d : Place) (n : String) : WriteMode → Prop
  | .createNew => t.get? (n :: d) = none
  | .overwrite => ∀ m, t.get? (n :: d) ≠ some (.directory m)

/-- Whether a temporary file can be given a name. Either it replaces what has
the name, or there must be nothing of that name. -/
def Settles (t : Tree) (temporary path : Path) : WriteMode → Prop
  | .createNew => ∃ t', t.moveNew temporary path = .ok t'
  | .overwrite => ∃ t', t.replace temporary path = .ok t'

theorem settles_iff {writeMode : WriteMode} : t.Settles temporary path writeMode
    ↔ ∃ t', t.settled temporary path writeMode = .ok t' := by
  cases writeMode with
  | createNew => rfl
  | overwrite => rfl

/-- **A tree that lets a temporary file be made** and, once it has its content,
be given the name of a path. -/
def LetsSettle (t : Tree) (path : Path) (content : Bytes) (writeMode : WriteMode) : Prop :=
  ∃ temporary t' d n, t.createTemporary path.directory path = .ok (temporary, t')
    ∧ t.locate false temporary = .vacant d n
    ∧ (t.set (n :: d) (.file privateFileMode content)).Settles temporary path writeMode

/-- **Below a directory a file can be given a name** if the path is taken and
the name is free. -/
theorem settles_below (hdir : EndsInName dir) (hn : IsNamePiece n.toList)
    (h : t.locate true dir = .entry d (.directory mode)) (hne : n' ≠ n)
    (hvacant : t.locate false temporary = .vacant d n') {writeMode : WriteMode} :
    (t.set (n' :: d) (.file mode' content)).Settles temporary (dir.join ⟨n⟩) writeMode
      ↔ IsTaken dir n ∧ t.IsFree d n writeMode := by
  cases writeMode with
  | createNew => exact moveNew_below hdir hn h hne hvacant
  | overwrite => exact replace_below hdir hn h hne hvacant

/-- **A tree that takes a file** of a name below a directory. These are all the
reasons that a tree can have to refuse a write there, and none of them depends
on the content. -/
structure Takes (t : Tree) (dir : Path) (n : String) (mode : WriteMode) : Prop where
  /-- File systems take the path. -/
  taken : IsTaken dir n
  /-- There is room for a temporary file. -/
  temporary : ∃ x, t.createTemporary dir (dir.join ⟨n⟩) = .ok x
  /-- The directory is there, and the name can be given to a file in it. -/
  free : ∃ d m, t.locate true dir = .entry d (.directory m) ∧ t.IsFree d n mode

end Tree

/-! ## Writes into a directory

On a host that refuses nothing a write fails only for what the tree has. In a
directory that is there, that is three things: something at the target that
may not be replaced, no room for a temporary file, or a name that cannot be
given to it. -/

section There

variable {h : Host} {path dir temporary : Path} {n : String} {d : Place} {mode : Nat}
  {content : Bytes} {writeMode : WriteMode}

/-- A path that leads to a directory is found to. -/
theorem kind?_directory {t : Tree} (h : t.locate true dir = .entry d (.directory mode)) :
    t.kind? dir = some .directory := by
  unfold Tree.kind?
  rw [h]

theorem kind?_eq_directory_iff {t : Tree} :
    t.kind? dir = some .directory ↔ ∃ d mode, t.locate true dir = .entry d (.directory mode) := by
  constructor
  · intro h
    unfold Tree.kind? at h
    split at h
    · cases h
    · rename_i d mode hd
      exact ⟨d, mode, hd⟩
    · cases h
  · rintro ⟨d, mode, hd⟩
    exact kind?_directory hd

/-- **Looking for a directory** finds whether there is one. -/
theorem ends_isDirectory (hobliging : h.Obliging) (dir : Path) :
    (isDirectory dir).Ends h fun found h' =>
      found = decide (h.tree.kind? dir = some .directory) ∧ h'.tree = h.tree
        ∧ h'.refuses = h.refuses := by
  have hkind : (request (.kind dir)).Ends h fun found h' =>
      found = h.tree.kind? dir ∧ h'.tree = h.tree ∧ h'.refuses = h.refuses :=
    ⟨Host.lookFor_eq hobliging dir, (h.refuses_lookFor dir).2, (h.refuses_lookFor dir).1⟩
  refine hkind.bind fun found h' hr => ?_
  obtain ⟨rfl, htree, hrefuses⟩ := hr
  exact ⟨rfl, htree, hrefuses⟩

/-- A directory that is there is left alone. -/
theorem ends_ensureDirectory_there (hobliging : h.Obliging)
    (hthere : h.tree.locate true dir = .entry d (.directory mode)) :
    (ensureDirectory dir).run.Ends h fun r h' =>
      r = .ok () ∧ h'.tree = h.tree ∧ h'.refuses = h.refuses := by
  unfold ensureDirectory
  refine (ends_isDirectory hobliging dir).run_lift_bind fun found h' hr => ?_
  obtain ⟨hfound, htree, hrefuses⟩ := hr
  rw [kind?_directory hthere, decide_eq_true rfl] at hfound
  subst hfound
  exact ⟨rfl, htree, hrefuses⟩

/-- **Giving a file its name** on a host that refuses nothing: an error is the
tree's. -/
theorem ends_settle_obliging (hobliging : h.Obliging) {Q : Except Error Unit → Host → Prop}
    (hok : ∀ h' : Host, h.tree.settled temporary path writeMode = .ok h'.tree → Q (.ok ()) h')
    (herror : ∀ fault (h' : Host), h.tree.settled temporary path writeMode = .error fault →
      Q (.error (.ofFault path fault)) h') :
    (settle temporary path writeMode).run.Ends h Q := by
  refine ends_settle_of hok fun fault h' _ hwhy => herror fault h' (hwhy.resolve_right ?_)
  rintro ⟨r, hrefused⟩
  rw [hobliging] at hrefused
  cases hrefused

/-- **A temporary file gets its name** just when the tree lets it. -/
theorem ends_settle_iff (hobliging : h.Obliging) :
    (settle temporary path writeMode).run.Ends h fun r _ =>
      (∃ u, r = .ok u) ↔ h.tree.Settles temporary path writeMode := by
  rw [Tree.settles_iff]
  refine ends_settle_obliging hobliging (fun h' hsettled => ?_) fun fault h' hfault => ?_
  · exact iff_of_true ⟨(), rfl⟩ ⟨_, hsettled⟩
  · rw [hfault]
    exact iff_of_false not_exists_error_eq_ok not_exists_error_eq_ok

/-- **The last part of a write**, once the directory is there: a file under a
name of its own becomes the target. -/
def writeByName (path : Path) (content : Bytes) (mode : WriteMode) : Action Unit := do
  let temporary ← Action.orFault path.directory (request (.createTemporary path.directory path))
  try fillAndSettle temporary path content mode
  catch e =>
    discard temporary
    throw e
  Action.note (.fileWritten path content.length mode)

/-- It ends as the file gets its name, or does not, if there is room for it. -/
theorem ends_writeByName_of (hobliging : h.Obliging) {Q : Except Error Unit → Host → Prop}
    (hnone : ∀ fault (h' : Host), h.tree.createTemporary path.directory path = .error fault →
      h'.tree = h.tree → Q (.error (.ofFault path.directory fault)) h')
    (hsettle : ∀ temporary tree d n (h₁ : Host),
      h.tree.createTemporary path.directory path = .ok (temporary, tree) →
      h.tree.locate false temporary = .vacant d n → h₁.Obliging →
      h₁.tree = h.tree.set (n :: d) (.file privateFileMode content) →
        (settle temporary path writeMode).run.Ends h₁ fun r h₂ =>
          match r with
          | .ok _ => ∀ h' : Host, h'.tree = h₂.tree → Q (.ok ()) h'
          | .error e => (discard temporary).run.Ends h₂ fun _ h' => Q (.error e) h') :
    (writeByName path content writeMode).run.Ends h Q := by
  have hcreate : (request (.createTemporary path.directory path)).Ends h
      (h.Changed _ fun t => t.createTemporary path.directory path) := h.changed_change _ _
  refine (hcreate.run_orFault (Q := fun r h' => match r with
    | .ok temporary => h'.refuses = h.refuses
      ∧ h.tree.createTemporary path.directory path = .ok (temporary, h'.tree)
    | .error e => Q (.error e) h')
    (fun temporary h' hr => ⟨hr.refuses, hr.ok _ rfl⟩) fun fault h' hr => ?_).run_bind
    (fun temporary h₁ hr => ?_) fun e h' hr => hr
  · exact hnone fault h' (hr.fault hobliging) (hr.error fault rfl).1
  obtain ⟨hrefuses, hmade⟩ := hr
  obtain ⟨-, d, n, hvacant, htree⟩ := Tree.vacant_createTemporary hmade
  have hobliging₁ : h₁.Obliging := hobliging.of_refuses hrefuses
  -- No request is refused, so what is left to fail is giving the file its name.
  refine ((ends_fillAndSettle_of hvacant htree (fun h' hrefuses' ht =>
    hsettle temporary _ d n h' hmade hvacant (hobliging₁.of_refuses hrefuses') ht)
    fun e h' content' hrefused _ => absurd hrefused hobliging₁.not_mayRefuse).run_tryCatch
    (Q := fun r h₂ => match r with
      | .ok _ => ∀ h' : Host, h'.tree = h₂.tree → Q (.ok ()) h'
      | .error e => Q (.error e) h₂) (fun u h' hr => hr) fun e h' hr => ?_).run_bind
    (fun u h' hr => hr _ rfl) fun e h' hr => hr
  have hdiscard : (discard temporary).run.Ends h' fun r _ => r = .ok () := rfl
  exact (hdiscard.and hr).run_bind (fun u h₂ hr => hr.2) fun e h₂ he => by cases he.1

/-- **A write** looks, if nothing may be replaced, then sees to the directory
and does the rest. -/
theorem ends_write_of (hobliging : h.Obliging) {Q : Except Error Unit → Host → Prop}
    (hrefused : writeMode = .createNew → h.tree.kind? path ≠ none → ∀ h' : Host,
      h'.tree = h.tree → Q (.error (.fileAlreadyExists path)) h')
    (hproceed : (writeMode = .createNew → h.tree.kind? path = none) → ∀ h' : Host, h'.Obliging →
      h'.tree = h.tree → (do
        ensureDirectory path.directory
        writeByName path content writeMode : Action Unit).run.Ends h' Q) :
    (write path content writeMode).run.Ends h Q := by
  unfold write
  extract_lets dir proceed
  by_cases hmode : writeMode = .createNew
  · rw [if_pos hmode]
    have hkind : (request (.kind path)).Ends h fun found h' =>
        found = h.tree.kind? path ∧ h'.refuses = h.refuses ∧ h'.tree = h.tree :=
      ⟨Host.lookFor_eq hobliging _, h.refuses_lookFor _⟩
    refine hkind.run_lift_bind fun found h₀ hr => ?_
    obtain ⟨hfound, hrefuses₀, htree₀⟩ := hr
    split_ifs with hsome
    · refine hrefused hmode (fun hnone => ?_) _ htree₀
      rw [hfound, hnone] at hsome
      cases hsome
    · have hnone : h.tree.kind? path = none := by
        rwa [← hfound, ← Option.not_isSome_iff_eq_none]
      exact hproceed (fun _ => hnone) h₀ (hobliging.of_refuses hrefuses₀) htree₀
  · rw [if_neg hmode]
    exact hproceed (fun hnew => absurd hnew hmode) h hobliging rfl

/-- **A write into a directory that is there** succeeds if nothing speaks
against it, there is room for a temporary file, and that one can be given the
name. -/
theorem ends_write_there (hobliging : h.Obliging)
    (hthere : h.tree.locate true path.directory = .entry d (.directory mode)) (content : Bytes)
    (writeMode : WriteMode) :
    (write path content writeMode).run.Ends h fun r _ => (∃ u, r = .ok u)
      ↔ (writeMode = .createNew → h.tree.kind? path = none)
        ∧ h.tree.LetsSettle path content writeMode := by
  refine ends_write_of hobliging (fun hmode hkind h' _ => ?_) fun hnew h₀ hobliging₀ htree₀ => ?_
  · exact iff_of_false not_exists_error_eq_ok fun hlets => hkind (hlets.1 hmode)
  rw [← htree₀] at hthere hnew ⊢
  refine (ends_ensureDirectory_there hobliging₀ hthere).run_bind_ok fun h₁ hr => ?_
  obtain ⟨htree₁, hrefuses₁⟩ := hr
  rw [← htree₁] at hnew ⊢
  refine ends_writeByName_of (hobliging₀.of_refuses hrefuses₁) (fun fault h' hfault _ => ?_)
    fun temporary tree d' n' h₂ hmade hvacant hobliging₂ htree₂ => ?_
  · refine iff_of_false not_exists_error_eq_ok ?_
    rintro ⟨-, temporary, t', d', n', hmade, -⟩
    rw [hfault] at hmade
    cases hmade
  -- Which temporary file is made is settled by the tree, so there is one to ask about.
  have hlets : (writeMode = .createNew → h₁.tree.kind? path = none)
      ∧ h₁.tree.LetsSettle path content writeMode ↔ h₂.tree.Settles temporary path writeMode := by
    rw [and_iff_right hnew, htree₂]
    refine ⟨?_, fun hsettles => ⟨temporary, tree, d', n', hmade, hvacant, hsettles⟩⟩
    rintro ⟨temporary', t', d'', n'', hmade', hvacant', hsettles⟩
    rw [hmade] at hmade'
    cases hmade'
    rw [hvacant] at hvacant'
    cases hvacant'
    exact hsettles
  refine (ends_settle_iff hobliging₂).mono fun r h' hr => ?_
  cases r with
  | ok u => exact fun _ _ => iff_of_true ⟨(), rfl⟩ (hlets.2 (hr.1 ⟨u, rfl⟩))
  | error e =>
    exact iff_of_false not_exists_error_eq_ok fun hok =>
      not_exists_error_eq_ok (hr.2 (hlets.1 hok))

end There

/-! ## Writes to a name in a directory -/

section Below

variable {h : Host} {dir : Path} {n : String} {d : Place} {mode : Nat}

/-- A free name leads to nothing, with links seen through or not. -/
theorem Tree.kind?_join_of_free {t : Tree} (hdir : EndsInName dir) (hn : IsNamePiece n.toList)
    (hthere : t.locate true dir = .entry d (.directory mode)) (htaken : Tree.IsTaken dir n)
    (hfree : t.get? (n :: d) = none) : t.kind? (dir.join ⟨n⟩) = none := by
  have hvacant := Tree.locate_join hdir hn hthere htaken
  rw [Tree.under, hfree] at hvacant
  unfold Tree.kind?
  rcases Tree.locate_follow (t := t) true (dir.join ⟨n⟩) with heq | ⟨q, target, hq⟩
  · rw [heq, hvacant]
  · rw [hvacant] at hq
    cases hq

/-- **A write to a name in a directory succeeds if the tree takes the
file**, on a host that refuses nothing. -/
theorem ends_write_below (hobliging : h.Obliging) (hdir : EndsInName dir)
    (hn : IsNamePiece n.toList) (hthere : h.tree.locate true dir = .entry d (.directory mode))
    (content : Bytes) (writeMode : WriteMode) :
    (write (dir.join ⟨n⟩) content writeMode).run.Ends h fun r _ =>
      (∃ u, r = .ok u) ↔ h.tree.Takes dir n writeMode := by
  have hdirectory : (dir.join ⟨n⟩).directory = dir := Path.directory_join hdir hn
  have hthere' : h.tree.locate true (dir.join ⟨n⟩).directory = .entry d (.directory mode) := by
    rw [hdirectory]
    exact hthere
  have hwrite := ends_write_there hobliging hthere' content writeMode
  refine hwrite.mono fun r h' hr => hr.trans ⟨?_, fun ht => ?_⟩
  · rintro ⟨-, temporary, t', d', n', hmade, hvacant, hsettles⟩
    rw [hdirectory] at hmade
    obtain ⟨n'', hne, hvacant', -⟩ := Tree.createTemporary_below hdir hn hthere hmade
    rw [hvacant'] at hvacant
    cases hvacant
    obtain ⟨htaken, hfree⟩ := (Tree.settles_below hdir hn hthere hne hvacant').1 hsettles
    exact ⟨htaken, ⟨_, hmade⟩, d, mode, hthere, hfree⟩
  · obtain ⟨d', m, hthere', hfree⟩ := ht.free
    rw [hthere] at hthere'
    cases hthere'
    refine ⟨fun hmode => ?_, ?_⟩
    · subst hmode
      exact Tree.kind?_join_of_free hdir hn hthere ht.taken hfree
    · obtain ⟨⟨temporary, t'⟩, hmade⟩ := ht.temporary
      obtain ⟨n', hne, hvacant, -⟩ := Tree.createTemporary_below hdir hn hthere hmade
      refine ⟨temporary, t', d, n', by rw [hdirectory]; exact hmade, hvacant, ?_⟩
      exact (Tree.settles_below hdir hn hthere hne hvacant).2 ⟨ht.taken, hfree⟩

end Below

end Files

end CertAuthority
