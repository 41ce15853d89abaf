import CertAuthority.Proofs.Files.Walk

/-!
# The outline of a tree

What shows of a file to those who may not read it is where it is, who may do
what with it and how long it is. `Tree.outline` keeps that of a tree and
blanks out the bytes, and nothing that is done to a tree depends on more
(`locate_outline`): to change a tree and then to take its outline is to take
the outline and then to change that.

There is one lemma of this form for each operation, `makeDirectory_outline` to
`remove_outline`, and each is proved from the one about walks, since an
operation is a walk and a change at the place it ends at. A file that is
filled is the one place where bytes get into a tree, and of those too no more
than their number shows (`fill_outline`). Only reading is different, and has
no such rule: whoever reads a file has more than its outline.

Two runs that write different secrets of the same size into the same tree are
compared by these lemmas request by request. Their trees differ, and have one
outline all the time.
-/

namespace CertAuthority.Files

/-- As many bytes, all of them zero. It stands for what a file holds where only
the size is to show. -/
def blanked (content : Bytes) : Bytes := List.replicate content.length 0

/-- Blanked out, two contents are told apart by their sizes only. -/
theorem blanked_eq_iff {b c : Bytes} : blanked b = blanked c ↔ b.length = c.length := by
  constructor
  · intro h
    have hlength := congrArg List.length h
    rwa [blanked, blanked, List.length_replicate, List.length_replicate] at hlength
  · intro h
    rw [blanked, blanked, h]

/-- **What shows of an entry** without a look into it. A link shows where it
leads, and a directory has nothing to hide. -/
def Entry.outline : Entry → Entry
  | .file mode content => .file mode (blanked content)
  | .directory mode => .directory mode
  | .link target => .link target

/-- **Of a file, its permissions and its size show**, and no more. -/
theorem Entry.outline_file_eq_iff {mode mode' : Nat} {content content' : Bytes} :
    (file mode content).outline = (file mode' content').outline
      ↔ mode = mode' ∧ content.length = content'.length := by
  unfold outline
  rw [Entry.file.injEq, blanked_eq_iff]

/-- What shows of where a walk ends. Only an entry has anything to blank out;
where there is none, the directory and the name are all there is. -/
def Tree.Landing.outline : Landing → Landing
  | .entry place e => .entry place e.outline
  | .vacant directory name => .vacant directory name
  | .refused fault => .refused fault

/-- What shows of one leg of a walk. Where it turns off at a link shows, as the
link does. -/
def Tree.Leg.outline : Leg → Leg
  | .landed l => .landed l.outline
  | .turned directory target rest => .turned directory target rest

namespace Tree

/-- **The outline of a tree**: what is where, with which permissions and of
which size. -/
def outline (t : Tree) : Tree :=
  { t with entries := t.entries.map fun x => (x.1, x.2.outline) }

variable (t : Tree)

/-! ## Entries -/

/-- To look an entry up and take its outline is to look it up among outlines. -/
theorem lookup_outline (entries : List (Place × Entry)) (p : Place) :
    (entries.map fun x => (x.1, x.2.outline)).lookup p = (entries.lookup p).map Entry.outline := by
  induction entries with
  | nil => rfl
  | cons x entries ih =>
    obtain ⟨q, e⟩ := x
    rw [List.map_cons, List.lookup_cons, List.lookup_cons]
    cases p == q with
    | true => rfl
    | false => exact ih

/-- What is at a place of the outline is the outline of what is there. -/
theorem get?_outline (p : Place) : t.outline.get? p = (t.get? p).map Entry.outline := by
  unfold get?
  show ((t.entries.map fun x => (x.1, x.2.outline)).lookup p).or _ = _
  rw [lookup_outline]
  cases t.entries.lookup p with
  | some e => rfl
  | none =>
    show (if p = [] ∨ p = t.workingDirectory then _ else _) = _
    split_ifs
    · rfl
    · rfl

/-- An entry that is erased is erased in the outline. -/
theorem erase_outline (p : Place) : t.outline.erase p = (t.erase p).outline := by
  unfold erase outline
  rw [List.filter_map]
  rfl

/-- One that is set is set in the outline, as far as it shows. -/
theorem set_outline (p : Place) (e : Entry) : t.outline.set p e.outline = (t.set p e).outline := by
  unfold set outline
  rw [List.filter_map]
  rfl

/-! ## Walks

Nothing on a walk looks into a file. So a tree and its outline are walked in
the same way, and where a walk ends at a file, it ends at one of the same size
and permissions. -/

/-- An entry that is there is there in the outline. Walks look entries up along
the way, and this is the form in which they need it. -/
theorem get?_outline_eq {p : Place} {r : Option Entry} (h : t.get? p = r) :
    t.outline.get? p = r.map Entry.outline := by
  rw [get?_outline, h]

/-- A leg of a walk goes by directories and links, which the outline leaves as
they are. A file that ends it is blanked out. -/
theorem leg_outline (follow : Bool) (place : Place) (pieces : List (List Char)) :
    t.outline.leg follow place pieces = (t.leg follow place pieces).outline := by
  induction place, pieces using leg_induction t with
  | nil place =>
    rw [leg_nil, leg_nil, get?_outline]
    cases t.get? place with
    | none => rfl
    | some e => rfl
  | dot place rest ih =>
    rw [leg_dot, leg_dot]
    exact ih
  | up place rest ih =>
    rw [leg_up, leg_up]
    exact ih
  | long place piece rest hlong =>
    rw [hlong, hlong]
    rfl
  | absent place piece rest hname hget =>
    rw [leg_absent follow rest hname hget,
      leg_absent follow rest hname (t.get?_outline_eq hget)]
    cases rest <;> rfl
  | directory place piece rest mode hname hget ih =>
    rw [leg_directory follow rest hname hget,
      leg_directory follow rest hname (t.get?_outline_eq hget)]
    exact ih
  | file place piece rest mode content hname hget =>
    rw [leg_file follow rest hname hget, leg_file follow rest hname (t.get?_outline_eq hget)]
    cases rest <;> rfl
  | link place piece rest target hname hget =>
    rw [leg_link follow rest hname hget, leg_link follow rest hname (t.get?_outline_eq hget)]
    cases rest <;> cases follow <;> rfl

/-- A walk is one leg after another, and turns off at the same links. -/
theorem walk_outline (follow : Bool) (links : Nat) (place : Place) (pieces : List (List Char)) :
    t.outline.walk follow links place pieces = (t.walk follow links place pieces).outline := by
  have hleg {place pieces l} (hl : t.leg follow place pieces = l) :
      t.outline.leg follow place pieces = l.outline := by rw [leg_outline, hl]
  induction links, place, pieces using walk_induction t follow with
  | landed links place pieces l hl => rw [walk_of_landed hl, walk_of_landed (hleg hl)]
  | stuck place pieces d target rest hl =>
    rw [walk_of_turned hl, walk_of_turned (hleg hl)]
    rfl
  | turned links place pieces d target rest hl ih =>
    rw [walk_of_turned hl, walk_of_turned (hleg hl)]
    exact ih

/-- **Where a path leads does not depend on what is in files.** Every operation
on a tree begins with such a walk, so the lemmas below all start here. -/
theorem locate_outline (follow : Bool) (p : Path) :
    t.outline.locate follow p = (t.locate follow p).outline := by
  rcases locate_cases p with hwalk | ⟨fault, -, hrefused⟩
  · rw [hwalk, hwalk]
    exact t.walk_outline _ _ _ _
  · rw [hrefused, hrefused]
    rfl

/-! ## What is done to a tree

Each operation on a tree commutes with taking the outline, and is refused in
both of them or in neither. The only one that has to do with content is
filling a file, and of that the outline keeps the size. -/

/-- What a path leads to is told without a look into it. -/
theorem kind?_outline (p : Path) : t.outline.kind? p = t.kind? p := by
  unfold kind?
  rw [locate_outline]
  cases t.locate true p with
  | entry place e => cases e <;> rfl
  | vacant directory name => rfl
  | refused fault => rfl

/-- A directory is made, or refused for the same reason. -/
theorem makeDirectory_outline (p : Path) (mode : Nat) :
    t.outline.makeDirectory p mode = (t.makeDirectory p mode).map outline := by
  unfold makeDirectory
  rw [locate_outline]
  cases t.locate false (withoutTrailingSlashes p) with
  | entry place e => rfl
  | vacant directory name => exact congrArg Except.ok (t.set_outline _ (.directory _))
  | refused fault => rfl

/-- A new file is empty, so all of it shows. -/
theorem createFile_outline (p : Path) (mode : Nat) :
    t.outline.createFile p mode = (t.createFile p mode).map outline := by
  unfold createFile
  rw [locate_outline]
  cases t.locate false p with
  | entry place e => rfl
  | vacant directory name => exact congrArg Except.ok (t.set_outline _ (.file _ []))
  | refused fault => rfl

/-- Which name is free for a temporary file is a matter of names. -/
theorem freshName?_outline (directory : Place) (taken : Option String) :
    t.outline.freshName? directory taken = t.freshName? directory taken := by
  have hlength : t.outline.entries.length = t.entries.length := List.length_map _
  unfold freshName?
  rw [hlength]
  refine congrArg (fun p => List.find? p _) (funext fun name => ?_)
  simp only [get?_outline, Option.map_eq_none_iff]

theorem createTemporary_outline (dir target : Path) :
    t.outline.createTemporary dir target
      = (t.createTemporary dir target).map fun x => (x.1, x.2.outline) := by
  unfold createTemporary
  rw [locate_outline]
  cases t.locate true dir with
  | vacant directory name => rfl
  | refused fault => rfl
  | entry place e =>
    cases e with
    | file mode content => rfl
    | link target => rfl
    | directory mode =>
      dsimp only [Landing.outline, Entry.outline]
      rw [freshName?_outline]
      cases t.freshName? place target.fileName? with
      | none => rfl
      | some name =>
        dsimp only
        rw [createFile_outline, show t.outline.absolute = t.absolute from rfl]
        split_ifs
        · rfl
        · cases t.createFile (dir.join ⟨name⟩) temporaryMode with
          | ok t' => rfl
          | error fault => rfl

/-- **Of what a file is filled with, its size shows.** To fill it with zeros in
the outline is to fill it and then to blank it out. -/
theorem fill_outline (p : Path) (content : Bytes) :
    t.outline.fill p (blanked content) = (t.fill p content).map outline := by
  unfold fill
  rw [locate_outline]
  cases t.locate true p with
  | vacant directory name => rfl
  | refused fault => rfl
  | entry place e =>
    cases e with
    | file mode content' => exact congrArg Except.ok (t.set_outline _ (.file mode content))
    | directory mode => rfl
    | link target => rfl

/-- Permissions show, so to restrict them is the same on both sides. -/
theorem restrict_outline (p : Path) (mode : Nat) :
    t.outline.restrict p mode = (t.restrict p mode).map outline := by
  unfold restrict
  rw [locate_outline]
  cases t.locate true p with
  | vacant directory name => rfl
  | refused fault => rfl
  | entry place e =>
    cases e with
    | file mode' content => exact congrArg Except.ok (t.set_outline _ (.file mode content))
    | directory mode' => exact congrArg Except.ok (t.set_outline _ (.directory mode))
    | link target => rfl

/-- Whether an entry can be moved does not depend on what is in it. -/
theorem movable_outline (p : Path) :
    t.outline.movable p = (t.movable p).map fun x => (x.1, x.2.outline) := by
  unfold movable
  rw [locate_outline]
  cases t.locate false p with
  | vacant directory name => rfl
  | refused fault => rfl
  | entry place e => cases e <;> rfl

/-- A file that has another name and its outline. -/
theorem set_erase_outline (p q : Place) (e : Entry) :
    (t.outline.erase p).set q e.outline = ((t.erase p).set q e).outline := by
  rw [erase_outline, set_outline]

/-- A file takes the place of another, be what it may that this one holds. -/
theorem replace_outline (source target : Path) :
    t.outline.replace source target = (t.replace source target).map outline := by
  unfold replace
  rw [movable_outline, locate_outline]
  split_ifs
  · rfl
  · cases t.movable source with
    | error fault => rfl
    | ok x =>
      cases t.locate false target with
      | vacant directory name => exact congrArg Except.ok (t.set_erase_outline _ _ _)
      | refused fault => rfl
      | entry place e =>
        cases e with
        | file mode content => exact congrArg Except.ok (t.set_erase_outline _ _ _)
        | directory mode => rfl
        | link target => exact congrArg Except.ok (t.set_erase_outline _ _ _)

theorem moveNew_outline (source target : Path) :
    t.outline.moveNew source target = (t.moveNew source target).map outline := by
  unfold moveNew
  rw [movable_outline, locate_outline]
  cases t.movable source with
  | error fault => rfl
  | ok x =>
    cases t.locate false target with
    | vacant directory name => exact congrArg Except.ok (t.set_erase_outline _ _ _)
    | refused fault => rfl
    | entry place e => rfl

/-- A file that is removed is gone from the outline as well. -/
theorem remove_outline (p : Path) : t.outline.remove p = (t.remove p).map outline := by
  unfold remove
  rw [movable_outline]
  cases t.movable p with
  | error fault => rfl
  | ok x => exact congrArg Except.ok (t.erase_outline _)

end Tree

end CertAuthority.Files
