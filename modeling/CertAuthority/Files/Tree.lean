import CertAuthority.Bytes
import CertAuthority.Calendar.Date
import CertAuthority.Files.Fault
import CertAuthority.Files.Kind
import CertAuthority.Files.Path

/-!
# File trees

A file tree is a finite map from places to entries: files, directories and
links, each file and directory with its permissions. A place is the list of
names on the way to an entry, the entry's own name first, so that the
directory an entry is in is the rest of the list.

A path leads to a place by a walk (`Tree.locate`). The walk starts at the
top or in the working directory, goes by the pieces of the path, and turns
off at links, at most forty times. It ends at an entry, or at a vacant name
in a directory that is there, or is refused. All operations on files are a
walk and a change at the place it ends at.

Permissions are kept but hold nobody back: the authority runs with every
right. They are the nine bits that say who may read, write and search, and no
others: an entry's set-user-ID, set-group-ID and sticky bits are left out, and so
is that a system hands the second of these down from a directory to those that
are made in it.
-/

namespace CertAuthority.Files

/-- **A place in a file tree**: the names on the way to it, its own first. -/
abbrev Place := List String

/-- **An entry of a file tree.** The mode of a file or a directory is its nine
permission bits. -/
inductive Entry where
  /-- A file with its content. -/
  | file (mode : Nat) (content : Bytes)
  /-- A directory. -/
  | directory (mode : Nat)
  /-- A link to wherever a path leads from the link's own directory. -/
  | link (target : Path)
  deriving DecidableEq

/-- **A file tree**, with the directory that relative paths start in. -/
structure Tree where
  /-- Where relative paths start. -/
  workingDirectory : Place
  /-- The entries, at most one at a place. -/
  entries : List (Place × Entry)
  deriving DecidableEq

/-- The permissions of a directory that nobody has said anything about. -/
def plainDirectoryMode : Nat := 0o755

/-- The permissions of a file that nobody has said anything about. -/
def plainFileMode : Nat := 0o644

/-- The permissions that a new directory gets when the given ones are asked
for: others never get to write. -/
def grantedMode (mode : Nat) : Nat := mode &&& 0o755

namespace Tree

/-! ## Entries -/

/-- The tree with nothing in the working directory. -/
def empty (workingDirectory : Place) : Tree := ⟨workingDirectory, []⟩

/-- **The entry at a place.** The top and the working directory are always
there. -/
def get? (t : Tree) (p : Place) : Option Entry :=
  (t.entries.lookup p).or
    (if p = [] ∨ p = t.workingDirectory then some (.directory plainDirectoryMode) else none)

/-- The tree with an entry at a place, in place of any that was there. -/
def set (t : Tree) (p : Place) (e : Entry) : Tree :=
  { t with entries := (p, e) :: t.entries.filter fun x => x.1 != p }

/-- The tree without the entry at a place. -/
def erase (t : Tree) (p : Place) : Tree :=
  { t with entries := t.entries.filter fun x => x.1 != p }

theorem lookup_filter_ne (l : List (Place × Entry)) (p q : Place) (h : q ≠ p) :
    (l.filter fun x => x.1 != p).lookup q = l.lookup q := by
  induction l with
  | nil => rfl
  | cons x l ih =>
    obtain ⟨r, e⟩ := x
    by_cases hr : r = p
    · subst hr
      have hq : (q == r) = false := beq_eq_false_iff_ne.2 h
      simp [List.lookup_cons, hq, ih]
    · have hne : (r != p) = true := bne_iff_ne.2 hr
      simp [hne, List.lookup_cons, ih]

@[simp] theorem get?_set_self (t : Tree) (p : Place) (e : Entry) : (t.set p e).get? p = some e := by
  simp [get?, set]

theorem get?_set_ne (t : Tree) {p q : Place} (e : Entry) (h : q ≠ p) :
    (t.set p e).get? q = t.get? q := by
  have hq : (q == p) = false := beq_eq_false_iff_ne.2 h
  simp only [get?, set, List.lookup_cons, hq, lookup_filter_ne _ _ _ h]
  rfl

theorem get?_erase_ne (t : Tree) {p q : Place} (h : q ≠ p) : (t.erase p).get? q = t.get? q := by
  simp only [get?, erase, lookup_filter_ne _ _ _ h]
  rfl

/-! ## Walks -/

/-- **Where a walk along a path ends.** -/
inductive Landing where
  /-- At an entry. -/
  | entry (place : Place) (e : Entry)
  /-- At a name in a directory that has no such entry. -/
  | vacant (directory : Place) (name : String)
  /-- Nowhere. -/
  | refused (fault : Fault)
  deriving DecidableEq

/-- **One leg of a walk**: up to its end or to the next link. -/
inductive Leg where
  /-- The walk has ended. -/
  | landed (l : Landing)
  /-- The walk turns off at a link in a directory; the pieces are still to
  be walked. -/
  | turned (directory : Place) (target : Path) (rest : List (List Char))
  deriving DecidableEq

/-- The greatest number of bytes in a name. -/
def longestName : Nat := 255

/-- The greatest number of bytes in a path. -/
def longestPath : Nat := 4095

/-- How many links a walk may follow. -/
def mostLinks : Nat := 40

/-- **Walks along pieces from a directory** to the end or to the next link.
A link at the very end is followed only if the walk is to see through
it. -/
def leg (t : Tree) (follow : Bool) : Place → List (List Char) → Leg
  | place, [] => .landed (.entry place ((t.get? place).getD (.directory plainDirectoryMode)))
  | place, piece :: rest =>
    if piece = ['.'] then t.leg follow place rest
    else if piece = ['.', '.'] then t.leg follow place.tail rest
    else
      let name := String.ofList piece
      if longestName < name.utf8ByteSize then .landed (.refused .nameTooLong)
      else
        match t.get? (name :: place) with
        | none => .landed (if rest = [] then .vacant place name else .refused .notFound)
        | some (.directory _) => t.leg follow (name :: place) rest
        | some (.file mode content) =>
          .landed (if rest = [] then .entry (name :: place) (.file mode content)
            else .refused .notADirectory)
        | some (.link target) =>
          if rest = [] ∧ follow = false then .landed (.entry (name :: place) (.link target))
          else .turned place target rest

/-- The pieces that a walk along a path goes by. A path that ends in a slash
has to end at a directory, as if the directory itself were named once
more. -/
def piecesOf (p : Path) : List (List Char) :=
  let pieces := (Path.pieces p.text.toList).filter (· ≠ [])
  if p.text.toList.getLast? = some '/' then pieces ++ [['.']] else pieces

/-- Where a walk along a path from a directory starts. -/
def startOf (p : Path) (directory : Place) : Place :=
  if p.isAbsolute then [] else directory

/-- **Walks along pieces from a directory**, through at most the given
number of links. -/
def walk (t : Tree) (follow : Bool) : (links : Nat) → Place → List (List Char) → Landing
  | links, place, pieces =>
    match t.leg follow place pieces with
    | .landed l => l
    | .turned directory target rest =>
      match links with
      | 0 => .refused .tooManyLinks
      | links + 1 => t.walk follow links (startOf target directory) (piecesOf target ++ rest)

/-- Whether a path has a NUL character in it, which no operating system
takes. -/
def hasNul (p : Path) : Bool := p.text.toList.any fun c => c.toNat == 0

/-- **Where a path leads.** -/
def locate (t : Tree) (follow : Bool) (p : Path) : Landing :=
  if hasNul p then .refused .nulInPath
  else if p.text = "" then .refused .notFound
  else if longestPath < p.text.utf8ByteSize then .refused .nameTooLong
  else t.walk follow mostLinks (startOf p t.workingDirectory) (piecesOf p)

/-! ## Looking -/

/-- **What a path leads to**, if to anything. -/
def kind? (t : Tree) (p : Path) : Option Kind :=
  match t.locate true p with
  | .entry _ (.file ..) => some .file
  | .entry _ (.directory _) => some .directory
  | _ => none

/-- **The content of a file.** -/
def read (t : Tree) (p : Path) : Except Fault Bytes :=
  match t.locate true p with
  | .entry _ (.file _ content) => .ok content
  | .entry _ _ => .error .isADirectory
  | .vacant .. => .error .notFound
  | .refused fault => .error fault

/-! ## Changing -/

/-- A path without slashes at its end. -/
def withoutTrailingSlashes (p : Path) : Path :=
  match p.text.toList.reverse.dropWhile (· == '/') with
  | [] => p
  | rest => ⟨String.ofList rest.reverse⟩

/-- **Makes a directory** with what is granted of the given permission bits,
whatever the directory is like that it is made in. -/
def makeDirectory (t : Tree) (p : Path) (mode : Nat) : Except Fault Tree :=
  match t.locate false (withoutTrailingSlashes p) with
  | .vacant directory name => .ok (t.set (name :: directory) (.directory (grantedMode mode)))
  | .entry .. => .error .alreadyExists
  | .refused fault => .error fault

/-- The permissions of a temporary file: its owner's alone. -/
def temporaryMode : Nat := 0o600

/-- The name of the `n`th temporary file of a directory. -/
def temporaryName (n : Nat) : String := ".tmp" ++ Calendar.padded 6 n

/-- The first name for a temporary file that no entry of a directory has
and that is not the given one. -/
def freshName? (t : Tree) (directory : Place) (taken : Option String) : Option String :=
  ((List.range (t.entries.length + 3)).map temporaryName).find? fun name =>
    some name ≠ taken ∧ t.get? (name :: directory) = none

/-- The path from the top that leads where a path leads. -/
def absolute (t : Tree) (p : Path) : Path :=
  Path.join ⟨"/" ++ "/".intercalate t.workingDirectory.reverse⟩ p

/-- Makes an empty file where there is nothing. -/
def createFile (t : Tree) (p : Path) (mode : Nat) : Except Fault Tree :=
  match t.locate false p with
  | .vacant directory name => .ok (t.set (name :: directory) (.file mode []))
  | .entry .. => .error .alreadyExists
  | .refused fault => .error fault

/-- **Makes an empty file in a directory**, under a name that no entry has
and that is not the target's. Its path from the top must not be too
long. -/
def createTemporary (t : Tree) (dir target : Path) : Except Fault (Path × Tree) :=
  match t.locate true dir with
  | .entry place (.directory _) =>
    match t.freshName? place target.fileName? with
    | none => .error .alreadyExists
    | some name =>
      let path := dir.join ⟨name⟩
      if longestPath < (t.absolute path).text.utf8ByteSize then .error .nameTooLong
      else (t.createFile path temporaryMode).map (path, ·)
  | .entry .. => .error .notADirectory
  | .vacant .. => .error .notFound
  | .refused fault => .error fault

/-- **Fills a file**, which keeps its permissions. -/
def fill (t : Tree) (p : Path) (content : Bytes) : Except Fault Tree :=
  match t.locate true p with
  | .entry place (.file mode _) => .ok (t.set place (.file mode content))
  | .entry .. => .error .isADirectory
  | .vacant .. => .error .notFound
  | .refused fault => .error fault

/-- **Sets the permissions** of a file or directory. -/
def restrict (t : Tree) (p : Path) (mode : Nat) : Except Fault Tree :=
  match t.locate true p with
  | .entry place (.file _ content) => .ok (t.set place (.file mode content))
  | .entry place (.directory _) => .ok (t.set place (.directory mode))
  | .entry _ (.link _) => .error .tooManyLinks
  | .vacant .. => .error .notFound
  | .refused fault => .error fault

/-- The file or link a path leads to, with its place. Directories are not
moved or removed. -/
def movable (t : Tree) (p : Path) : Except Fault (Place × Entry) :=
  match t.locate false p with
  | .entry _ (.directory _) => .error .isADirectory
  | .entry place e => .ok (place, e)
  | .vacant .. => .error .notFound
  | .refused fault => .error fault

/-- **Gives a file another name**, in place of any entry that has it but a
directory. -/
def replace (t : Tree) (source target : Path) : Except Fault Tree := do
  if hasNul target then throw .invalidArgument
  let (from_, e) ← t.movable source
  match t.locate false target with
  | .vacant directory name => return (t.erase from_).set (name :: directory) e
  | .entry _ (.directory _) => throw .isADirectory
  | .entry place _ => return (t.erase from_).set place e
  | .refused fault => throw fault

/-- **Gives a file another name** that no entry has. -/
def moveNew (t : Tree) (source target : Path) : Except Fault Tree := do
  let (from_, e) ← t.movable source
  match t.locate false target with
  | .vacant directory name => return (t.erase from_).set (name :: directory) e
  | .entry .. => throw .alreadyExists
  | .refused fault => throw fault

/-- **Removes a file** or a link. -/
def remove (t : Tree) (p : Path) : Except Fault Tree := do
  let (place, _) ← t.movable p
  return t.erase place

end Tree

end CertAuthority.Files
