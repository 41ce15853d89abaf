import CertAuthority.Files.Tree

/-!
# Listings of file trees

A listing has a line for every entry below the working directory: where it
is, what it is, its permissions in octal and, for a file, its size. Lines
are in the order of their characters.

The other half of this module lays out trees: it puts directories, files
and links into a tree with exactly the permissions that are asked for.
-/

namespace CertAuthority.Files

/-- The permissions of an entry in octal. -/
def modeText (mode : Nat) : String := String.ofList (Nat.toDigits 8 mode)

/-- What a listing says about an entry, with the size of a file or
without. -/
def Entry.summary (sizes : Bool) : Entry → String
  | file mode content =>
    "file " ++ modeText mode ++ if sizes then " " ++ toString content.length else ""
  | directory mode => "dir " ++ modeText mode
  | link target => "link " ++ target.text

/-- An entry to put into a tree. -/
inductive Item where
  /-- A directory, together with the directories above it. -/
  | directory (path : Path) (mode : Nat)
  /-- A file. -/
  | file (path : Path) (mode : Nat) (content : Bytes)
  /-- A link. -/
  | link (path target : Path)

namespace Tree

/-- **The listing of a tree.** -/
def listing (t : Tree) (sizes : Bool) : List String :=
  let lines := t.entries.filterMap fun (place, e) =>
    let depth := place.length - t.workingDirectory.length
    if depth ≠ 0 ∧ place.drop depth = t.workingDirectory then
      some ("/".intercalate (place.take depth).reverse ++ " " ++ e.summary sizes)
    else none
  lines.mergeSort fun a b => decide (a ≤ b)

/-- The paths that a path begins with, the shortest first. -/
def beginnings (p : Path) : List Path :=
  let pieces := Path.pieces p.text.toList
  (List.range pieces.length).map fun n => ⟨Path.joinPieces (pieces.take (n + 1))⟩

/-- The tree with a directory at a path, if there can be one. -/
def withDirectory (t : Tree) (p : Path) : Tree :=
  match t.makeDirectory p plainDirectoryMode with
  | .ok t' => t'
  | .error _ => t

/-- **Puts an entry into a tree.** -/
def put (t : Tree) : Item → Except Fault Tree
  | .directory p mode =>
    let t := (beginnings p).foldl withDirectory t
    if t.kind? p = some .directory then t.restrict p mode else .error .alreadyExists
  | .file p mode content =>
    match t.locate true p with
    | .entry place (.file ..) => .ok (t.set place (.file mode content))
    | .entry .. => .error .isADirectory
    | .vacant directory name => .ok (t.set (name :: directory) (.file mode content))
    | .refused fault => .error fault
  | .link p target =>
    match t.locate false p with
    | .vacant directory name => .ok (t.set (name :: directory) (.link target))
    | .entry .. => .error .alreadyExists
    | .refused fault => .error fault

/-- **Removes an entry**, a directory with everything in it. -/
def removeAll (t : Tree) (p : Path) : Except Fault Tree :=
  match t.locate false p with
  | .entry place _ =>
    .ok { t with entries := t.entries.filter fun x => !(place.isSuffixOf x.1) }
  | .vacant .. => .error .notFound
  | .refused fault => .error fault

end Tree

end CertAuthority.Files
