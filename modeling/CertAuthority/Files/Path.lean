/-!
# Paths

A path is a text, and two things are asked of it: what it looks like, which
is what people are shown, and which components it has, which is what the
file system goes by. The text keeps every doubled or trailing slash it was
given; the components do not.

The components of a path are the pieces between its slashes, without the
empty pieces and without the pieces `.`, which lead nowhere. The one at the
very beginning of a relative path is kept (`Component.current`), and a
leading slash is a component of its own (`Component.root`).
-/

namespace CertAuthority

/-- **A path**, by its text. -/
structure Path where
  /-- The text. -/
  text : String
  deriving DecidableEq, Repr, Inhabited

namespace Path

/-- **A component of a path.** -/
inductive Component where
  /-- The top of the file system: a leading slash. -/
  | root
  /-- The current directory: a leading `.`. -/
  | current
  /-- The directory above: `..`. -/
  | parent
  /-- An entry with a name. -/
  | normal (name : String)
  deriving DecidableEq, Repr

/-- The pieces of a text between its slashes; there is always one. -/
def pieces : List Char → List (List Char)
  | [] => [[]]
  | '/' :: rest => [] :: pieces rest
  | c :: rest =>
    match pieces rest with
    | [] => [[c]]
    | piece :: others => (c :: piece) :: others

/-- The text with the given pieces between its slashes. -/
def joinPieces (ps : List (List Char)) : String :=
  "/".intercalate (ps.map String.ofList)

/-- A piece that leads nowhere: nothing, or `.`. -/
def isIdle (piece : List Char) : Bool :=
  piece == [] || piece == ['.']

/-- The component a piece stands for, unless it leads nowhere. -/
def component? (piece : List Char) : Option Component :=
  if isIdle piece then none
  else if piece = ['.', '.'] then some .parent
  else some (.normal (String.ofList piece))

/-- **The components of a text.** -/
def componentsOf (s : List Char) : List Component :=
  match pieces s with
  | [] => []
  | first :: others =>
    let later := others.filterMap component?
    if first = ['.'] then .current :: later
    else if first = [] then if others = [] then [] else .root :: later
    else (component? first).toList ++ later

/-- The components of a path. -/
def components (p : Path) : List Component := componentsOf p.text.toList

/-- **Whether two paths are the same path**, however they are spelled. -/
def SameAs (p q : Path) : Prop := p.components = q.components

instance (p q : Path) : Decidable (p.SameAs q) :=
  inferInstanceAs (Decidable (_ = _))

/-- Whether a path starts at the top of the file system. -/
def isAbsolute (p : Path) : Bool := p.text.toList.head? == some '/'

/-- **A path below a path.** An absolute one stands for itself. -/
def join (base tail : Path) : Path :=
  if tail.isAbsolute then tail
  else
    match base.text.toList.getLast? with
    | none => tail
    | some '/' => ⟨base.text ++ tail.text⟩
    | some _ => ⟨base.text ++ "/" ++ tail.text⟩

/-- **The name of the entry a path leads to**, if its last component is a
name. -/
def fileName? (p : Path) : Option String :=
  match p.components.getLast? with
  | some (.normal name) => some name
  | _ => none

/-- The pieces up to the last one that leads somewhere; the first piece of
a path with more than one always stays. -/
def trimIdle : List (List Char) → List (List Char)
  | [] => []
  | first :: others => first :: (others.reverse.dropWhile isIdle).reverse

/-- **The path without its last component**; none if there is no component
or it is the top of the file system. -/
def parent? (p : Path) : Option Path :=
  match trimIdle (pieces p.text.toList) with
  | [] => none
  | [first] => if first = [] then none else some ⟨""⟩
  | ps =>
    match trimIdle ps.dropLast with
    | [[]] => some ⟨"/"⟩
    | ps => some ⟨joinPieces ps⟩

/-- **Whether a text is a single plain segment**: the name of one entry,
and neither a way up nor a way elsewhere. -/
def IsPlainSegment (s : String) : Prop :=
  componentsOf s.toList = [.normal s]

instance (s : String) : Decidable (IsPlainSegment s) :=
  inferInstanceAs (Decidable (_ = _))

end Path

end CertAuthority
