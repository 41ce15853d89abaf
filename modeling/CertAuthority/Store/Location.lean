import CertAuthority.Error

/-!
# Locations

Where a file is or is to be: a directory, and the name of the file in it.
The name may be anything until somebody asks for the path; then it has to
be a single plain segment, so that no name leads out of its directory.
-/

namespace CertAuthority.Store

/-- **A location**: a directory and a name in it. -/
structure Location where
  /-- The directory. -/
  directory : Path
  /-- The name of the file. -/
  fileName : String
  deriving DecidableEq, Repr

/-- A name, if it is a single plain segment. -/
def plainSegment (kind : SegmentKind) (name : String) : Except Error String :=
  if Path.IsPlainSegment name then .ok name
  else .error (.configuration (.notPlainSegment kind name))

namespace Location

/-- The location of another name in the same directory. -/
def withFileName (l : Location) (name : String) : Location := { l with fileName := name }

/-- **The path of a location**, if its name is a plain one. -/
def path (l : Location) : Except Error Path :=
  (plainSegment .fileName l.fileName).map fun name => l.directory.join ⟨name⟩

end Location

end CertAuthority.Store
