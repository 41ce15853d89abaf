/-!
# Modes of writing

Whether a write may take the place of a file that is there already.
-/

namespace CertAuthority.Files

/-- **What to do about a file that is in the way.** -/
inductive WriteMode where
  /-- Leave it, and fail. -/
  | createNew
  /-- Put the new file in its place. -/
  | overwrite
  deriving DecidableEq, Repr

namespace WriteMode

/-- The mode of somebody who asks for nothing in particular. -/
def default : WriteMode := .createNew

/-- The mode that a flag chooses. -/
def ofFlag (overwriting : Bool) : WriteMode :=
  if overwriting then overwrite else createNew

/-- The name of a mode in the event log. -/
def name : WriteMode → String
  | createNew => "CreateNew"
  | overwrite => "Overwrite"

end WriteMode

end CertAuthority.Files
