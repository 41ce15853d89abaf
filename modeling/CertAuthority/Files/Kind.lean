/-!
# Kinds of entries

What a path leads to, once links have been followed.
-/

namespace CertAuthority.Files

/-- **What an entry of the file system is**, seen through any links. -/
inductive Kind where
  /-- A file. -/
  | file
  /-- A directory. -/
  | directory
  deriving DecidableEq, Repr

end CertAuthority.Files
