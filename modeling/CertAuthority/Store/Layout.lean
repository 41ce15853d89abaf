import CertAuthority.SecurityConfig
import CertAuthority.Store.Location

/-!
# The layout of the store

All security material is below one directory, the root, which is in the
metadata directory. Every component has a directory of its own below the
root, and in it its certificate and its private key, under names that the
configuration sets.
-/

namespace CertAuthority.Store

/-- **Where things are in the store.** -/
structure Layout where
  /-- The directory of all security material. -/
  root : Path
  /-- What a component's certificate is called. -/
  certificateFileName : String
  /-- What a component's private key is called. -/
  privateKeyFileName : String
  deriving DecidableEq, Repr

namespace Layout

/-- **The layout that a configuration describes.** -/
def ofConfig (c : SecurityConfig) : Except Error Layout :=
  (plainSegment .securityDirectory c.securityDirName).map fun name =>
    ⟨c.metadataDir.join ⟨name⟩, c.certificateFileName, c.privateKeyFileName⟩

/-- **The directory of a component.** -/
def componentDir (l : Layout) (label : String) : Except Error Path :=
  (plainSegment .component label).map fun name => l.root.join ⟨name⟩

end Layout

end CertAuthority.Store
