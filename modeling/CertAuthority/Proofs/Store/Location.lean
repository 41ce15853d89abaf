import CertAuthority.Proofs.Files.Names
import CertAuthority.Store.Component

/-!
# Names in the store

Whatever is put together to a path of the store has been checked to be a plain
name, so that the path ends in that name. The checks are all that can fail:
`Location.path_eq` and `Component.ofConfig_eq` say what comes out of them in
every case.

There are three names to be checked, and three places where it is done. The
name of the store's directory and the label are looked at when a component is
resolved, in this order, and the name of a file when a path is made of the
location that has it. A location can thus be put together and passed around
with a file name that is none, and the error comes from the first thing that
wants its path.
-/

namespace CertAuthority.Store

variable {l : Location} {path : Path}

/-- **The path of a location**, or why it has none. -/
theorem Location.path_eq : l.path =
    if Path.IsPlainSegment l.fileName then .ok (l.directory.join ⟨l.fileName⟩)
    else .error (.configuration (.notPlainSegment .fileName l.fileName)) := by
  unfold Location.path plainSegment
  split_ifs <;> rfl

/-- With a plain name it has the path of that name in its directory. -/
theorem Location.path_of_plain (h : Path.IsPlainSegment l.fileName) :
    l.path = .ok (l.directory.join ⟨l.fileName⟩) := by
  rw [path_eq, if_pos h]

/-- If it has a path, then the name is plain and this is the path. -/
theorem Location.path_eq_ok (h : l.path = .ok path) :
    Path.IsPlainSegment l.fileName ∧ path = l.directory.join ⟨l.fileName⟩ := by
  rw [path_eq] at h
  split_ifs at h with hplain
  exact ⟨hplain, (Except.ok.inj h).symm⟩

/-- Locations in one directory differ by their file names. -/
theorem Location.fileName_ne {l l' : Location} (hne : l ≠ l') (h : l.directory = l'.directory) :
    l.fileName ≠ l'.fileName := by
  intro hsame
  refine hne ?_
  cases l
  cases l'
  cases h
  cases hsame
  rfl

/-- A location without a path is an error of configuration. -/
theorem Location.path_eq_error {e : Error} (h : l.path = .error e) :
    ∃ cause, e = .configuration cause := by
  rw [path_eq] at h
  split_ifs at h
  exact ⟨_, (Except.error.inj h).symm⟩

namespace Component

variable {config : SecurityConfig} {label : String} {component : Component}

/-- The component of a label, in a store whose directory has a plain name. It is
defined for any names, and is what the checks let through if these are plain. -/
def placed (config : SecurityConfig) (label : String) : Component where
  label := label
  directory := (config.metadataDir.join ⟨config.securityDirName⟩).join ⟨label⟩
  layout := ⟨config.metadataDir.join ⟨config.securityDirName⟩, config.certificateFileName,
    config.privateKeyFileName⟩

/-- **Where a component is**, or which of the two names is not a plain
one. -/
theorem ofConfig_eq : ofConfig config label =
    if Path.IsPlainSegment config.securityDirName then
      if Path.IsPlainSegment label then .ok (placed config label)
      else .error (.configuration (.notPlainSegment .component label))
    else .error (.configuration (.notPlainSegment .securityDirectory config.securityDirName)) := by
  unfold ofConfig Layout.ofConfig Layout.componentDir plainSegment
  split_ifs <;> rfl

/-- **A component has a place** if both names are plain, and it is that one. -/
theorem ofConfig_eq_ok_iff : ofConfig config label = .ok component ↔
    (Path.IsPlainSegment config.securityDirName ∧ Path.IsPlainSegment label)
      ∧ component = placed config label := by
  rw [ofConfig_eq]
  split_ifs with hdir hlabel
  · simp [hdir, hlabel, eq_comm]
  · simp [hlabel]
  · simp [hdir]

/-- A component without a place is an error of configuration. -/
theorem ofConfig_eq_error {e : Error} (h : ofConfig config label = .error e) :
    ∃ cause, e = .configuration cause := by
  rw [ofConfig_eq] at h
  split_ifs at h
  · exact ⟨_, (Except.error.inj h).symm⟩
  · exact ⟨_, (Except.error.inj h).symm⟩

/-- **The directory of a component** is a name below another. -/
theorem endsInName_directory (h : ofConfig config label = .ok component) :
    Path.EndsInName component.directory := by
  obtain ⟨⟨-, hlabel⟩, rfl⟩ := ofConfig_eq_ok_iff.1 h
  exact Path.endsInName_join _ hlabel.isNamePiece

end Component

end CertAuthority.Store
