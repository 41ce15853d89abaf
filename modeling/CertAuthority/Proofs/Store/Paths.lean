import CertAuthority.Proofs.Store.Call
import CertAuthority.Proofs.Store.Location

/-!
# The paths of the store

A path of the store is made of the metadata directory and three names: that of
the store's directory, the label of a component, and the name of a file. Each
is checked to be a single plain segment, and that is the same as to be the
name of an entry: not empty, not `.` or `..`, and without a slash
(`Path.isPlainSegment_iff`). A name adds itself to the components of a path
and does nothing else to them (`Path.components_join`). So the components of a
path of the store are those of the metadata directory and the three names
(`components_path_placed`), whatever the metadata directory looks like, and
the names can be read off them: no two files have a path in common.

Paths are compared by their components, as file systems do: a doubled slash or
a dot in the metadata directory makes no other path of it. The metadata
directory is configured and is not checked at all. It may be empty, relative,
or go up, and no name can then undo what it says, since a name is never a step
up and never starts at the top.

What is refused is refused by these checks, which look at texts alone. Nothing
has been asked of the host by then, and no call gets any further.
-/

namespace CertAuthority.Store.Component

open CertAuthority.Path (IsNamePiece)

variable {config : SecurityConfig} {label name : String} {path : Path}

/-- **The components of a path of the store.** -/
theorem components_path_placed (hdir : Path.IsPlainSegment config.securityDirName)
    (hlabel : Path.IsPlainSegment label)
    (hpath : ((placed config label).locationFor name).path = .ok path) :
    path.components = config.metadataDir.components
      ++ [.normal config.securityDirName, .normal label, .normal name] := by
  obtain ⟨hname, rfl⟩ := Location.path_eq_ok hpath
  change Path.IsPlainSegment name at hname
  show (((config.metadataDir.join ⟨config.securityDirName⟩).join ⟨label⟩).join ⟨name⟩).components = _
  rw [Path.components_join _ hname.isNamePiece, Path.components_join _ hlabel.isNamePiece,
    Path.components_join _ hdir.isNamePiece]
  simp

/-- A component that has no place is an error, and the host is as it was. -/
theorem runOn_resolve_of_error {e : Error} (h : ofConfig config label = .error e) (host : Host) :
    (resolve config label).runOn host = (.error e, host) :=
  runOn_bind_error (runOn_ofExcept_error h host) _

/-- **Names stay in the store and apart.** A component has a place exactly if
the name of the store's directory and its label are names of entries, and a
file of it has a path exactly if its name is one. The path then is the
metadata directory's and these three names, and the directory above it is the
component's. Two such paths are the same only if the labels and the names are
the same. Whatever is refused is refused as an error of configuration, and
before anything is asked of the host, whichever call is made. -/
theorem paths_of_store (config : SecurityConfig) (label : String) :
    ((∃ c, ofConfig config label = .ok c)
        ↔ IsNamePiece config.securityDirName.toList ∧ IsNamePiece label.toList)
      ∧ (∀ c, ofConfig config label = .ok c → ∀ name,
        ((∃ path, (c.locationFor name).path = .ok path) ↔ IsNamePiece name.toList)
        ∧ ∀ path, (c.locationFor name).path = .ok path →
          path.components = config.metadataDir.components
              ++ [.normal config.securityDirName, .normal label, .normal name]
            ∧ path.parent? = some c.directory
            ∧ ∀ label' c' name' path', ofConfig config label' = .ok c' →
              (c'.locationFor name').path = .ok path' →
              (path.SameAs path' ↔ label = label' ∧ name = name'))
      ∧ (∀ e, ofConfig config label = .error e → (∃ cause, e = .configuration cause)
        ∧ ∀ h, (resolve config label).runOn h = (.error e, h))
      ∧ (∀ c name e, ofConfig config label = .ok c → (c.locationFor name).path = .error e →
        (∃ cause, e = .configuration cause)
        ∧ ∀ (k : Call) h, k.target = (c.locationFor name).path →
          k.perform.runOn h = (.error e, h)) := by
  refine ⟨?_, fun c hc name => ?_, fun e he => ⟨ofConfig_eq_error he, runOn_resolve_of_error he⟩,
    fun c name e _ he => ⟨Location.path_eq_error he, fun k h hk => ?_⟩⟩
  · simp only [ofConfig_eq_ok_iff, exists_and_left, exists_eq, and_true, Path.isPlainSegment_iff]
  · obtain ⟨⟨hdir, hlabel⟩, rfl⟩ := ofConfig_eq_ok_iff.1 hc
    refine ⟨?_, fun path hpath => ?_⟩
    · rw [← Path.isPlainSegment_iff]
      constructor
      · rintro ⟨path, hpath⟩
        exact (Location.path_eq_ok hpath).1
      · intro hname
        exact ⟨_, Location.path_of_plain hname⟩
    · have hcomponents := components_path_placed hdir hlabel hpath
      refine ⟨hcomponents, ?_, fun label' c' name' path' hc' hpath' => ?_⟩
      · obtain ⟨hname, rfl⟩ := Location.path_eq_ok hpath
        exact Path.parent?_join (endsInName_directory hc) hname.isNamePiece
      · obtain ⟨⟨-, hlabel'⟩, rfl⟩ := ofConfig_eq_ok_iff.1 hc'
        rw [Path.SameAs, hcomponents, components_path_placed hdir hlabel' hpath']
        simp
  · exact Call.runOn_of_target_error (hk.trans he) h

end CertAuthority.Store.Component
