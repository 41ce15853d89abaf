import CertAuthority.Proofs.Files.Existing
import CertAuthority.Proofs.Store.Component
import CertAuthority.Proofs.Store.Location

/-!
# When the store says that a file exists

Each of the writers of a component says that a file exists when the write to
its path does (`writers_tellExisting`). In a component's directory that is
there, it says so of the target only, and only if nothing may be replaced and
there is an entry of any kind. But the writers also make the directory, and
what is in the way of that is reported in the same words, even where files may
be replaced (`writePem_blockedHost`).

An entry of any kind counts, a link that leads nowhere among them. Whether
there is a file to be seen through it is looked at first, and finds nothing;
the link is then come upon when the temporary file is to get its name, which
is a name that the link has (`writePem_danglingHost`). All of this is said of
hosts that refuse nothing of their own, since a host may well refuse a request
in the words for a file that exists, and then the error tells nothing about
the tree.
-/

namespace CertAuthority.Store.Component

open Files (TellsExisting Tree WriteMode)
open Program (Ends)

variable {h : Host} (c : Component) (location : Option Location) (mode : WriteMode)

/-- **What a write to a location says exists**: nothing, if the location is no
path. -/
def TellsExistingAt (h : Host) (l : Location) (mode : WriteMode) (r : Except Error Path)
    (h' : Host) : Prop :=
  match l.path with
  | .error _ => ∀ p, r ≠ .error (.fileAlreadyExists p)
  | .ok path => TellsExisting h.tree path mode r h'.tree

theorem TellsExistingAt.noted {l : Location} (path : Path) (e : Event) (h' : Host)
    (hr : TellsExistingAt h l mode (.ok path) h') :
    TellsExistingAt h l mode (.ok path) (h'.answer (.note e)).2 := by
  unfold TellsExistingAt at hr ⊢
  cases hpath : l.path with
  | error e => exact fun p hp => by cases hp
  | ok path' =>
    rw [hpath] at hr
    exact hr

/-- **A write to a location tells what exists** as the one to its path does. -/
theorem ends_writeAt_existing (hobliging : h.Obliging) (l : Location) (content : Bytes) :
    (do
      let path ← Action.ofExcept l.path
      Files.write path content mode
      return path : Action Path).run.Ends h (TellsExistingAt h l mode) := by
  refine ends_writeAt_of (fun e he => ?_) fun path hpath => ?_
  · obtain ⟨cause, rfl⟩ := Location.path_eq_error he
    unfold TellsExistingAt
    rw [he]
    exact fun p hp => by cases hp
  · refine (Files.ends_write_existing hobliging path content mode).mono fun r h' hr => ?_
    unfold TellsExistingAt
    rw [hpath]
    exact hr.map fun _ => path

/-- **The writers tell what exists**, on a host that refuses nothing, whatever
is written. -/
theorem writers_tellExisting (hobliging : h.Obliging) :
    (∀ text, (c.writePem text location mode).run.Ends h
        (TellsExistingAt h (location.getD c.certificateLocation) mode))
    ∧ (∀ certificate, (c.writeCertificate certificate location mode).run.Ends h
        (TellsExistingAt h (location.getD c.certificateLocation) mode))
    ∧ (∀ certificate, (c.writeDer certificate location mode).run.Ends h
        (TellsExistingAt h (location.getD c.certificateLocation) mode))
    ∧ ∀ key, (c.writePrivateKey key location mode).run.Ends h
        (TellsExistingAt h (location.getD c.keyLocation) mode) := by
  have hpem : ∀ text, (c.writePem text location mode).run.Ends h
      (TellsExistingAt h (location.getD c.certificateLocation) mode) :=
    fun text => ends_writeAt_existing mode hobliging _ _
  exact ⟨hpem,
    fun certificate => ends_writeCertificate_of c (TellsExistingAt.noted mode) (hpem _),
    fun certificate => ends_writeAt_existing mode hobliging _ _,
    fun key => ends_writePrivateKey_of c (TellsExistingAt.noted mode)
      (ends_writeAt_existing mode hobliging _ _)⟩

/-! ## Links and files in the way -/

/-- A component in the place where components are. -/
def inSecurity : Component := ⟨"scm", ⟨"./security/scm"⟩, ⟨⟨"./security"⟩, "certificate.crt", "private.pem"⟩⟩

/-- A host on which the component's certificate is a link to nowhere. -/
def danglingHost : Host where
  tree := ⟨[], [(["security"], .directory 0o755), (["scm", "security"], .directory 0o755),
    (["certificate.crt", "scm", "security"], .link ⟨"nowhere"⟩)]⟩
  today := ⟨2024, 1, 1⟩
  entropy := fun _ _ => []

/-- **A link to nowhere exists.** -/
theorem writePem_danglingHost : danglingHost.Obliging
    ∧ ((inSecurity.writePem "hello" none .createNew).runOn danglingHost).1
      = .error (.fileAlreadyExists ⟨"./security/scm/certificate.crt"⟩) := by
  have hobliging : danglingHost.Obliging := fun _ _ => rfl
  have hpath : inSecurity.certificateLocation.path = .ok ⟨"./security/scm/certificate.crt"⟩ := by
    decide +kernel
  have htold := (writers_tellExisting inSecurity none .createNew hobliging).1 "hello"
  unfold Ends TellsExistingAt at htold
  rw [Option.getD_none, hpath] at htold
  refine ⟨hobliging, (htold.there (by decide +kernel) _).2 ⟨rfl, rfl, ?_, fun _ => ?_⟩⟩
  · exact ⟨["certificate.crt", "scm", "security"], .link ⟨"nowhere"⟩, by decide +kernel⟩
  · exact ⟨_, rfl⟩

/-- A host on which there is a file where the component's directory would be. -/
def blockedHost : Host where
  tree := ⟨[], [(["security"], .directory 0o755), (["scm", "security"], .file 0o644 [120])]⟩
  today := ⟨2024, 1, 1⟩
  entropy := fun _ _ => []

/-- **A file in the place of the directory exists**, it is said, though files may
be replaced and there is nothing where the certificate is to go. -/
theorem writePem_blockedHost :
    ((inSecurity.writePem "hello" none .overwrite).runOn blockedHost).1
        = .error (.fileAlreadyExists ⟨"./security/scm"⟩)
      ∧ ¬ blockedHost.tree.HasEntry ⟨"./security/scm/certificate.crt"⟩ := by
  refine ⟨by decide +kernel, ?_⟩
  rintro ⟨q, e, he⟩
  have hrefused : blockedHost.tree.locate false ⟨"./security/scm/certificate.crt"⟩
      = .refused .notADirectory := by decide +kernel
  rw [hrefused] at he
  cases he

end CertAuthority.Store.Component
