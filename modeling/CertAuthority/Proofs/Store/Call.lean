import CertAuthority.Proofs.Store.Component

/-!
# Calls to the store

Whoever uses the files of a component either writes one or reads the
certificate. Four kinds of material are written, and the four writers do the
same with them: they settle where the material goes, write its bytes in one
piece, and take note. `Component.store` is all four of them, so that what is
known of writes is said once (`Component.ends_store`), and a `Call` is a write
or a reading.

The place is settled before anything else. A call with a location that is no
path has that as its error and leaves everything as it was
(`Call.runOn_of_target_error`).

What is read is a certificate, and it is read off the bytes of its file by a
function that asks nothing more of the host (`Component.readBack`). So a
statement about what a reading returns is one about what is in the file, and
this is what a history of calls has to keep account of. A key is not read by
any call of this kind; that its file can be read as the same key again is a
matter of its bytes alone.
-/

namespace CertAuthority.Store

open Files (WriteMode)
open Program (Ends Looks)

/-- **What may be written** for a component. The kinds differ in the bytes that
are written and in the file that they go to if none is named. -/
inductive Material where
  /-- A text. -/
  | text (pem : String)
  /-- A certificate, as text. -/
  | certificate (certificate : Certificate)
  /-- A certificate, in its encoding. -/
  | encoding (certificate : Certificate)
  /-- A private key, as text. -/
  | key (key : PrivateKey)

namespace Material

/-- The bytes that are written. -/
def bytes : Material → Bytes
  | text pem => Text.Utf8.encode pem.toList
  | certificate c => Text.Utf8.encode c.encodePem.toList
  | encoding c => c.der
  | key k => Text.Utf8.encode k.pem.toList

/-- Where the material of a component goes by default. -/
def home (c : Component) : Material → Location
  | key _ => c.keyLocation
  | text _ | certificate _ | encoding _ => c.certificateLocation

end Material

namespace Component

variable (h : Host) (c : Component) (m : Material) (location : Option Location) (mode : WriteMode)

/-- **Writes material** by the writer for it. Returns where it is. -/
def store : Action Path :=
  match m with
  | .text pem => c.writePem pem location mode
  | .certificate certificate => c.writeCertificate certificate location mode
  | .encoding certificate => c.writeDer certificate location mode
  | .key key => c.writePrivateKey key location mode

/-- **A write of material** ends as a write of its bytes. -/
theorem ends_store : (c.store m location mode).run.Ends h
    (WriteEndAt h (location.getD (m.home c)).path m.bytes mode) := by
  cases m with
  | text pem => exact ends_writePem h c location mode pem
  | certificate certificate => exact ends_writeCertificate h c location mode certificate
  | encoding certificate => exact ends_writeDer h c location mode certificate
  | key key => exact ends_writePrivateKey h c location mode key

/-- **Without a location** material goes where it goes by default. -/
theorem store_none : c.store m none mode = c.store m (some (m.home c)) mode := by
  cases m with
  | text pem => simp only [store, writePem, Material.home, Option.getD_none, Option.getD_some]
  | certificate certificate =>
    simp only [store, writeCertificate, writePem, Material.home, Option.getD_none, Option.getD_some]
  | encoding certificate =>
    simp only [store, writeDer, Material.home, Option.getD_none, Option.getD_some]
  | key key => simp only [store, writePrivateKey, Material.home, Option.getD_none, Option.getD_some]

/-! ## Without a path -/

variable {h mode c m location} {α β : Type} {h' : Host} {e : Error}

/-- What ends in an error ends so whatever was to follow. -/
theorem runOn_bind_error {p : Action α} (hp : p.runOn h = (.error e, h')) (f : α → Action β) :
    (p >>= f).runOn h = (.error e, h') := by
  rw [Action.runOn_bind_of_error (congrArg Prod.fst hp), hp]

/-- An error at hand is the end, and nothing was asked. -/
theorem runOn_ofExcept_error {r : Except Error α} (hr : r = .error e) (h : Host) :
    (Action.ofExcept r).runOn h = (.error e, h) := by
  rw [hr]
  rfl

/-- A write to a location without a path has the error of the location. -/
theorem store_of_error (he : (location.getD (m.home c)).path = .error e) (h : Host)
    (mode : WriteMode) : (c.store m location mode).runOn h = (.error e, h) := by
  cases m with
  | text pem => exact runOn_bind_error (runOn_ofExcept_error he h) _
  | certificate certificate =>
    exact runOn_bind_error (runOn_bind_error (runOn_ofExcept_error he h) _) _
  | encoding certificate => exact runOn_bind_error (runOn_ofExcept_error he h) _
  | key key => exact runOn_bind_error (runOn_ofExcept_error he h) _

theorem readCertificate_of_error (he : (location.getD c.certificateLocation).path = .error e)
    (h : Host) : (c.readCertificate location).runOn h = (.error e, h) :=
  runOn_bind_error (runOn_ofExcept_error he h) _

/-! ## Reading

A reader asks for the bytes of one file and makes of them what it can. So what
is read is a function of these bytes, unless the host refuses, and that is all
that a history of calls has to know about reading. -/

theorem looks_readText (path : Path) : (Files.readText path).run.Looks := by
  refine (Looks.request rfl).run_orFault.run_bind fun content => ?_
  refine Looks.run_note.run_bind fun _ => ?_
  cases Text.Utf8.decode content with
  | error fault => trivial
  | ok chars => trivial

/-- **Reading a certificate** asks for no change to files. -/
theorem looks_readCertificate (c : Component) (location : Option Location) :
    (c.readCertificate location).run.Looks := by
  refine Looks.run_bind trivial fun path => (looks_readText path).run_bind fun text => ?_
  have hparsed : (Action.parsed (Certificate.decodePem text)).run.Looks :=
    Looks.run_bind trivial fun _ => Looks.run_note.run_bind fun _ => trivial
  exact hparsed.run_bind fun _ => Looks.run_note.run_bind fun _ => trivial

/-- **What the bytes of a file are read as**: the certificate in the text they
are the form of. -/
def readBack (path : Path) (content : Bytes) : Except Error Certificate :=
  match Text.Utf8.decode content with
  | .ok chars => Certificate.decodePem (String.ofList chars)
  | .error fault => .error (.encoding (.notUtf8 path fault))

/-- **A text is read off the bytes of its file**, if the host does not refuse.
-/
theorem runOn_readText {path : Path} {content : Bytes}
    (hrefuses : h.refuses h.asked (.read path) = none) (hread : h.tree.read path = .ok content) :
    ((Files.readText path).runOn h).1 =
      match Text.Utf8.decode content with
      | .ok chars => .ok (String.ofList chars)
      | .error fault => .error (.encoding (.notUtf8 path fault)) := by
  have hanswer : (h.answer (.read path)).1 = .ok content := by
    show (h.look (.read path) _).1 = _
    unfold Host.look Host.refusal
    rw [hrefuses]
    exact hread
  have hrequest : (Program.request (.read path)).Ends h fun r _ => r = .ok content := hanswer
  have hfile : (Action.orFault path (Program.request (.read path))).run.Ends h
      fun r _ => r = .ok content :=
    hrequest.run_orFault (fun a h' hr => by cases hr; rfl) fun fault h' hr => by cases hr
  rw [Files.readText, Action.runOn_bind_of_ok hfile]
  cases Text.Utf8.decode content with
  | error fault => rfl
  | ok chars => rfl

/-- **A certificate is read off the bytes of its file**, and off nothing
else. -/
theorem runOn_readCertificate {path : Path} {content : Bytes}
    (hpath : (location.getD c.certificateLocation).path = .ok path)
    (hrefuses : h.refuses h.asked (.read path) = none) (hread : h.tree.read path = .ok content) :
    ((c.readCertificate location).runOn h).1 = readBack path content := by
  have hlocation : ((Action.ofExcept (location.getD c.certificateLocation).path).runOn h).1
      = .ok path := hpath
  have htext := runOn_readText hrefuses hread
  rw [readCertificate, Action.runOn_bind_of_ok hlocation, readBack]
  show ((Files.readText path >>= _).runOn h).1 = _
  cases hdecode : Text.Utf8.decode content with
  | error fault =>
    rw [hdecode] at htext
    rw [Action.runOn_bind_of_error htext]
  | ok chars =>
    rw [hdecode] at htext
    rw [Action.runOn_bind_of_ok htext]
    dsimp only
    cases Certificate.decodePem (String.ofList chars) with
    | error e => rfl
    | ok certificate => rfl

/-- A text that was read was in a file, and the host did not refuse it. -/
theorem yields_readText (path : Path) :
    Program.Yields (Files.readText path) h fun _ _ =>
      ∃ content, h.refuses h.asked (.read path) = none ∧ h.tree.read path = .ok content := by
  have hrequest : (Program.request (.read path)).Ends h fun r _ =>
      r = (h.look (.read path) (·.read path)).1 := rfl
  have hfile : Program.Yields (Action.orFault path (Program.request (.read path))) h
      fun content _ => h.refuses h.asked (.read path) = none ∧ h.tree.read path = .ok content := by
    refine hrequest.run_orFault (fun a h' hr content hcontent => ?_) fun fault h' _ content hnot => by
      cases hnot
    cases hcontent
    exact h.look_eq_ok _ hr.symm
  exact hfile.bind fun content h' hr text _ => ⟨content, hr⟩

/-- **A certificate that was read** is the one in the file. -/
theorem readCertificate_eq_ok {certificate : Certificate}
    (hresult : ((c.readCertificate location).runOn h).1 = .ok certificate) :
    ∃ path content, (location.getD c.certificateLocation).path = .ok path
      ∧ h.tree.read path = .ok content ∧ readBack path content = .ok certificate := by
  obtain ⟨path, hpath, hrest⟩ := Action.runOn_bind_eq_ok_iff.1 hresult
  obtain ⟨text, htext, -⟩ := Action.runOn_bind_eq_ok_iff.1 hrest
  obtain ⟨content, hrefuses, hread⟩ := yields_readText path text htext
  exact ⟨path, content, hpath, hread,
    (runOn_readCertificate hpath hrefuses hread).symm.trans hresult⟩

end Component

/-! ## Calls

All calls are put into one type, so that a history is a list of them. A call
is a read or a write, or it comes to neither, because its path cannot be
formed. -/

/-- **A call to the store**, with all that it is called with. Without a location
it is about the component's own file. -/
inductive Call where
  /-- To write material for a component. -/
  | write (component : Component) (material : Material) (location : Option Location)
    (mode : WriteMode)
  /-- To read a component's certificate. -/
  | read (component : Component) (location : Option Location)

/-- **What was written, and where.** -/
structure Write where
  /-- The path. -/
  path : Path
  /-- What the file has in it. -/
  content : Bytes
  deriving DecidableEq

namespace Call

/-- The path that a call is about, if there is one. -/
def target : Call → Except Error Path
  | write c m location _ => (location.getD (m.home c)).path
  | read c location => (location.getD c.certificateLocation).path

/-- **Does what is called for.** Returns what was written, if something
was. -/
def perform : Call → Action (Option Write)
  | write c m location mode => do
    let path ← c.store m location mode
    return some ⟨path, m.bytes⟩
  | read c location => do
    let _ ← c.readCertificate location
    return none

/-- **A call about no path** has that as its error and changes nothing. -/
theorem runOn_of_target_error {k : Call} {e : Error} (he : k.target = .error e) (h : Host) :
    k.perform.runOn h = (.error e, h) := by
  cases k with
  | write c m location mode =>
    exact Component.runOn_bind_error (Component.store_of_error he h mode) _
  | read c location =>
    exact Component.runOn_bind_error (Component.readCertificate_of_error he h) _

/-- **What a write writes**: its material, to its location. -/
theorem write_eq_ok {c : Component} {m : Material} {location : Option Location} {mode : WriteMode}
    {h : Host} {w : Write} (hresult : ((write c m location mode).perform.runOn h).1 = .ok (some w)) :
    (location.getD (m.home c)).path = .ok w.path ∧ w.content = m.bytes := by
  obtain ⟨path, hstore, hwrite⟩ := Action.runOn_bind_eq_ok_iff.1 hresult
  cases hwrite
  refine ⟨?_, rfl⟩
  have hend := Component.ends_store h c m location mode
  unfold Ends at hend
  rw [show ((c.store m location mode).run.runOn h).1 = .ok path from hstore] at hend
  exact hend.written.1

/-- **How a call ends**: something was written, or not, and then files were
read at most, or directories were made on the way of a write that failed and may
have left a temporary file that the host has just refused to remove. -/
def End (h : Host) (r : Except Error (Option Write)) (h' : Host) : Prop :=
  match r with
  | .ok (some w) => ∃ mode made q, Files.Written w.path w.content mode h.tree made h'.tree q
  | .ok none => h'.tree = h.tree
  | .error _ => h'.tree = h.tree ∨ ∃ path, Files.Unwritten path h'.HasJustRefused h.tree h'.tree

/-- **Every call ends so**, on every host. -/
theorem ends_perform (k : Call) (h : Host) : k.perform.run.Ends h (End h) := by
  cases k with
  | write c m location mode =>
    refine (Component.ends_store h c m location mode).run_bind (fun path h' hr => ?_)
      fun e h' hr => ?_
    · obtain ⟨-, made, q, hwritten⟩ := hr.written
      exact ⟨mode, made, q, hwritten⟩
    · cases htarget : (location.getD (m.home c)).path with
      | error e =>
        rw [htarget] at hr
        exact Or.inl hr.2
      | ok target =>
        rw [htarget] at hr
        exact Or.inr ⟨target, hr.2⟩
  | read c location =>
    have htree : (c.readCertificate location).run.Ends h fun _ h' => h'.tree = h.tree :=
      (Component.looks_readCertificate c location).tree_runOn h
    exact htree.run_bind (fun _ h' hr => hr) fun e h' hr => Or.inl hr

end Call

end CertAuthority.Store
