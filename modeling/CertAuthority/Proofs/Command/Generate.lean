import CertAuthority.Proofs.Certificate.Draft
import CertAuthority.Proofs.Command.Grant
import CertAuthority.Proofs.Files.Beside
import CertAuthority.Proofs.Store.Component

/-!
# What `generate` leaves behind

`generate` makes a certificate and a key, stores one and then the other, and
reports. Making them asks for no change to files, and storing either is all or
nothing. So if `generate` fails before it reports, no file is new and none has
changed, unless the certificate was stored and the key was not
(`ends_generate`).

That does happen. Whether the key can be stored is looked into beforehand only
if nothing may be overwritten, and then only by whether its path leads to a
file. What stands in the way of the key once the certificate is there is
`Made.KeyFits`: the name of its file is no plain one, no file system takes its
path, or the name belongs to a directory, or to a link that leads nowhere.

To say that the files are kept is to say that nothing is new but directories
(`KeepsFiles`), for those on the way to the certificate are made before it is
known whether it can be stored, and are not taken away again. It is asked of
the host that it lets go of temporary files; one that does not may keep one of
them, as any write may leave it. The equivalence is with `LeavesHalf`, which
is about the run as far as the key, and on a host that refuses nothing else it
is for the tree to say whether that comes about.
-/

namespace CertAuthority.Command

open Files (Tree WriteMode)
open Program (Ends ends_ofAction)
open Store (Component Location)

/-! ## How a run ends

A run stops at the first of its steps that fails: nothing was made, the
certificate was not stored, or the key was not. If all of them succeed, the
report may still fail. Each case carries what is known of the hosts in
between, so that what follows is by cases on the end and does not go back to
the steps. -/

/-- **The certificate was made and stored**, and the key is next. The host is
the one in between, where only the first of the two files is there. -/
def Stored (config : SecurityConfig) (label : String) (r : GenerateRequest) (h : Host) (m : Made)
    (h' : Host) : Prop :=
  ∃ h₁ path, (make config label r).runOn h = (.ok m, h₁)
    ∧ (m.storeCertificate (.ofFlag r.force)).runOn h₁ = (.ok path, h')

/-- **How `generate` ends**, by the step that it has come to. Of a failure it is
said which step it is one of, because that decides what has become of the files.
-/
inductive GenerateEnd (config : SecurityConfig) (label : String) (r : GenerateRequest) (h : Host)
    (result : Except Failure Unit) (h' : Host) : Prop where
  /-- Nothing was made. -/
  | unmade {failure : Failure} (result : result = .error failure) (early : failure.IsBeforeReport)
    (make : ((make config label r).runOn h).1 = .error failure) (tree : h'.tree = h.tree)
  /-- The certificate was not stored. -/
  | unstored {m : Made} {h₁ : Host} {e : Error} (result : result = .error (.authority e))
    (make : (make config label r).runOn h = (.ok m, h₁))
    (certificate : (m.storeCertificate (.ofFlag r.force)).runOn h₁ = (.error e, h'))
  /-- The certificate was stored and the key was not. -/
  | half {m : Made} {h₂ : Host} {e : Error} (result : result = .error (.authority e))
    (stored : Stored config label r h m h₂)
    (key : (m.storeKey (.ofFlag r.force)).runOn h₂ = (.error e, h'))
  /-- Both were stored, and reported or not. -/
  | whole {m : Made} {h₂ h₃ : Host} {path : Path} (stored : Stored config label r h m h₂)
    (key : (m.storeKey (.ofFlag r.force)).runOn h₂ = (.ok path, h₃))
    (report : ∀ failure, result = .error failure → ¬ failure.IsBeforeReport)

/-- What fails to be printed is a failure of the report. -/
theorem ends_print (text : String) (failure : Files.Fault → Failure)
    (hfailure : ∀ fault, ¬ (failure fault).IsBeforeReport) (h : Host) :
    (ExceptT.run (print text failure)).Ends h fun result _ =>
      ∀ failure, result = .error failure → ¬ failure.IsBeforeReport := by
  have hprint : (Program.request (.print text)).Ends h fun _ _ => True := trivial
  refine hprint.bind fun r h' _ failure' hresult => ?_
  cases r with
  | ok u => cases hresult
  | error fault =>
    cases hresult
    exact hfailure fault

/-- Reports fail for reasons of their own. -/
theorem ends_report {α : Type} [Report α] (format : Format) (a : α) (h : Host) :
    (ExceptT.run (report format a)).Ends h fun result _ =>
      ∀ failure, result = .error failure → ¬ failure.IsBeforeReport := by
  cases format with
  | table => exact ends_print _ .output (fun _ => not_false) h
  | json =>
    refine (ends_print (Json.pretty (Report.object a)) (fun fault => .format (.unwritten fault))
      (fun _ => not_false) h).run_bind (fun u h' _ => ?_) fun e h' hr failure hfailure => ?_
    · exact ends_print _ .output (fun _ => not_false) h'
    · cases hfailure
      exact hr e rfl

/-- **`generate` fails when one of its steps does.** -/
theorem ends_generate (config : SecurityConfig) (label : String) (format : Format)
    (r : GenerateRequest) (h : Host) :
    (ExceptT.run (generate config label format r)).Ends h (GenerateEnd config label r h) := by
  have hmake : (ExceptT.run (make config label r)).Ends h fun result h₁ =>
      ((make config label r).runOn h = (result, h₁) ∧ h₁.tree = h.tree)
        ∧ ∀ failure, result = .error failure → failure.IsBeforeReport :=
    ⟨⟨rfl, (looks_make config label r).tree_runOn h⟩, failsEarly_make config label r h⟩
  refine hmake.run_bind (fun m h₁ hr => ?_) fun failure h₁ hr => ?_
  · obtain ⟨⟨hmade, -⟩, -⟩ := hr
    refine (ends_ofAction (m.storeCertificate (.ofFlag r.force)) h₁).run_bind
      (fun path h₂ hstored => ?_) fun failure h₂ hr => ?_
    · refine (ends_ofAction (m.storeKey (.ofFlag r.force)) h₂).run_bind
        (fun keyPath h₃ hkey => ?_) fun failure h₃ hr => ?_
      · have hnote : (ExceptT.run (ofAction (Action.note (.certificateGenerated label
            m.certificate.serialNumber m.days)))).Ends h₃ fun result _ => result = .ok () := rfl
        refine hnote.run_bind (fun _ h₄ _ => ?_) fun e h₄ he => by cases he
        refine (ends_report format _ h₄).mono fun result h₅ hreport => ?_
        exact .whole ⟨h₁, path, hmade, hstored⟩ hkey hreport
      · obtain ⟨e, rfl, hkey⟩ := hr
        exact .half rfl ⟨h₁, path, hmade, hstored⟩ hkey
    · obtain ⟨e, rfl, hcertificate⟩ := hr
      exact .unstored rfl hmade hcertificate
  · obtain ⟨⟨hmade, htree⟩, hearly⟩ := hr
    exact .unmade rfl (hearly failure rfl) (congrArg Prod.fst hmade) htree

/-! ## What is left behind

A write that fails may have made directories by then. That is not held against
it: files are kept if all that is new are directories, and this is what both
writes give when they fail. -/

/-- **A tree in which nothing is new but directories**: every file, link and
directory that was there is as it was. -/
structure KeepsFiles (t t' : Tree) : Prop where
  /-- Relative paths start in the same directory. -/
  workingDirectory : t'.workingDirectory = t.workingDirectory
  /-- What is there. -/
  get? : ∀ p, t'.get? p = t.get? p ∨ t.get? p = none ∧ ∃ mode, t'.get? p = some (.directory mode)

theorem KeepsFiles.of_eq {t t' : Tree} (h : t' = t) : KeepsFiles t t' := by
  subst h
  exact ⟨rfl, fun _ => Or.inl rfl⟩

/-- Files are kept where directories were made on a way. -/
theorem KeepsFiles.of_wayMade {t t' : Tree} {dir : Path} (h : Tree.WayMade dir t t') :
    KeepsFiles t t' :=
  ⟨h.workingDirectory, fun p => (h.get? p).imp_right fun hmade => ⟨hmade.1, _, hmade.2.1⟩⟩

/-- Directories that are made afterwards make no difference, where nothing
was lost before. -/
theorem keepsFiles_iff {t t' t'' : Tree} (hdir : t'.workingDirectory = t.workingDirectory)
    (hkept : ∀ p, t.get? p ≠ none → t'.get? p ≠ none) (h : KeepsFiles t' t'') :
    KeepsFiles t t'' ↔ KeepsFiles t t' := by
  refine ⟨fun hall => ⟨hdir, fun p => ?_⟩, fun hfirst => ⟨?_, fun p => ?_⟩⟩
  · rcases h.get? p with heq | ⟨hnone, -⟩
    · rw [← heq]
      exact hall.get? p
    · left
      rw [hnone]
      by_contra hlost
      exact hkept p (fun hgone => hlost hgone.symm) hnone
  · exact h.workingDirectory.trans hdir
  · rcases hfirst.get? p with heq | ⟨hnone, mode, hmade⟩
    · rw [← heq]
      exact h.get? p
    · rcases h.get? p with heq | ⟨hnone', -⟩
      · exact Or.inr ⟨hnone, mode, heq.trans hmade⟩
      · rw [hnone'] at hmade
        cases hmade

section Steps

variable {config : SecurityConfig} {label : String} {r : GenerateRequest} {h h' : Host} {m : Made}

/-- A run that stores the certificate ends as a write to its location. -/
theorem storeCertificate_end {mode : WriteMode} {result : Except Error Path}
    (hrun : (m.storeCertificate mode).runOn h = (result, h')) :
    Component.WriteEndAt h m.certificateLocation.path
      (Text.Utf8.encode m.certificate.encodePem.toList) mode result h' := by
  have hend := Component.ends_writeCertificate h m.component (some m.certificateLocation) mode
    m.certificate
  unfold Ends at hend
  rwa [show (m.component.writeCertificate m.certificate (some m.certificateLocation)
    mode).run.runOn h = (result, h') from hrun] at hend

theorem storeKey_end {mode : WriteMode} {result : Except Error Path}
    (hrun : (m.storeKey mode).runOn h = (result, h')) :
    Component.WriteEndAt h m.keyLocation.path (Text.Utf8.encode m.key.privateKey.pem.toList) mode
      result h' := by
  have hend := Component.ends_writePrivateKey h m.component (some m.keyLocation) mode
    m.key.privateKey
  unfold Ends at hend
  rwa [show (m.component.writePrivateKey m.key.privateKey (some m.keyLocation)
    mode).run.runOn h = (result, h') from hrun] at hend

/-- **What has become of the files when the certificate is stored.** -/
theorem Stored.written (hstored : Stored config label r h m h') :
    m.IsPlaced ∧ h'.refuses = h.refuses ∧ Path.IsPlainSegment m.certificateLocation.fileName
      ∧ ∃ made q, Files.Written (m.component.directory.join ⟨m.certificateLocation.fileName⟩)
        (Text.Utf8.encode m.certificate.encodePem.toList) (.ofFlag r.force) h.tree made h'.tree q := by
  obtain ⟨h₁, path, hmade, hcertificate⟩ := hstored
  obtain ⟨hplaced, htree, hrefuses⟩ := placed_of_make hmade
  have hrefuses' := Program.refuses_runOn (m.storeCertificate (.ofFlag r.force)).run h₁
  rw [show (m.storeCertificate (.ofFlag r.force)).run.runOn h₁ = (.ok path, h') from hcertificate]
    at hrefuses'
  refine ⟨hplaced, hrefuses'.trans hrefuses, ?_⟩
  obtain ⟨hpath, made, q, hwritten⟩ := (storeCertificate_end hcertificate).written
  obtain ⟨hplain, rfl⟩ := Location.path_eq_ok hpath
  rw [hplaced.certificate, htree] at hwritten
  exact ⟨hplain, made, q, hwritten⟩

end Steps

/-- What was there before the certificate was stored is there afterwards, if
not as it was. -/
theorem Stored.kept {config : SecurityConfig} {label : String} {r : GenerateRequest}
    {h h₂ : Host} {m : Made} (hstored : Stored config label r h m h₂) (p : Files.Place)
    (hp : h.tree.get? p ≠ none) : h₂.tree.get? p ≠ none := by
  obtain ⟨-, -, -, made, q, hwritten⟩ := hstored.written
  by_cases hq : p = q
  · rw [hq, hwritten.moved.self]
    exact Option.some_ne_none _
  · rw [hwritten.moved.others p hq]
    exact fun hnone => hp (hwritten.way.toExtends.get?_eq_none hnone)

/-! ## When the key can be stored -/

/-- **Nothing stands in the way of the key**: the name of its file is a
plain one, and the tree takes the file. -/
structure Made.KeyFits (m : Made) (mode : WriteMode) (t : Tree) : Prop where
  /-- The name is a plain one. -/
  plain : Path.IsPlainSegment m.keyLocation.fileName
  /-- The tree takes the file. -/
  takes : t.Takes m.component.directory m.keyLocation.fileName mode

/-- **The key is stored beside the certificate if it fits**, on a host that
refuses nothing. -/
theorem Stored.ends_storeKey {config : SecurityConfig} {label : String} {r : GenerateRequest}
    {h h₂ : Host} {m : Made} (hstored : Stored config label r h m h₂) (hobliging : h.Obliging)
    (mode : WriteMode) :
    (m.storeKey mode).run.Ends h₂ fun result _ =>
      (∃ path, result = .ok path) ↔ m.KeyFits mode h₂.tree := by
  obtain ⟨hplaced, hrefuses, hplain, made, q, hwritten⟩ := hstored.written
  have hobliging₂ : h₂.Obliging := hobliging.of_refuses hrefuses
  have hlocation : (Action.ofExcept m.keyLocation.path).run.Ends h₂ fun result h' =>
      result = m.keyLocation.path ∧ h' = h₂ := ⟨rfl, rfl⟩
  unfold Made.storeKey Component.writePrivateKey
  refine hlocation.run_bind (fun path h₃ hr => ?_) fun e h₃ hr => ?_
  · obtain ⟨hpath, rfl⟩ := hr
    obtain ⟨hname, rfl⟩ := Location.path_eq_ok hpath.symm
    rw [hplaced.key]
    have hwrite : (Files.writeText (m.component.directory.join ⟨m.keyLocation.fileName⟩)
        m.key.privateKey.pem mode).run.Ends h₃ fun result _ =>
          (∃ u, result = .ok u) ↔ h₃.tree.Takes m.component.directory m.keyLocation.fileName mode :=
      Files.ends_write_beside hobliging₂ hplaced.directory hplain.isNamePiece hname.isNamePiece
        hwritten _ mode
    refine hwrite.run_bind (fun u h₄ hr => ?_) fun e h₄ hr => ?_
    · exact iff_of_true ⟨_, rfl⟩ ⟨hname, hr.1 ⟨u, rfl⟩⟩
    · exact iff_of_false not_exists_error_eq_ok fun hfits =>
        not_exists_error_eq_ok (hr.2 hfits.takes)
  · obtain ⟨hpath, -⟩ := hr
    refine iff_of_false not_exists_error_eq_ok fun hfits => ?_
    unfold Location.path Store.plainSegment at hpath
    rw [if_pos hfits.plain] at hpath
    cases hpath

/-! ## The whole

On a host that lets go of its files, there is one way to fail that leaves more
than directories and is no failure of the report: the certificate is stored
and the key is not. So the files are kept just when no half of a pair is left,
provided that a half is only what differs from the file that was there. -/

/-- **Half a pair is left**: the certificate is stored, and is not the file
that was there, but the key is not. -/
def LeavesHalf (config : SecurityConfig) (label : String) (r : GenerateRequest) (h : Host) : Prop :=
  ∃ m h₂ e, Stored config label r h m h₂ ∧ ¬ KeepsFiles h.tree h₂.tree
    ∧ ((m.storeKey (.ofFlag r.force)).runOn h₂).1 = .error e

/-- **A pair is left**: both are stored. The run may have failed nevertheless,
at its report. -/
def LeavesPair (config : SecurityConfig) (label : String) (r : GenerateRequest) (h : Host) : Prop :=
  ∃ m h₂ path, Stored config label r h m h₂
    ∧ ((m.storeKey (.ofFlag r.force)).runOn h₂).1 = .ok path

section Whole

variable {config : SecurityConfig} {label : String} {r : GenerateRequest} {h h' h₂ : Host}
  {m : Made} {result : Except Failure Unit}

/-- There is one way for the certificate to have been stored: a run is a
function of its host. -/
theorem Stored.unique {h₂' : Host} {m' : Made} (hstored : Stored config label r h m h₂)
    (hstored' : Stored config label r h m' h₂') : m = m' ∧ h₂ = h₂' := by
  obtain ⟨h₁, path, hmade, hcertificate⟩ := hstored
  obtain ⟨h₁', path', hmade', hcertificate'⟩ := hstored'
  rw [hmade] at hmade'
  cases hmade'
  rw [hcertificate] at hcertificate'
  cases hcertificate'
  exact ⟨rfl, rfl⟩

/-- A host that lets go of its files has made directories at most when a
write has failed. -/
theorem keepsFiles_of_error {target : Except Error Path} {content : Bytes} {mode : WriteMode}
    {e : Error} (hend : Component.WriteEndAt h target content mode (.error e) h')
    (hremove : ∀ path, ¬ h'.MayRefuse (.remove path)) : KeepsFiles h.tree h'.tree := by
  cases target with
  | error e' => exact .of_eq hend.2
  | ok path =>
    obtain ⟨-, hunwritten⟩ := hend
    cases hunwritten with
    | clean way => exact .of_wayMade way
    | leftover way vacant tree refused => exact absurd refused.mayRefuse (hremove _)

/-- What a host never refuses, it never refuses after a run. -/
theorem not_mayRefuse_runOn {α : Type} {p : Action α} {result : Except Error α} {h₁ : Host}
    (hremove : ∀ path, ¬ h.MayRefuse (.remove path)) (hrefuses : h₁.refuses = h.refuses)
    (hrun : p.runOn h₁ = (result, h')) (path : Path) : ¬ h'.MayRefuse (.remove path) := by
  have hsame := Program.refuses_runOn p.run h₁
  rw [show p.run.runOn h₁ = (result, h') from hrun] at hsame
  unfold Host.MayRefuse
  rw [hsame, hrefuses]
  exact hremove path

/-- **The files are kept unless half a pair is left**, if the failure is not
one of the report. -/
theorem GenerateEnd.keepsFiles_iff (hend : GenerateEnd config label r h result h')
    (hremove : ∀ path, ¬ h.MayRefuse (.remove path)) {failure : Failure}
    (hfailure : result = .error failure) (hbefore : failure.IsBeforeReport) :
    KeepsFiles h.tree h'.tree ↔ ¬ LeavesHalf config label r h := by
  -- A run is a function of its host, so a half that is left would be that of this very run.
  cases hend with
  | unmade hresult hearly hmake htree =>
    refine iff_of_true (.of_eq htree) ?_
    rintro ⟨m, h₂, e, ⟨h₁, path, hmade, -⟩, -⟩
    rw [hmade] at hmake
    cases hmake
  | @unstored m h₁ e hresult hmade hcertificate =>
    obtain ⟨-, htree, hrefuses⟩ := placed_of_make hmade
    have hkeeps : KeepsFiles h₁.tree h'.tree :=
      keepsFiles_of_error (storeCertificate_end hcertificate)
        (not_mayRefuse_runOn hremove hrefuses hcertificate)
    rw [htree] at hkeeps
    refine iff_of_true hkeeps ?_
    rintro ⟨m', h₂, e', ⟨h₁', path, hmade', hcertificate'⟩, -⟩
    rw [hmade] at hmade'
    cases hmade'
    rw [hcertificate] at hcertificate'
    cases hcertificate'
  | @half m h₂ e hresult hstored hkey =>
    obtain ⟨-, hrefuses, -, made, q, hwritten⟩ := hstored.written
    have hkeeps : KeepsFiles h₂.tree h'.tree :=
      keepsFiles_of_error (storeKey_end hkey) (not_mayRefuse_runOn hremove hrefuses hkey)
    have hdir := hwritten.moved.workingDirectory.trans hwritten.way.workingDirectory
    rw [Command.keepsFiles_iff hdir hstored.kept hkeeps]
    constructor
    · rintro hfirst ⟨m', h₂', e', hstored', hnot, -⟩
      obtain ⟨rfl, rfl⟩ := hstored.unique hstored'
      exact hnot hfirst
    · intro hnot
      by_contra hfirst
      exact hnot ⟨m, h₂, e, hstored, hfirst, congrArg Prod.fst hkey⟩
  | whole hstored hkey hreport => exact absurd hbefore (hreport failure hfailure)

/-- A failure of the report comes when both are stored. -/
theorem GenerateEnd.leavesPair (hend : GenerateEnd config label r h result h') {failure : Failure}
    (hfailure : result = .error failure) (hreport : ¬ failure.IsBeforeReport) :
    LeavesPair config label r h := by
  cases hend with
  | unmade hresult hearly hmake htree =>
    rw [hresult] at hfailure
    cases hfailure
    exact absurd hearly hreport
  | unstored hresult hmade hcertificate =>
    rw [hresult] at hfailure
    cases hfailure
    exact absurd trivial hreport
  | half hresult hstored hkey =>
    rw [hresult] at hfailure
    cases hfailure
    exact absurd trivial hreport
  | whole hstored hkey hreport => exact ⟨_, _, _, hstored, congrArg Prod.fst hkey⟩

/-- On a host that refuses nothing, the key is stored if it fits. -/
theorem Stored.storeKey_fails_iff (hstored : Stored config label r h m h₂) (hobliging : h.Obliging)
    (mode : WriteMode) :
    (∃ e, ((m.storeKey mode).runOn h₂).1 = .error e) ↔ ¬ m.KeyFits mode h₂.tree := by
  have hiff : (∃ path, ((m.storeKey mode).runOn h₂).1 = .ok path) ↔ m.KeyFits mode h₂.tree :=
    hstored.ends_storeKey hobliging mode
  rw [← hiff]
  cases ((m.storeKey mode).runOn h₂).1 with
  | ok path => exact iff_of_false (fun ⟨e, he⟩ => by cases he) fun hnot => hnot ⟨path, rfl⟩
  | error e => exact iff_of_true ⟨e, rfl⟩ not_exists_error_eq_ok

/-- **What has the key's name beforehand has it still** when a new certificate
is stored, and the key does not fit. -/
theorem Stored.not_keyFits (hstored : Stored config label r h m h₂) (hforce : r.force = false)
    {d : Files.Place} {mode : Nat}
    (hthere : h.tree.locate true m.component.directory = .entry d (.directory mode))
    (hkey : h.tree.get? (m.keyLocation.fileName :: d) ≠ none) :
    ¬ m.KeyFits (.ofFlag r.force) h₂.tree := by
  obtain ⟨-, -, -, made, q, hwritten⟩ := hstored.written
  rw [hforce] at hwritten ⊢
  have hextends : Tree.Extends h.tree h₂.tree := hwritten.toExtends (hwritten.isNew rfl)
  intro hfits
  obtain ⟨d', mode', hthere', hfree⟩ := hfits.takes.free
  have hleads := Tree.locate_extends hextends true m.component.directory
  rw [hthere] at hleads
  obtain ⟨e, he⟩ := hleads
  rw [hthere'] at he
  cases he
  exact hkey (hextends.get?_eq_none hfree)

/-- A new certificate is not the file that was there. -/
theorem Stored.not_keepsFiles (hstored : Stored config label r h m h₂) (hforce : r.force = false) :
    ¬ KeepsFiles h.tree h₂.tree := by
  obtain ⟨-, -, -, made, q, hwritten⟩ := hstored.written
  rw [hforce] at hwritten
  intro hkeeps
  have hself := hwritten.moved.self
  rcases hkeeps.get? q with heq | ⟨-, mode, hdirectory⟩
  · rw [hself, hwritten.isNew rfl] at heq
    cases heq
  · rw [hself] at hdirectory
    cases hdirectory

/-- **Where half a pair is left**, `generate` fails, and the files are not as
they were. -/
theorem LeavesHalf.ends_generate (hhalf : LeavesHalf config label r h)
    (hremove : ∀ path, ¬ h.MayRefuse (.remove path)) (format : Format) :
    (ExceptT.run (generate config label format r)).Ends h fun result h' =>
      (∃ e, result = .error (.authority e)) ∧ ¬ KeepsFiles h.tree h'.tree := by
  refine (Command.ends_generate config label format r h).mono fun result h' hend => ?_
  have herror : ∃ e, result = .error (.authority e) := by
    obtain ⟨m, h₂, e, hstored, -, hkey⟩ := hhalf
    cases hend with
    | unmade hresult hearly hmake htree =>
      obtain ⟨h₁, path, hmade, -⟩ := hstored
      rw [hmade] at hmake
      cases hmake
    | unstored hresult hmade hcertificate => exact ⟨_, hresult⟩
    | half hresult hstored' hkey' => exact ⟨_, hresult⟩
    | whole hstored' hkey' hreport =>
      obtain ⟨rfl, rfl⟩ := hstored.unique hstored'
      rw [hkey'] at hkey
      cases hkey
  obtain ⟨e, he⟩ := herror
  refine ⟨⟨e, he⟩, fun hkeeps => ?_⟩
  exact (hend.keepsFiles_iff hremove he trivial).1 hkeeps hhalf

/-- **The certificate is stored if the tree takes it**, on a host that refuses
nothing and in a directory that is there. -/
theorem Made.IsPlaced.ends_storeCertificate (hplaced : m.IsPlaced) (hobliging : h.Obliging)
    (hplain : Path.IsPlainSegment m.certificateLocation.fileName) {d : Files.Place} {k : Nat}
    (hthere : h.tree.locate true m.component.directory = .entry d (.directory k))
    (mode : WriteMode) :
    (m.storeCertificate mode).run.Ends h fun result _ => (∃ path, result = .ok path)
      ↔ h.tree.Takes m.component.directory m.certificateLocation.fileName mode := by
  have hpath : m.certificateLocation.path
      = .ok (m.component.directory.join ⟨m.certificateLocation.fileName⟩) := by
    rw [Location.path_of_plain hplain, hplaced.certificate]
  have hwrite := Files.ends_write_below hobliging hplaced.directory hplain.isNamePiece hthere
    (Text.Utf8.encode m.certificate.encodePem.toList) mode
  unfold Made.storeCertificate Component.writeCertificate Component.writePem Files.writeText
  rw [show (some m.certificateLocation).getD m.component.certificateLocation
    = m.certificateLocation from rfl, hpath]
  refine (hwrite.run_bind (Q := fun result _ => (∃ path, result = .ok path)
    ↔ h.tree.Takes m.component.directory m.certificateLocation.fileName mode)
    (fun u h' hr => ?_) fun e h' hr => ?_).run_bind (fun path h' hr => ?_) fun e h' hr => hr
  · exact iff_of_true ⟨_, rfl⟩ (hr.1 ⟨u, rfl⟩)
  · exact iff_of_false not_exists_error_eq_ok fun ht => not_exists_error_eq_ok (hr.2 ht)
  · exact iff_of_true ⟨_, rfl⟩ (hr.1 ⟨path, rfl⟩)

/-- **`generate` fails and leaves the files as they were, unless it leaves
half a pair.** That happens just when the certificate was stored and the key
was not; on a host that refuses nothing, it is just when the key does not fit
in the tree with the certificate. When it is the report that fails, there is
a pair. -/
theorem generate_keepsFiles_iff (config : SecurityConfig) (label : String) (format : Format)
    (r : GenerateRequest) {h : Host} (hremove : ∀ path, ¬ h.MayRefuse (.remove path)) :
    (ExceptT.run (generate config label format r)).Ends h (fun result h' =>
      ∀ failure, result = .error failure →
        (failure.IsBeforeReport → (KeepsFiles h.tree h'.tree ↔ ¬ LeavesHalf config label r h))
        ∧ (¬ failure.IsBeforeReport → LeavesPair config label r h))
    ∧ (h.Obliging → ∀ m h₂, Stored config label r h m h₂ →
        ((∃ e, ((m.storeKey (.ofFlag r.force)).runOn h₂).1 = .error e)
          ↔ ¬ m.KeyFits (.ofFlag r.force) h₂.tree)) := by
  refine ⟨(ends_generate config label format r h).mono fun result h' hend failure hfailure => ?_,
    fun hobliging m h₂ hstored => hstored.storeKey_fails_iff hobliging _⟩
  exact ⟨hend.keepsFiles_iff hremove hfailure, hend.leavesPair hfailure⟩

end Whole

/-! ## Half a pair

The check beforehand asks whether there is something at the two paths and
follows links to find out, while the write that may not replace anything asks
whether the name is taken. A link that leads nowhere is the difference. -/

/-- A request for a certificate that holds for one year. -/
def yearRequest : GenerateRequest where
  subject := "scm-1"
  clusterId := "cluster"
  scmId := "storage"
  days := none
  ca := true
  dnsNames := ["scm.local"]
  ipAddresses := []
  algorithm := some .ed25519
  fileName := none
  force := false

/-- The component that it is for. -/
def scm : Component :=
  ⟨"scm", ⟨"./security/scm"⟩, ⟨⟨"./security"⟩, "certificate.crt", "private.pem"⟩⟩

/-- Where its files go. -/
theorem hasTargets_yearRequest : yearRequest.HasTargets .default "scm" scm
    ⟨"./security/scm/certificate.crt"⟩ ⟨"./security/scm/private.pem"⟩ where
  configured := rfl
  located := rfl
  keyLocated := rfl
  different := by decide +kernel

/-- The last day of the request, by the default number of days. -/
theorem lastDay_yearRequest : yearRequest.lastDay .default ⟨2024, 1, 1⟩ = ⟨2024, 12, 31⟩ := by
  have hdays : (⟨2024, 12, 31⟩ : Calendar.Date).dayNumber - Calendar.Date.dayNumber ⟨2024, 1, 1⟩
      = (365 : Nat) := by decide
  exact Calendar.Date.iterate_next (by decide) (by decide) hdays

/-- **Its days are granted** on the first of that year. -/
theorem daysFit_yearRequest : yearRequest.DaysFit .default ⟨2024, 1, 1⟩ where
  pos := by decide
  max := by decide
  writable := by
    rw [lastDay_yearRequest]
    decide

/-- Nothing else speaks against it. -/
theorem isSound_yearRequest {h : Host} (htoday : h.today = ⟨2024, 1, 1⟩) :
    ∃ k, yearRequest.IsSound .default h k := by
  obtain ⟨k, hk, halgorithm, hlength⟩ :=
    KeyPair.ofEntropy?_ed25519 (h.entropy h.draws KeyPair.entropySize)
  have horder : yearRequest.order .default h.today k = Draft.yearOrder (.pair k) := by
    unfold GenerateRequest.order
    rw [htoday, lastDay_yearRequest]
    rfl
  have hacceptable := Draft.isAcceptable_yearOrder (.pair k) halgorithm
  refine ⟨k, fun text hmem => ?_, fun name hmem => ?_, hk, fun _ => ?_⟩
  · obtain ⟨⟨field, value⟩, hfield, rfl⟩ :=
      List.mem_map.1 (show text ∈ (Draft.yearOrder (.pair k)).texts.map Prod.snd from hmem)
    exact hacceptable.texts field value hfield
  · obtain rfl := List.mem_singleton.1 hmem
    exact hacceptable.names _ (List.mem_singleton_self _)
  · rw [horder]
    exact Draft.signs_yearOrder _ halgorithm hlength

/-- **The request is granted** on that day, unless there are such files. -/
theorem ends_make_yearRequest {h : Host} (hobliging : h.Obliging) (htoday : h.today = ⟨2024, 1, 1⟩)
    (hcertificate : h.tree.kind? ⟨"./security/scm/certificate.crt"⟩ = none)
    (hkey : h.tree.kind? ⟨"./security/scm/private.pem"⟩ = none) :
    (ExceptT.run (make .default "scm" yearRequest)).Ends h fun result _ =>
      ∃ m, result = .ok m := by
  obtain ⟨k, hsound⟩ := isSound_yearRequest htoday
  have hvalid : h.today.Valid ∧ 0 ≤ h.today.year := by
    rw [htoday]
    decide
  have hfit : yearRequest.DaysFit .default h.today := htoday ▸ daysFit_yearRequest
  have hanswer := ends_make_answered hasTargets_yearRequest hobliging
    (fun _ => ⟨hcertificate, hkey⟩) hsound hvalid.1 hvalid.2
  refine hanswer.mono fun result h' hr => ?_
  cases hr with
  | granted fit value => exact ⟨_, rfl⟩
  | refused unfit counted => exact absurd hfit unfit
  | beyond unfit late => exact absurd hfit unfit

/-- A host with a pair of files for the component. -/
def pairHost : Host where
  tree := ⟨[], [(["security"], .directory 0o755), (["scm", "security"], .directory 0o755),
    (["certificate.crt", "scm", "security"], .file 0o600 []),
    (["private.pem", "scm", "security"], .file 0o600 [])]⟩
  today := ⟨2024, 1, 1⟩
  entropy := fun _ _ => []

/-- **A pair that is there is kept.** -/
theorem generate_pairHost :
    ((generate .default "scm" .table yearRequest).runOn pairHost).1
      = .error (.authority (.fileAlreadyExists ⟨"./security/scm/certificate.crt"⟩))
    ∧ KeepsFiles pairHost.tree ((generate .default "scm" .table yearRequest).runOn pairHost).2.tree := by
  have hresult : ((generate .default "scm" .table yearRequest).runOn pairHost).1
      = .error (.authority (.fileAlreadyExists ⟨"./security/scm/certificate.crt"⟩)) := rfl
  have hmake : ((make .default "scm" yearRequest).runOn pairHost).1
      = .error (.authority (.fileAlreadyExists ⟨"./security/scm/certificate.crt"⟩)) := rfl
  have hremove : ∀ path, ¬ pairHost.MayRefuse (.remove path) := by
    rintro path ⟨asked, hrefused⟩
    exact hrefused rfl
  have hends := (generate_keepsFiles_iff .default "scm" .table yearRequest hremove).1 _ hresult
  refine ⟨hresult, (hends.1 trivial).2 ?_⟩
  rintro ⟨m, h₂, e, ⟨h₁, path, hmade, -⟩, -⟩
  rw [hmade] at hmake
  cases hmake

/-- A host on which the name of the component's key belongs to a link that
leads nowhere. -/
def danglingHost : Host where
  tree := ⟨[], [(["security"], .directory 0o755), (["scm", "security"], .directory 0o755),
    (["private.pem", "scm", "security"], .link ⟨"nowhere"⟩)]⟩
  today := ⟨2024, 1, 1⟩
  entropy := fun _ _ => []

/-- The check beforehand sees through the link, finds nothing, and the key is
then refused for the link. -/
theorem leavesHalf_danglingHost : LeavesHalf .default "scm" yearRequest danglingHost := by
  have hobliging : danglingHost.Obliging := fun _ _ => rfl
  have hcertificate : danglingHost.tree.kind? ⟨"./security/scm/certificate.crt"⟩ = none := by
    decide +kernel
  have hkey : danglingHost.tree.kind? ⟨"./security/scm/private.pem"⟩ = none := by
    decide +kernel
  have hthere : danglingHost.tree.locate true scm.directory
      = .entry ["scm", "security"] (.directory 0o755) := by
    decide +kernel
  have htaken : Tree.IsTaken scm.directory "certificate.crt" := by decide +kernel
  have htakes : danglingHost.tree.Takes scm.directory "certificate.crt" .createNew :=
    ⟨htaken, ⟨_, rfl⟩, _, _, hthere, rfl⟩
  obtain ⟨m, hmade⟩ := ends_make_yearRequest hobliging rfl hcertificate hkey
  obtain ⟨hfor, htree, hrefuses⟩ := runOn_make (Prod.ext hmade rfl)
  obtain ⟨hcomponent, hlocation, hkeyLocation⟩ := hasTargets_yearRequest.of_isFor hfor
  have hname : m.certificateLocation.fileName = "certificate.crt" := by
    rw [hlocation]
    rfl
  have hkeyName : m.keyLocation.fileName = "private.pem" := by
    rw [hkeyLocation]
    rfl
  have hplain : Path.IsPlainSegment m.certificateLocation.fileName := by
    rw [hname]
    decide +kernel
  rw [← hcomponent] at hthere htakes
  rw [← htree, ← hname] at htakes
  obtain ⟨path, hpath⟩ := (hfor.isPlaced.ends_storeCertificate (hobliging.of_refuses hrefuses)
    hplain (htree ▸ hthere) .createNew).2 htakes
  have hstored : Stored .default "scm" yearRequest danglingHost _ _ :=
    ⟨_, path, Prod.ext hmade rfl, Prod.ext hpath rfl⟩
  have hlink : danglingHost.tree.get? (m.keyLocation.fileName :: ["scm", "security"]) ≠ none := by
    rw [hkeyName]
    decide +kernel
  obtain ⟨e, he⟩ := (hstored.storeKey_fails_iff hobliging _).2 (hstored.not_keyFits rfl hthere hlink)
  exact ⟨_, _, e, hstored, hstored.not_keepsFiles rfl, he⟩

/-- **Half a pair is left** there. -/
theorem generate_danglingHost :
    (∃ e, ((generate .default "scm" .table yearRequest).runOn danglingHost).1
      = .error (.authority e))
    ∧ ¬ KeepsFiles danglingHost.tree
      ((generate .default "scm" .table yearRequest).runOn danglingHost).2.tree := by
  have hremove : ∀ path, ¬ danglingHost.MayRefuse (.remove path) := by
    rintro path ⟨asked, hrefused⟩
    exact hrefused rfl
  exact leavesHalf_danglingHost.ends_generate hremove .table

end CertAuthority.Command
