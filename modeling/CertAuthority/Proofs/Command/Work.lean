import CertAuthority.Command.Run
import CertAuthority.Proofs.Command.Generate
import CertAuthority.Proofs.Store.Call

/-!
# Work before the report

An invocation does its work, and then it reports. The work is all but the last
step (`Invocation.perform_eq`), and it prints nothing, whatever it is and
however it ends (`Invocation.silent_carryOut`). So an invocation that fails at
its work has printed nothing, and that is what every failure is but those of
the report (`Invocation.printed_perform`). The report in turn asks nothing
about files (`Invocation.unasked_perform`).

None of this depends on what the host answers. What a program may ask can be
read off its text (`Program.Asks`), part by part, and silence is that it may
not ask for anything to be printed. That is why the statements hold on every
host, one that refuses whatever it likes included.

The three tasks are written with their reports inside. To cut them there, each
has a twin that ends with what is to be reported (`Task.carryOut`), and the
task is shown to be its twin and the report (`Task.perform_eq`). The cut is
also the place at which failures divide: those before it are failures of the
authority or of the arguments, and those behind it are failures to print.
-/

namespace CertAuthority

open Program (Asks Ends Looks Silent)

/-! ## Writing prints nothing -/

namespace Files

open Program (request)

/-- **Writing a file** prints nothing. -/
theorem silent_write (path : Path) (content : Bytes) (mode : WriteMode) :
    (write path content mode).run.Silent := by
  unfold write
  extract_lets dir proceed
  have hproceed : (proceed ()).run.Silent := by
    refine Asks.run_bind (asks_ensureDirectory (fun _ => rfl) (fun _ => rfl)
      fun _ _ _ => rfl) fun _ => ?_
    refine Asks.run_bind (Asks.run_orFault (Program.asks_request rfl)) fun temporary => ?_
    refine Asks.run_bind (Asks.run_tryCatch ?_ fun e => ?_) fun _ => Program.asks_note rfl
    · refine Asks.run_bind (Asks.run_orFault (Program.asks_request rfl)) fun _ => ?_
      refine Asks.run_bind (Asks.run_orFault (Program.asks_request rfl)) fun _ => ?_
      exact asks_settle (fun _ => rfl) (fun _ _ => rfl) (fun _ _ => rfl) temporary path mode
    · exact (asks_discard (fun _ => rfl) temporary).run_bind fun _ => trivial
  split_ifs
  · refine Asks.run_bind (Asks.run_lift (Program.asks_request rfl)) fun found => ?_
    split_ifs
    · exact Asks.run_bind (Program.asks_note rfl) fun _ => trivial
    · exact hproceed
  · exact hproceed

end Files

namespace Store.Component

variable (c : Component) (location : Option Location) (mode : Files.WriteMode)

/-- Writing a text for a component is writing a file. -/
theorem silent_writePem (text : String) : (c.writePem text location mode).run.Silent :=
  Asks.run_bind trivial fun _ => (Files.silent_write _ _ _).run_bind fun _ => trivial

/-- **Storing anything** prints nothing. -/
theorem silent_store (m : Material) : (c.store m location mode).run.Silent := by
  cases m with
  | text pem => exact c.silent_writePem location mode pem
  | certificate certificate =>
    refine (c.silent_writePem location mode _).run_bind fun path => ?_
    exact Asks.run_bind (Program.asks_note rfl) fun _ => trivial
  | encoding certificate =>
    exact Asks.run_bind trivial fun _ => (Files.silent_write _ _ _).run_bind fun _ => trivial
  | key key =>
    refine Asks.run_bind trivial fun path => (Files.silent_write _ _ _).run_bind fun _ => ?_
    exact Asks.run_bind (Program.asks_note rfl) fun _ => trivial

end Store.Component

theorem SecurityConfig.looks_load (path : Path) : (load path).run.Looks := by
  refine (Looks.request rfl).run_orFault.run_bind fun content => ?_
  cases Text.Utf8.decode? content with
  | none => trivial
  | some text => exact Looks.run_bind trivial fun _ => Looks.run_note.run_bind fun _ => trivial

namespace Command

open Files (WriteMode)
open Store (Component Location)

/-! ## The work

A command prints at the end of its run. If the report is split off, what comes
before is the work, and it hands over what is to be reported as a value. That
this is the same program is proved for each task (`Task.perform_eq`). -/

/-- **What is to be reported** when the work is done. Each kind of task has its
own, and from it the text of the report is made. -/
inductive Summary where
  /-- About a certificate. -/
  | certificate (s : CertificateSummary)
  /-- About an export. -/
  | exported (s : ExportSummary)

/-- Reports it. -/
def Summary.report (format : Format) : Summary → Command Unit
  | certificate s => Command.report format s
  | exported s => Command.report format s

/-- **All of a task but the report.** It hands over what the report is to be
made of, and prints nothing. -/
def Task.carryOut (config : SecurityConfig) (label : String) : Task → Command Summary
  | generate r => do
    let made ← make config label r
    let path ← ofAction (made.storeCertificate (.ofFlag r.force))
    let keyPath ← ofAction (made.storeKey (.ofFlag r.force))
    ofAction (Action.note (.certificateGenerated label made.certificate.serialNumber made.days))
    return .certificate ((CertificateSummary.ofCertificate made.certificate path).withKey keyPath
      made.key.algorithm.name)
  | showCertificate fileName => do
    let component ← ofAction (Component.resolve config label)
    let location := (fileName.map component.locationFor).getD component.certificateLocation
    let certificate ← ofAction (component.readCertificate location)
    let path ← ofExcept location.path
    return .certificate (CertificateSummary.ofCertificate certificate path)
  | exportDer out fileName force => do
    let target ← destination out
    let component ← ofAction (Component.resolve config label)
    let certificate ← ofAction (component.readCertificate (fileName.map component.locationFor))
    let path ← ofAction (component.writeDer certificate target (.ofFlag force))
    return .exported ⟨certificate.serialNumber.text, path, certificate.der.length⟩

/-- **Does a task.** -/
def Task.perform (config : SecurityConfig) (label : String) (format : Format) : Task → Command Unit
  | generate r => Command.generate config label format r
  | showCertificate fileName => Command.showCertificate config label format fileName
  | exportDer out fileName force => Command.exportDer config label format out fileName force

/-- **A task is carried out and reported.** -/
theorem Task.perform_eq (config : SecurityConfig) (label : String) (format : Format) (task : Task) :
    task.perform config label format = (do
      let s ← task.carryOut config label
      s.report format) := by
  cases task with
  | generate r =>
    simp only [perform, Command.generate, carryOut, Summary.report, bind_assoc, pure_bind]
  | showCertificate fileName =>
    simp only [perform, Command.showCertificate, carryOut, Summary.report, bind_assoc, pure_bind]
  | exportDer out fileName force =>
    simp only [perform, Command.exportDer, carryOut, Summary.report, bind_assoc, pure_bind]

/-- **All of an invocation but the report.** -/
def Invocation.carryOut (i : Invocation) : Command Summary := do
  let config ← ofAction (resolveConfig i.config i.metadataDir)
  i.task.carryOut config i.component

/-- **An invocation does its work and reports.** -/
theorem Invocation.perform_eq (i : Invocation) :
    i.perform = (do
      let s ← i.carryOut
      s.report i.format) := by
  unfold perform carryOut
  rw [bind_assoc]
  congr 1
  funext config
  rw [← i.task.perform_eq]
  cases i.task <;> rfl

theorem looks_destination (out : Path) : (ExceptT.run (destination out)).Looks := by
  unfold destination
  split
  · trivial
  · trivial

theorem looks_resolveConfig (file metadataDir : Option Path) :
    (Invocation.resolveConfig file metadataDir).run.Looks := by
  cases file with
  | none => exact Looks.run_bind trivial fun _ => Looks.run_note.run_bind fun _ => trivial
  | some path =>
    refine (SecurityConfig.looks_load path).run_bind fun _ => ?_
    exact Looks.run_note.run_bind fun _ => trivial

/-- **Showing a certificate** asks for no change to files. -/
theorem Task.looks_carryOut_show (config : SecurityConfig) (label : String)
    (fileName : Option String) :
    (ExceptT.run ((Task.showCertificate fileName).carryOut config label)).Looks := by
  refine (Component.looks_resolve config label).run_ofAction.run_bind fun component => ?_
  refine (component.looks_readCertificate _).run_ofAction.run_bind fun certificate => ?_
  exact (asks_ofExcept _).run_bind fun path => trivial

/-- **A task is carried out in silence.** -/
theorem Task.silent_carryOut (config : SecurityConfig) (label : String) (task : Task) :
    (ExceptT.run (task.carryOut config label)).Silent := by
  cases task with
  | generate r =>
    refine (looks_make config label r).silent.run_bind fun m => ?_
    refine (m.component.silent_store (some m.certificateLocation) _
      (.certificate m.certificate)).run_ofAction.run_bind fun path => ?_
    refine (m.component.silent_store (some m.keyLocation) _
      (.key m.key.privateKey)).run_ofAction.run_bind fun keyPath => ?_
    exact Asks.run_bind (Asks.run_ofAction (Program.asks_note rfl)) fun _ => trivial
  | showCertificate fileName => exact (looks_carryOut_show config label fileName).silent
  | exportDer out fileName force =>
    refine (looks_destination out).silent.run_bind fun target => ?_
    refine (Component.looks_resolve config label).run_ofAction.silent.run_bind fun component => ?_
    refine (component.looks_readCertificate _).run_ofAction.silent.run_bind fun certificate => ?_
    exact (component.silent_store (some target) _ (.encoding certificate)).run_ofAction.run_bind
      fun path => trivial

/-- A destination that is refused is refused before the report. -/
theorem failsEarly_destination (out : Path) : FailsEarly (destination out) := by
  unfold destination
  split
  · exact failsEarly_pure _
  · exact failsEarly_throw trivial

/-- **A task that fails before the report** does not fail because of one. -/
theorem Task.failsEarly_carryOut (config : SecurityConfig) (label : String) (task : Task) :
    FailsEarly (task.carryOut config label) := by
  cases task with
  | generate r =>
    refine (failsEarly_make config label r).bind fun m => (failsEarly_ofAction _).bind fun path => ?_
    refine (failsEarly_ofAction _).bind fun keyPath => (failsEarly_ofAction _).bind fun _ => ?_
    exact failsEarly_pure _
  | showCertificate fileName =>
    refine (failsEarly_ofAction _).bind fun component => (failsEarly_ofAction _).bind fun c => ?_
    exact (failsEarly_ofAction _).bind fun path => failsEarly_pure _
  | exportDer out fileName force =>
    refine (failsEarly_destination out).bind fun target => (failsEarly_ofAction _).bind fun component => ?_
    refine (failsEarly_ofAction _).bind fun c => (failsEarly_ofAction _).bind fun path => ?_
    exact failsEarly_pure _

/-! ## The report

Reports ask the host to print and for nothing else, and they fail for reasons
of their own. So what becomes of files is decided by the work, and so is a
failure that is none of a report. -/

/-- **A report that fails is a failure of a report**, be it that the text could
not be made or that it could not be printed. -/
theorem Summary.ends_report (format : Format) (s : Summary) (h : Host) :
    (ExceptT.run (s.report format)).Ends h fun result _ =>
      ∀ failure, result = .error failure → ¬ failure.IsBeforeReport := by
  cases s with
  | certificate s => exact Command.ends_report format s h
  | exported s => exact Command.ends_report format s h

/-- Printing asks for something to be printed, and for nothing else. -/
theorem asks_print (text : String) (failure : Files.Fault → Failure) :
    (ExceptT.run (print text failure)).Asks fun r => r.prints = true := by
  refine Asks.bind (Program.asks_request rfl) fun r => ?_
  cases r with
  | ok u => trivial
  | error fault => trivial

theorem asks_report {α : Type} [Report α] (format : Format) (a : α) :
    (ExceptT.run (report format a)).Asks fun r => r.prints = true := by
  cases format with
  | table => exact asks_print _ _
  | json => exact (asks_print _ _).run_bind fun _ => asks_print _ _

/-- **A report** is printed, and there is no more to it. -/
theorem Summary.asks_report (format : Format) (s : Summary) :
    (ExceptT.run (s.report format)).Asks fun r => r.prints = true := by
  cases s with
  | certificate s => exact Command.asks_report format s
  | exported s => exact Command.asks_report format s

namespace Invocation

/-- **An invocation does its work in silence.** -/
theorem silent_carryOut (i : Invocation) : (ExceptT.run i.carryOut).Silent :=
  (looks_resolveConfig i.config i.metadataDir).run_ofAction.silent.run_bind fun config =>
    i.task.silent_carryOut config i.component

/-- An invocation that fails at its work does not fail because of the report. -/
theorem failsEarly_carryOut (i : Invocation) : FailsEarly i.carryOut :=
  (failsEarly_ofAction _).bind fun config => i.task.failsEarly_carryOut config i.component

/-- **What an invocation asks about files**, its work has asked, and the report
leaves the files as they are. -/
theorem unasked_perform (i : Invocation) (h : Host) :
    (i.carryOut.runOn h).2.Unasked (i.perform.runOn h).2 := by
  have hwork : (ExceptT.run i.carryOut).Ends h fun _ h₁ => h₁ = (i.carryOut.runOn h).2 := rfl
  have hall : (ExceptT.run i.perform).Ends h fun _ h' => (i.carryOut.runOn h).2.Unasked h' := by
    rw [perform_eq]
    refine hwork.run_bind (fun s h₁ hr => ?_) fun e h₁ hr => ?_
    · rw [← hr]
      exact (s.asks_report i.format).unasked_runOn h₁
    · rw [hr]
      exact .refl _
  exact hall

/-- **A failure that is not one of the report** is one of the work, and then
nothing has been printed. -/
theorem printed_perform (i : Invocation) (h : Host) {failure : Failure}
    (hfailure : (i.perform.runOn h).1 = .error failure) :
    (failure.IsBeforeReport ↔ (i.carryOut.runOn h).1 = .error failure)
      ∧ (failure.IsBeforeReport → (i.perform.runOn h).2.printed = h.printed) := by
  have hwork : (ExceptT.run i.carryOut).Ends h fun result h₁ =>
      ((i.carryOut.runOn h).1 = result ∧ h₁.printed = h.printed)
        ∧ ∀ failure, result = .error failure → failure.IsBeforeReport :=
    ⟨⟨rfl, i.silent_carryOut.printed_runOn h⟩, i.failsEarly_carryOut h⟩
  have hall : (ExceptT.run i.perform).Ends h fun result h' => ∀ failure, result = .error failure →
      (failure.IsBeforeReport ↔ (i.carryOut.runOn h).1 = .error failure)
        ∧ (failure.IsBeforeReport → h'.printed = h.printed) := by
    rw [perform_eq]
    refine hwork.run_bind (fun s h₁ hr => ?_) fun e h₁ hr failure hresult => ?_
    · obtain ⟨⟨hdone, -⟩, -⟩ := hr
      refine (s.ends_report i.format h₁).mono fun result h' hreport failure hresult => ?_
      have hlate := hreport failure hresult
      refine ⟨iff_of_false hlate ?_, fun hearly => absurd hearly hlate⟩
      rw [hdone]
      exact fun h => by cases h
    · obtain ⟨⟨hfailed, hprinted⟩, hearly⟩ := hr
      cases hresult
      exact ⟨iff_of_true (hearly e rfl) hfailed, fun _ => hprinted⟩
  exact hall failure hfailure

end Invocation

end Command

end CertAuthority
