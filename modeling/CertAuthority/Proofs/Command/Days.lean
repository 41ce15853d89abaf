import CertAuthority.Proofs.Command.ReadBack
import CertAuthority.Proofs.Files.Writable

/-!
# Every number of days has its answer

Whatever number of days `generate` is asked for, and whatever day it is, it
either grants the days or says why not (`generate_daysFit`). If nothing speaks
against the request but its days, and the files can be written, it succeeds just
when the days are granted, and the certificate that is stored runs from the first
instant of today to the first instant of the last day. Otherwise it fails before
it has touched the files, so that not even a directory is new.

What else could speak against the request is ruled out one by one, and each
condition is one of the request, of the host or of its files: a component and
two targets that have paths (`HasTargets`), nothing at either of them and room
for both (`TakesPair`), a sound request, no refusals, and room for the report.

A day is needed to count from. It is one of the calendar and not before the
year zero, as certificates do not go further back, and nothing else is asked
of it: the number of days is compared with what the configuration allows and
with the end of the calendar, on every day.
-/

namespace CertAuthority.Command

open Calendar (Date)
open Files (Place Tree WriteMode)
open Program (Ends)
open Store (Component)

/-! ## Storing what was made -/

section Store

variable {m : Made} {h : Host} {path keyPath : Path} {mode : WriteMode}

/-- **The certificate is stored** where it can be written, and the tree is as the
write leaves it. -/
theorem Made.ends_storeCertificate_ok (hobliging : h.Obliging)
    (hpath : m.certificateLocation.path = .ok path) (hwritable : h.tree.IsWritable path mode)
    {R : Tree → Prop} (hrest : ∀ content,
      (Files.write path content mode).run.Ends h fun _ h' => R h'.tree) :
    (m.storeCertificate mode).run.Ends h fun result h' =>
      (∃ p, result = .ok p) ∧ h'.refuses = h.refuses ∧ R h'.tree := by
  refine Component.ends_writeCertificate_of _ (fun p e h' hr => hr)
    (Component.ends_writeAt_of (fun e he => ?_) fun p hp => ?_)
  · rw [Option.getD_some, hpath] at he
    cases he
  · rw [Option.getD_some, hpath] at hp
    cases hp
    refine ((hwritable h _ rfl hobliging).and (hrest _)).refuses.mono fun r h' hr => ?_
    obtain ⟨⟨rfl, hrest⟩, hrefuses⟩ := hr
    exact ⟨⟨_, rfl⟩, hrefuses, hrest⟩

/-- So is the key. -/
theorem Made.ends_storeKey_ok (hobliging : h.Obliging) (hpath : m.keyLocation.path = .ok keyPath)
    (hwritable : h.tree.IsWritable keyPath mode) :
    (m.storeKey mode).run.Ends h fun result _ => ∃ p, result = .ok p := by
  refine Component.ends_writePrivateKey_of _ (fun p e h' hr => hr)
    (Component.ends_writeAt_of (fun e he => ?_) fun p hp => ?_)
  · rw [Option.getD_some, hpath] at he
    cases he
  · rw [Option.getD_some, hpath] at hp
    cases hp
    refine (hwritable h _ rfl hobliging).mono fun r h' hr => ?_
    rw [hr]
    exact ⟨_, rfl⟩

end Store

/-! ## The whole

The request is answered before anything is stored, and what is stored is
stored on a host that refuses nothing. So the number of days decides about the
run, and all other conditions are stated as such. -/

section Whole

variable {config : SecurityConfig} {label : String} {r : GenerateRequest} {h : Host} {k : KeyPair}
  {component : Component} {path keyPath : Path}
  (htargets : r.HasTargets config label component path keyPath) (hsound : r.IsSound config h k)
  (htakes : h.tree.TakesPair path keyPath (.ofFlag r.force)) (hobliging : h.Obliging)
  (htoday : h.today.Valid) (hyear : 0 ≤ h.today.year)
include htargets hsound htakes hobliging htoday hyear

/-- **The work of `generate` is done if the days are granted**, and otherwise it
leaves the files alone. -/
theorem Task.ends_carryOut_generate :
    (ExceptT.run ((generate r).carryOut config label)).Ends h fun result h' =>
      r.Answered config h.today (fun _ => True) result
        ∧ ∀ e, result = .error e → h'.tree = h.tree := by
  have hmake : (ExceptT.run (make config label r)).Ends h fun result h₁ =>
      (r.Answered config h.today (fun m => r.IsMetBy config h.today m.certificate) result
        ∧ ∀ m, result = .ok m → m.IsFor config label r)
      ∧ h₁.tree = h.tree ∧ h₁.refuses = h.refuses :=
    ⟨⟨ends_make_answered htargets hobliging (fun _ => htakes.kind?) hsound htoday hyear,
        ends_make config label r h⟩,
      (looks_make config label r).tree_runOn h, Program.refuses_runOn _ h⟩
  refine hmake.run_bind (fun m h₁ hr => ?_) fun e h₁ hr => ⟨hr.1.1.of_error, fun _ _ => hr.2.1⟩
  obtain ⟨⟨hanswered, hfor⟩, htree₁, hrefuses₁⟩ := hr
  obtain ⟨hcomponent, hlocation, hkeyLocation⟩ := htargets.of_isFor (hfor m rfl)
  have hobliging₁ : h₁.Obliging := hobliging.of_refuses hrefuses₁
  -- Something was made, so the days were granted, and both files can be written after that.
  have hfit : r.DaysFit config h.today := by
    cases hanswered with
    | granted fit value => exact fit
  refine ((m.ends_storeCertificate_ok hobliging₁ (hlocation ▸ htargets.located)
    (htree₁ ▸ htakes.writable) (R := fun t => t.IsWritable keyPath (.ofFlag r.force)) fun content =>
      htakes.writable' h₁ content htree₁ hobliging₁).run_ofAction
    (Q := fun result h₂ => (∃ p, result = .ok p) ∧ h₂.refuses = h₁.refuses
      ∧ h₂.tree.IsWritable keyPath (.ofFlag r.force)) (fun p h₂ hr => ⟨⟨p, rfl⟩, hr.2⟩)
    fun e h₂ hr => absurd hr.1 not_exists_error_eq_ok).run_bind (fun p h₂ hr => ?_)
    fun e h₂ hr => absurd hr.1 not_exists_error_eq_ok
  obtain ⟨-, hrefuses₂, hwritable⟩ := hr
  refine ((m.ends_storeKey_ok (hobliging₁.of_refuses hrefuses₂) (hkeyLocation ▸ htargets.keyLocated)
    hwritable).run_ofAction (Q := fun result _ => ∃ p, result = .ok p) (fun p h₃ hr => ⟨p, rfl⟩)
    fun e h₃ hr => absurd hr not_exists_error_eq_ok).run_bind (fun p' h₃ hr => ?_)
    fun e h₃ hr => absurd hr not_exists_error_eq_ok
  exact ⟨.granted hfit trivial, fun e he => by cases he⟩

/-- **`generate` answers for every number of days**, on every day of the calendar
from the year zero on. If nothing else speaks against the request, both targets
are absent and writable, and there is room for the report, then it succeeds if the
days are granted: there is one at least, there are no more than the configuration
allows, and the last is no later than 31 December 9999. The certificate that is
stored then runs from the first instant of today to the first instant of the day so
many days later. If the last day is beyond the calendar, the argument is to blame,
and in every other case the validity; the files are as they were. -/
theorem generate_daysFit (format : Format) (hroom : h.room = none) :
    (ExceptT.run (Command.generate config label format r)).Ends h fun result h' =>
      (result = .ok () ↔ r.DaysFit config h.today)
      ∧ (r.DaysFit config h.today → ∃ m d,
          Generated config label format r h h' m path keyPath d
            ∧ r.IsMetBy config h.today m.certificate)
      ∧ (¬ r.DaysFit config h.today → h'.tree = h.tree
          ∧ if Date.last.Before (r.lastDay config h.today)
            then result = .error (.argument (.daysOutOfRange (r.duration config)))
            else ∃ cause, result = .error (.authority (.validity cause))) := by
  have hwork := Task.ends_carryOut_generate htargets hsound htakes hobliging htoday hyear
  have hmade := ends_make_answered htargets hobliging (fun _ => htakes.kind?) hsound htoday hyear
  have hall : (ExceptT.run (Command.generate config label format r)).Ends h fun result h' =>
      (Command.generate config label format r).runOn h = (result, h') := rfl
  refine (hall.and (Task.ends_perform config label format (.generate r) h)).mono fun result h' hr => ?_
  obtain ⟨hrun, hend⟩ := hr
  obtain ⟨hanswered, htree⟩ := hwork
  have htree' : ∀ e, (((Task.generate r).carryOut config label).runOn h).1 = .error e →
      h'.tree = h.tree := fun e he => hend.tree.trans (htree e he)
  change r.Answered config h.today (fun _ => True)
    (((Task.generate r).carryOut config label).runOn h).1 at hanswered
  -- As there is room for the report, the work decides how the run ends.
  cases hdone : (((Task.generate r).carryOut config label).runOn h).1 with
  | ok s =>
    rw [hdone] at hanswered
    obtain rfl := hend.ok s hdone hroom
    have hfit : r.DaysFit config h.today := by
      cases hanswered with
      | granted fit value => exact fit
    refine ⟨iff_of_true rfl hfit, fun _ => ?_, fun hunfit => absurd hfit hunfit⟩
    obtain ⟨m, p, p', d, hgenerated⟩ := generated_of_generate htoday hrun
    obtain ⟨-, hlocation, hkeyLocation⟩ := htargets.of_isFor hgenerated.isFor
    obtain rfl := Except.ok.inj ((hlocation ▸ hgenerated.located).symm.trans htargets.located)
    obtain rfl := Except.ok.inj ((hkeyLocation ▸ hgenerated.keyLocated).symm.trans htargets.keyLocated)
    have hmet : r.Answered config h.today (fun m => r.IsMetBy config h.today m.certificate)
      ((make config label r).runOn h).1 := hmade
    rw [hgenerated.made] at hmet
    cases hmet with
    | granted fit value => exact ⟨m, d, hgenerated, value⟩
  | error e =>
    rw [hdone] at hanswered
    obtain rfl := hend.error e hdone
    cases hanswered with
    | refused unfit counted =>
      refine ⟨iff_of_false (fun hok => by cases hok) unfit, fun hfit => absurd hfit unfit, fun _ => ?_⟩
      rw [if_neg counted]
      exact ⟨htree' _ hdone, _, rfl⟩
    | beyond unfit late =>
      refine ⟨iff_of_false (fun hok => by cases hok) unfit, fun hfit => absurd hfit unfit, fun _ => ?_⟩
      rw [if_pos late]
      exact ⟨htree' _ hdone, rfl⟩

end Whole

/-! ### Where there is a directory for the files -/

/-- A host with a directory for the component, and nothing in it. -/
def vacantHost : Host where
  tree := ⟨[], [(["security"], .directory 0o755), (["scm", "security"], .directory 0o755)]⟩
  today := ⟨2024, 1, 1⟩
  entropy := fun _ _ => []

theorem takesPair_vacantHost (mode : WriteMode) : vacantHost.tree.TakesPair
    ⟨"./security/scm/certificate.crt"⟩ ⟨"./security/scm/private.pem"⟩ mode := by
  have hlabel : Path.IsPlainSegment "scm" := by decide +kernel
  have hdir : Path.EndsInName (Path.join ⟨"./security"⟩ ⟨"scm"⟩) :=
    Path.endsInName_join ⟨"./security"⟩ hlabel.isNamePiece
  have hplain : Path.IsPlainSegment "certificate.crt" := by decide +kernel
  have hplain' : Path.IsPlainSegment "private.pem" := by decide +kernel
  have hthere : vacantHost.tree.locate true scm.directory
      = .entry ["scm", "security"] (.directory 0o755) := by decide +kernel
  have htaken : Tree.IsTaken scm.directory "certificate.crt" := by decide +kernel
  have htaken' : Tree.IsTaken scm.directory "private.pem" := by decide +kernel
  have hordinary : ∀ k, "certificate.crt" ≠ Tree.temporaryName k := by
    intro k hname
    have hdot := Tree.head?_temporaryName k
    rw [← hname] at hdot
    exact absurd hdot (by decide +kernel)
  exact Tree.takesPair_below hdir hplain.isNamePiece hplain'.isNamePiece (by decide +kernel)
    hordinary ⟨htaken, ⟨_, rfl⟩, _, _, hthere, rfl⟩ ⟨htaken', ⟨_, rfl⟩, _, _, hthere, rfl⟩ mode

/-- **A year is granted** there. -/
theorem generate_vacantHost :
    ∃ h' m d, (generate .default "scm" .table yearRequest).runOn vacantHost = (.ok (), h')
      ∧ Generated .default "scm" .table yearRequest vacantHost h' m
        ⟨"./security/scm/certificate.crt"⟩ ⟨"./security/scm/private.pem"⟩ d
      ∧ m.certificate.notBefore = .midnight ⟨2024, 1, 1⟩
      ∧ m.certificate.notAfter = .midnight ⟨2024, 12, 31⟩ := by
  obtain ⟨k, hsound⟩ := isSound_yearRequest (h := vacantHost) rfl
  have hend := generate_daysFit hasTargets_yearRequest hsound (takesPair_vacantHost _)
    (fun _ _ => rfl) (by decide) (by decide) .table rfl
  unfold Ends at hend
  match hrun : (generate .default "scm" .table yearRequest).runOn vacantHost with
  | (result, h') =>
    rw [show (ExceptT.run (generate .default "scm" .table yearRequest)).runOn vacantHost
      = (result, h') from hrun] at hend
    obtain ⟨hgrants, hstored, -⟩ := hend
    obtain rfl := hgrants.2 daysFit_yearRequest
    obtain ⟨m, d, hgenerated, hmet⟩ := hstored daysFit_yearRequest
    refine ⟨h', m, d, rfl, hgenerated, hmet.notBefore, ?_⟩
    rw [hmet.notAfter]
    exact congrArg Calendar.Instant.midnight lastDay_yearRequest

end CertAuthority.Command
