import CertAuthority.Proofs.Command.Work

/-!
# What is reported

What a report prints is a text (`reportText`), and where there is room it is
printed (`ends_reportText`). As the work of a task prints nothing and a task
ends with its report, what a task prints when it succeeds is the text of what
its work has come to, and a task whose work succeeds succeeds where there is
room (`Task.ends_perform`).

There may be no room, and a report that could not be printed is a failure
although the work was done. What has been printed then is as much of the text
as there was room for, and nothing is said about it here beyond that. So the
statements go one way at a time: a task that has succeeded has printed the
text; a task whose work has failed fails for the same reason; and where there
is room for everything, nothing else can fail.
-/

namespace CertAuthority

open Program (Ends)

/-! ## Printing -/

/-- **A text that is printed** is printed whole, and where there is room, it
is. -/
theorem Host.printText_spec (h : Host) (text : String) :
    (∀ u, (h.printText text).1 = .ok u →
        (h.printText text).2.printed = h.printed ++ Text.Utf8.encode text.toList)
      ∧ (h.room = none → (h.printText text).1 = .ok () ∧ (h.printText text).2.room = none) := by
  unfold printText
  cases h.room with
  | none => exact ⟨fun _ _ => rfl, fun _ => ⟨rfl, rfl⟩⟩
  | some room =>
    refine ⟨fun u hu => ?_, fun hnone => by cases hnone⟩
    dsimp only at hu ⊢
    split_ifs at hu with hfits
    rw [List.take_of_length_le hfits]

namespace Command

/-- **A command that prints a text** has printed it if it succeeds, and succeeds
where there is room. -/
theorem ends_printed (text : String) (failure : Files.Fault → Failure) (h : Host) :
    (ExceptT.run (print text failure)).Ends h fun result h' =>
      (∀ u, result = .ok u → h'.printed = h.printed ++ Text.Utf8.encode text.toList)
        ∧ (h.room = none → result = .ok () ∧ h'.room = none) := by
  have hprint : (Program.request (.print text)).Ends h fun r h' =>
      (∀ u, r = .ok u → h'.printed = h.printed ++ Text.Utf8.encode text.toList)
        ∧ (h.room = none → r = .ok () ∧ h'.room = none) := h.printText_spec text
  refine hprint.bind fun r h' hr => ?_
  cases r with
  | ok u => exact ⟨fun _ _ => hr.1 u rfl, fun hroom => ⟨rfl, (hr.2 hroom).2⟩⟩
  | error fault =>
    refine ⟨fun u hu => (by cases hu), fun hroom => ?_⟩
    cases (hr.2 hroom).1

/-- **The text of a report.** -/
def reportText {α : Type} [Report α] (format : Format) (a : α) : String :=
  match format with
  | .table => String.join ((Report.lines a).map (· ++ "\n"))
  | .json => Json.pretty (Report.object a) ++ "\n"

/-- **A report prints its text**, and where there is room, it succeeds. -/
theorem ends_reportText {α : Type} [Report α] (format : Format) (a : α) (h : Host) :
    (ExceptT.run (report format a)).Ends h fun result h' =>
      (∀ u, result = .ok u →
        h'.printed = h.printed ++ Text.Utf8.encode (reportText format a).toList)
      ∧ (h.room = none → result = .ok ()) := by
  cases format with
  | table =>
    exact (ends_printed _ _ h).mono fun result h' hr =>
      hr.imp_right fun hok hroom => (hok hroom).1
  | json =>
    refine (ends_printed _ _ h).run_bind (fun u h₁ hr => ?_) fun e h₁ hr => ?_
    · refine (ends_printed _ _ h₁).mono fun result h' hr' => ⟨fun u' hu' => ?_, fun hroom => ?_⟩
      · rw [hr'.1 u' hu', hr.1 u rfl, List.append_assoc, reportText, String.toList_append,
          Text.Utf8.encode, Text.Utf8.encode, Text.Utf8.encode, List.flatMap_append]
      · exact (hr'.2 (hr.2 hroom).2).1
    · refine ⟨fun u hu => (by cases hu), fun hroom => ?_⟩
      cases (hr.2 hroom).1

/-- The text of what is to be reported. -/
def Summary.text (format : Format) : Summary → String
  | certificate s => reportText format s
  | exported s => reportText format s

/-- A report of what is to be reported prints its text. -/
theorem Summary.ends_text (format : Format) (s : Summary) (h : Host) :
    (ExceptT.run (s.report format)).Ends h fun result h' =>
      (∀ u, result = .ok u → h'.printed = h.printed ++ Text.Utf8.encode (s.text format).toList)
        ∧ (h.room = none → result = .ok ()) := by
  cases s with
  | certificate s => exact ends_reportText format s h
  | exported s => exact ends_reportText format s h

/-! ## Tasks

A task is its work and then its report. How it ends is told by how these two
end, so that a fact about the work alone becomes a fact about the task. -/

namespace Task

variable {config : SecurityConfig} {label : String} {task : Task} {format : Format} {h h' : Host}

/-- **How a task ends**, by what its work has come to. Work that fails is the
end of the task, and work that succeeds is reported, where a failure can only be
one of the report. -/
structure End (config : SecurityConfig) (label : String) (format : Format) (task : Task) (h : Host)
    (result : Except Failure Unit) (h' : Host) : Prop where
  /-- What the work does to the files is all that is done to them. -/
  tree : h'.tree = ((task.carryOut config label).runOn h).2.tree
  /-- If the work fails, so does the task. -/
  error : ∀ e, ((task.carryOut config label).runOn h).1 = .error e → result = .error e
  /-- If the task succeeds, it has printed what is to be reported. -/
  printed : ∀ s u, ((task.carryOut config label).runOn h).1 = .ok s → result = .ok u →
    h'.printed = h.printed ++ Text.Utf8.encode (s.text format).toList
  /-- If the work succeeds and there is room, so does the task. -/
  ok : ∀ s, ((task.carryOut config label).runOn h).1 = .ok s → h.room = none → result = .ok ()

/-- **A task ends with its report.** -/
theorem ends_perform (config : SecurityConfig) (label : String) (format : Format) (task : Task)
    (h : Host) :
    (ExceptT.run (task.perform config label format)).Ends h (End config label format task h) := by
  have hsilent := task.silent_carryOut config label
  have hwork : (ExceptT.run (task.carryOut config label)).Ends h fun result h₁ =>
      (task.carryOut config label).runOn h = (result, h₁) ∧ h₁.printed = h.printed
        ∧ h₁.room = h.room := ⟨rfl, hsilent.printed_runOn h, hsilent.room_runOn h⟩
  rw [perform_eq]
  refine hwork.run_bind (fun s h₁ hr => ?_) fun e h₁ hr => ?_
  · obtain ⟨hdone, hprinted, hroom⟩ := hr
    have hsame : (ExceptT.run (s.report format)).Ends h₁ fun _ h' => h'.tree = h₁.tree :=
      ((s.asks_report format).unasked_runOn h₁).tree
    refine ((s.ends_text format h₁).and hsame).mono fun result h' hr => ?_
    obtain ⟨⟨htext, hok⟩, htree⟩ := hr
    refine ⟨htree.trans (congrArg (fun x => x.2.tree) hdone).symm, fun e he => ?_,
      fun s' u hs' hu => ?_, fun s' hs' hnone => hok (hroom.trans hnone)⟩
    · rw [hdone] at he
      cases he
    · rw [hdone] at hs'
      cases hs'
      rw [htext u hu, hprinted]
  · obtain ⟨hdone, -⟩ := hr
    refine ⟨(congrArg (fun x => x.2.tree) hdone).symm, fun e' he' => ?_, fun s u hs hu => ?_,
      fun s hs => ?_⟩
    · rw [hdone] at he'
      cases he'
      rfl
    · cases hu
    · rw [hdone] at hs
      cases hs

/-- **A task that has succeeded** has done its work and reported it. -/
theorem perform_eq_ok (task : Task)
    (hrun : (task.perform config label format).runOn h = (.ok (), h')) :
    ∃ s h₁, (task.carryOut config label).runOn h = (.ok s, h₁) ∧ h'.tree = h₁.tree
      ∧ h'.printed = h.printed ++ Text.Utf8.encode (s.text format).toList := by
  have hend := ends_perform config label format task h
  unfold Ends at hend
  rw [show (ExceptT.run (task.perform config label format)).runOn h = (.ok (), h') from hrun]
    at hend
  cases hwork : ((task.carryOut config label).runOn h).1 with
  | error e => cases hend.error e hwork
  | ok s => exact ⟨s, _, Prod.ext hwork rfl, hend.tree, hend.printed s () hwork rfl⟩

/-- **A task whose work succeeds** succeeds and reports it, where there is
room. -/
theorem ends_of_carryOut (hroom : h.room = none) {Q : Summary → Files.Tree → Prop}
    (hwork : (ExceptT.run (task.carryOut config label)).Ends h fun result h₁ =>
      ∃ s, result = .ok s ∧ Q s h₁.tree) (format : Format) :
    (ExceptT.run (task.perform config label format)).Ends h fun result h' => result = .ok () ∧
      ∃ s, Q s h'.tree ∧ h'.printed = h.printed ++ Text.Utf8.encode (s.text format).toList := by
  obtain ⟨s, hs, hQ⟩ := hwork
  refine (ends_perform config label format task h).mono fun result h' hend => ?_
  have hok := hend.ok s hs hroom
  refine ⟨hok, s, ?_, hend.printed s () hs hok⟩
  rw [hend.tree]
  exact hQ

end Task

end Command

end CertAuthority
