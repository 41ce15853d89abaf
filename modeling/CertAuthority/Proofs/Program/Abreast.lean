import CertAuthority.Proofs.Files.Outline
import CertAuthority.Proofs.Program.Run

/-!
# Runs side by side

What a program shows of a secret is seen by letting it run twice, with two
secrets, on hosts that are otherwise alike. `Program.Agree` says of two
programs on two hosts that they end with related results on related hosts, and
has a rule for each way in which programs are put together. A statement of
this kind cannot be made about one run: that a text does not contain a key
says little, for it could contain its digest, its first byte, or whether it is
odd.

Hosts are alike if nobody can tell them apart who looks neither into files nor
at the random bytes that are still to come (`Host.Alike`). They answer alike
whatever does not ask for one of these (`Host.Alike.answer`), and so one and
the same program that never asks for them runs alike on both
(`IsBlind.agree`). They stay alike if they are asked to fill a file with
different bytes, as long as these are equally many (`Host.Alike.answer_fill`).

So of a command that makes a key only two kinds of steps need an argument of
their own: the ones that draw the key, from random bytes that differ, and the
ones that write it. For all others it is enough that they are blind. The hosts
may refuse what they like, and what they refuse may depend on the size of what
is written, though not on the bytes.
-/

namespace CertAuthority

open Files (Fault Tree)

/-! ## Hosts that are alike

Two hosts are alike if nobody can tell them apart without looking into files:
the same has been printed and noted, the files have the same names, sizes and
permissions, and whatever is refused to one is refused to the other. Requests
that have no secret in them keep them so. -/

/-- **What shows of a request.** Of the bytes that a file is to be filled with
it is their number. -/
def Request.outline : Request → Request
  | fill path content => fill path (Files.blanked content)
  | r => r

/-- Whether a request can be answered, and asked, without a secret. -/
def Request.isBlind : Request → Bool
  | random _ | externalKey | read _ | fill .. => false
  | note _ | today | kind _ | makeDirectory .. | createTemporary .. | restrict .. | replace ..
  | moveNew .. | remove _ | print _ | complain _ => true

/-- **Hosts that look alike** from outside of files. What they have shown so far
is the same, and they refuse requests for reasons that have nothing to do with
what is in files. -/
structure Host.Alike (h h' : Host) : Prop where
  /-- The same is where it is, with the same permissions and sizes. -/
  tree : h.tree.outline = h'.tree.outline
  /-- The day is the same. -/
  today : h.today = h'.today
  /-- They refuse the same requests, as far as these show. -/
  refuses : ∀ asked r r', r.outline = r'.outline → h.refuses asked r = h'.refuses asked r'
  /-- They were asked equally often. -/
  asked : h.asked = h'.asked
  /-- Operators have been left the same. -/
  traces : h.traces = h'.traces
  /-- The same was printed. -/
  printed : h.printed = h'.printed
  /-- There is the same room for more. -/
  room : h.room = h'.room

namespace Host.Alike

variable {α : Type} {h h' : Host} (hh : h.Alike h')
include hh

/-- **Hosts that are alike make a change alike**, if it comes to the same as far
as the files show. -/
theorem change {f f' : Tree → Except Fault (α × Tree)} {r r' : Request}
    (hr : r.outline = r'.outline)
    (hf : (f h.tree).map (fun x => (x.1, x.2.outline))
      = (f' h'.tree).map fun x => (x.1, x.2.outline)) :
    (h.change r f).1 = (h'.change r' f').1 ∧ (h.change r f).2.Alike (h'.change r' f').2 := by
  unfold Host.change Host.refusal
  rw [hh.asked, hh.refuses h'.asked r r' hr]
  cases h'.refuses h'.asked r' with
  | some fault => exact ⟨rfl, { hh with asked := rfl }⟩
  | none =>
    cases hx : f h.tree with
    | error fault =>
      cases hx' : f' h'.tree with
      | error fault' =>
        rw [hx, hx'] at hf
        simp only [hx, hx']
        exact ⟨congrArg Except.error (Except.error.inj hf), { hh with asked := rfl }⟩
      | ok x' =>
        rw [hx, hx'] at hf
        cases hf
    | ok x =>
      cases hx' : f' h'.tree with
      | error fault' =>
        rw [hx, hx'] at hf
        cases hf
      | ok x' =>
        rw [hx, hx'] at hf
        obtain ⟨hanswer, htree⟩ := Prod.mk.inj (Except.ok.inj hf)
        simp only [hx, hx']
        exact ⟨congrArg Except.ok hanswer, { hh with tree := htree, asked := rfl }⟩

/-- So do they a change that has no further answer. -/
theorem changeOnly {f f' : Tree → Except Fault Tree} {r r' : Request}
    (hr : r.outline = r'.outline)
    (hf : (f h.tree).map Tree.outline = (f' h'.tree).map Tree.outline) :
    (h.changeOnly r f).1 = (h'.changeOnly r' f').1
      ∧ (h.changeOnly r f).2.Alike (h'.changeOnly r' f').2 := by
  refine hh.change hr ?_
  have hmap : ∀ r : Except Fault Tree, (r.map fun t => ((), t)).map (fun x => (x.1, x.2.outline))
      = (r.map Tree.outline).map fun t => ((), t) := by
    intro r
    cases r with
    | ok t => rfl
    | error fault => rfl
  rw [hmap, hmap, hf]

theorem printText (text : String) :
    (h.printText text).1 = (h'.printText text).1
      ∧ (h.printText text).2.Alike (h'.printText text).2 := by
  unfold Host.printText
  rw [hh.room, hh.printed]
  cases h'.room with
  | none => exact ⟨rfl, { hh with printed := rfl, room := rfl }⟩
  | some room => exact ⟨rfl, { hh with printed := rfl, room := rfl }⟩

/-- Hosts that are alike tell alike whether there is something at a path. -/
theorem lookFor (path : Path) :
    (h.lookFor path).1 = (h'.lookFor path).1
      ∧ (h.lookFor path).2.Alike (h'.lookFor path).2 := by
  unfold Host.lookFor Host.refusal
  rw [hh.asked, hh.refuses h'.asked (.kind path) (.kind path) rfl]
  cases h'.refuses h'.asked (.kind path) with
  | some fault => exact ⟨rfl, { hh with asked := rfl }⟩
  | none =>
    refine ⟨?_, { hh with asked := rfl }⟩
    show h.tree.kind? path = h'.tree.kind? path
    rw [← Tree.kind?_outline, hh.tree, Tree.kind?_outline]

/-- They are alike with the same trace left to operators. -/
theorem leave (trace : Trace) :
    Host.Alike { h with traces := h.traces ++ [trace] }
      { h' with traces := h'.traces ++ [trace] } :=
  { hh with traces := congrArg (· ++ [trace]) hh.traces }

/-- **Hosts that are alike answer alike**, and are alike afterwards, if no
secret is asked for. -/
theorem answer {r : Request} (hr : r.isBlind = true) :
    (h.answer r).1 = (h'.answer r).1 ∧ (h.answer r).2.Alike (h'.answer r).2 := by
  cases r with
  | random | externalKey | read | fill => cases hr
  | note e => exact ⟨rfl, hh.leave (.event e)⟩
  | complain text => exact ⟨rfl, hh.leave (.complaint text)⟩
  | today => exact ⟨hh.today, hh⟩
  | kind path => exact hh.lookFor path
  | print text => exact hh.printText text
  | makeDirectory path mode =>
    refine hh.changeOnly rfl ?_
    rw [← Tree.makeDirectory_outline, hh.tree, Tree.makeDirectory_outline]
  | createTemporary dir target =>
    refine hh.change rfl ?_
    rw [← Tree.createTemporary_outline, hh.tree, Tree.createTemporary_outline]
  | restrict path mode =>
    refine hh.changeOnly rfl ?_
    rw [← Tree.restrict_outline, hh.tree, Tree.restrict_outline]
  | replace source target =>
    refine hh.changeOnly rfl ?_
    rw [← Tree.replace_outline, hh.tree, Tree.replace_outline]
  | moveNew source target =>
    refine hh.changeOnly rfl ?_
    rw [← Tree.moveNew_outline, hh.tree, Tree.moveNew_outline]
  | remove path =>
    refine hh.changeOnly rfl ?_
    rw [← Tree.remove_outline, hh.tree, Tree.remove_outline]

/-- **Files that are filled with equally many bytes look alike.** -/
theorem answer_fill (path : Path) {content content' : Bytes}
    (hlength : content.length = content'.length) :
    (h.answer (.fill path content)).1 = (h'.answer (.fill path content')).1
      ∧ (h.answer (.fill path content)).2.Alike (h'.answer (.fill path content')).2 := by
  have hblanked := Files.blanked_eq_iff.2 hlength
  refine hh.changeOnly (congrArg (Request.fill path) hblanked) ?_
  rw [← Tree.fill_outline, hh.tree, hblanked, Tree.fill_outline]

end Host.Alike

/-! ## Programs that agree

Agreement is a relation between two runs. Most programs agree with themselves
on hosts that are alike, because they ask for nothing secret. The others are
put together of parts, and there has to be a lemma for each way to put
programs together. -/

/-- **Results that match**: values that are related, or one and the same
error. -/
inductive Matches {ε α β : Type} (R : α → β → Prop) : Except ε α → Except ε β → Prop where
  /-- The values are related. -/
  | ok {a : α} {b : β} (h : R a b) : Matches R (.ok a) (.ok b)
  /-- The error is the same. -/
  | error (e : ε) : Matches R (.error e) (.error e)

/-- Results that are equal match, and no others do by equality. -/
theorem matches_eq_iff {ε α : Type} {r r' : Except ε α} : Matches Eq r r' ↔ r = r' := by
  constructor
  · rintro (⟨rfl⟩ | e)
    · rfl
    · rfl
  · rintro rfl
    cases r with
    | ok a => exact .ok rfl
    | error e => exact .error e

namespace Program

variable {α α' β β' ε : Type} {P : Request → Prop} {R : α → α' → Prop} {S : β → β' → Prop}
  {H K : Host → Host → Prop} {h h' : Host}

/-- **Programs that agree**, each on its own host: their results are related, and
so are the hosts afterwards. -/
def Agree (R : α → α' → Prop) (H : Host → Host → Prop) (p : Program α) (p' : Program α')
    (h h' : Host) : Prop :=
  R (p.runOn h).1 (p'.runOn h').1 ∧ H (p.runOn h).2 (p'.runOn h').2

/-- **What two answers preserve, two runs preserve**, if the answers are the
same. -/
theorem Asks.agree (step : ∀ {g g' : Host} {r : Request}, P r → H g g' →
      (g.answer r).1 = (g'.answer r).1 ∧ H (g.answer r).2 (g'.answer r).2)
    {p : Program α} (hp : p.Asks P) (hH : H h h') : Agree Eq H p p h h' := by
  induction p generalizing h h' with
  | done a => exact ⟨rfl, hH⟩
  | ask r next ih =>
    obtain ⟨hanswer, hhosts⟩ := step hp.1 hH
    show Agree Eq H (next (h.answer r).1) (next (h'.answer r).1) _ _
    rw [← hanswer]
    exact ih _ (hp.2 _) hhosts

/-- **A program that asks for no secret.** All its requests can be seen, and
what comes of them is the same on hosts that are alike. -/
def IsBlind (p : Program α) : Prop := p.Asks fun r => r.isBlind = true

/-- **A program that asks for no secret** runs alike on hosts that are alike. -/
theorem IsBlind.agree {p : Program α} (hp : p.IsBlind) (hh : h.Alike h') :
    Agree Eq Host.Alike p p h h' :=
  Asks.agree (fun hr hg => hg.answer hr) hp hh

/-- One program after another. -/
theorem Agree.bind {p : Program α} {p' : Program α'} {f : α → Program β} {f' : α' → Program β'}
    (hp : Agree R H p p' h h')
    (hf : ∀ a a' g g', R a a' → H g g' → Agree S K (f a) (f' a') g g') :
    Agree S K (p >>= f) (p' >>= f') h h' := by
  unfold Agree
  rw [runOn_bind, runOn_bind]
  exact hf _ _ _ _ hp.1 hp.2

/-- One program after another that may fail. Errors are the end of both. -/
theorem Agree.run_bind {p : ExceptT ε Program α} {p' : ExceptT ε Program α'}
    {f : α → ExceptT ε Program β} {f' : α' → ExceptT ε Program β'}
    (hp : Agree (Matches R) H p.run p'.run h h')
    (hf : ∀ a a' g g', R a a' → H g g' → Agree (Matches S) K (f a).run (f' a').run g g')
    (herror : ∀ g g', H g g' → K g g') :
    Agree (Matches S) K (p >>= f).run (p' >>= f').run h h' := by
  rw [ExceptT.run_bind, ExceptT.run_bind]
  refine hp.bind fun r r' g g' hr hg => ?_
  cases hr with
  | ok ha => exact hf _ _ g g' ha hg
  | error e => exact ⟨.error e, herror g g' hg⟩

/-- Programs whose errors are caught. -/
theorem Agree.run_tryCatch {p : ExceptT ε Program α} {p' : ExceptT ε Program α'}
    {f : ε → ExceptT ε Program α} {f' : ε → ExceptT ε Program α'}
    (hp : Agree (Matches R) H p.run p'.run h h')
    (hf : ∀ e g g', H g g' → Agree (Matches R) H (f e).run (f' e).run g g') :
    Agree (Matches R) H (tryCatch p f : ExceptT ε Program α).run
      (tryCatch p' f' : ExceptT ε Program α').run h h' := by
  refine Agree.bind hp fun r r' g g' hr hg => ?_
  cases hr with
  | ok ha => exact ⟨.ok ha, hg⟩
  | error e => exact hf e g g' hg

/-- Programs that cannot fail agree as parts of ones that may. -/
theorem Agree.run_lift {p : Program α} {p' : Program α'} (hp : Agree R H p p' h h') :
    Agree (Matches R) H (liftM p : ExceptT ε Program α).run
      (liftM p' : ExceptT ε Program α').run h h' :=
  Agree.bind hp fun _ _ _ _ ha hg => ⟨.ok ha, hg⟩

/-- A refusal is an error about a path. -/
theorem Agree.run_orFault {path : Path} {p : Program (Except Fault α)}
    {p' : Program (Except Fault α')} (hp : Agree (Matches R) H p p' h h') :
    Agree (Matches R) H (Action.orFault path p).run (Action.orFault path p').run h h' := by
  refine Agree.bind hp fun r r' g g' hr hg => ?_
  cases hr with
  | ok ha => exact ⟨.ok ha, hg⟩
  | error fault => exact ⟨.error _, hg⟩

/-- What the authority does as part of a command. -/
theorem Agree.run_ofAction {p : Action α} {p' : Action α'}
    (hp : Agree (Matches R) H p.run p'.run h h') :
    Agree (Matches R) H (ExceptT.run (Command.ofAction p)) (ExceptT.run (Command.ofAction p'))
      h h' := by
  refine Agree.bind hp fun r r' g g' hr hg => ?_
  cases hr with
  | ok ha => exact ⟨.ok ha, hg⟩
  | error e => exact ⟨.error _, hg⟩

theorem Agree.matches {p p' : Program (Except ε α)} (hp : Agree Eq H p p' h h') :
    Agree (Matches Eq) H p p' h h' :=
  hp.imp_left matches_eq_iff.2

/-- **A program that asks for no secret**, and may fail, runs alike on hosts that
are alike. -/
theorem IsBlind.matches {p : Program (Except ε α)} (hp : p.IsBlind) (hh : h.Alike h') :
    Agree (Matches Eq) Host.Alike p p h h' :=
  (hp.agree hh).matches

end Program

end CertAuthority
