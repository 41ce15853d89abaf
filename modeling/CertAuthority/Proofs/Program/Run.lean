import CertAuthority.Command.Failure
import CertAuthority.Host

/-!
# Runs of programs on hosts

A run is followed from request to request. `Program.Ends` says with which
results a program ends on a host and what the host is then, and has a rule for
each way in which programs are put together; programs that may fail are
programs whose result is an error or not, and have rules of their own. So a
theorem about a command is put together from theorems about its parts as the
command is from the parts, and no proof opens the monads they are written in.

What holds of a run because of the kinds of requests that are made, whatever
the answers, comes from `Program.Asks`: a relation between hosts that holds
over every such request holds over the run (`Asks.runOn`). It is how a run is
shown to leave things as they are: a program that asks for no change changes
no file, one that asks for nothing to be printed prints nothing, and every run
leaves the date as it was.

A host may refuse any request about files, at any time, and how often it has
been asked is part of it. Three things are said about that. `MayRefuse` is
that a request is refused some time, `HasJustRefused` that it was the latest
one and was refused then. The second is what a leftover is blamed on: a
temporary file may only stay where the request to remove it was refused, and
that the host would have refused the same request at another time is no
excuse. `Unasked` hosts are those between which nothing was asked about files,
so that what was just refused before is what was just refused after.
-/

namespace CertAuthority

namespace Program

variable {α β ε : Type} {P P' : Request → Prop} {h : Host}

/-! ## How a program ends -/

/-- **How a program ends on a host**: its result and the host afterwards. -/
def Ends (p : Program α) (h : Host) (Q : α → Host → Prop) : Prop :=
  Q (p.runOn h).1 (p.runOn h).2

/-- A program ends in whatever follows from how it ends. -/
theorem Ends.mono {p : Program α} {Q Q' : α → Host → Prop} (hp : p.Ends h Q)
    (hQ : ∀ a h', Q a h' → Q' a h') : p.Ends h Q' :=
  hQ _ _ hp

/-- Two things that are known of the end hold of it together. There is only one
end, for a program on a host is a function. -/
theorem Ends.and {p : Program α} {Q Q' : α → Host → Prop} (hp : p.Ends h Q) (hp' : p.Ends h Q') :
    p.Ends h fun a h' => Q a h' ∧ Q' a h' :=
  ⟨hp, hp'⟩

/-- One program after another ends as the second one does on the host that the
first one has left. -/
theorem ends_bind {p : Program α} {f : α → Program β} {Q : β → Host → Prop} :
    (p >>= f).Ends h Q ↔ p.Ends h fun a h' => (f a).Ends h' Q := by
  unfold Ends
  rw [runOn_bind]

/-- **One program after another**, by how the first one ends. The relation `R`
in between is all that the second may use, which is why it has to speak of the
host as well as of the result. -/
theorem Ends.bind {p : Program α} {f : α → Program β} {R : α → Host → Prop}
    {Q : β → Host → Prop} (hp : p.Ends h R) (hf : ∀ a h', R a h' → (f a).Ends h' Q) :
    (p >>= f).Ends h Q :=
  ends_bind.2 (hp.mono hf)

/-- One program after another that may fail: an error of the first one is the
end, and the host stays as it was left then. -/
theorem Ends.run_bind {p : ExceptT ε Program α} {f : α → ExceptT ε Program β}
    {R : Except ε α → Host → Prop} {Q : Except ε β → Host → Prop} (hp : p.run.Ends h R)
    (hok : ∀ a h', R (.ok a) h' → (f a).run.Ends h' Q)
    (herror : ∀ e h', R (.error e) h' → Q (.error e) h') : (p >>= f).run.Ends h Q := by
  rw [ExceptT.run_bind]
  refine hp.bind fun r h' hr => ?_
  cases r with
  | ok a => exact hok a h' hr
  | error e => exact herror e h' hr

/-- One program after another that succeeds: there is no error to be accounted
for. -/
theorem Ends.run_bind_ok {p : ExceptT ε Program α} {f : α → ExceptT ε Program β} {a : α}
    {R : Host → Prop} {Q : Except ε β → Host → Prop}
    (hp : p.run.Ends h fun result h' => result = .ok a ∧ R h')
    (hf : ∀ h', R h' → (f a).run.Ends h' Q) : (p >>= f).run.Ends h Q := by
  refine hp.run_bind (fun a' h' hr => ?_) fun e h' hr => by cases hr.1
  obtain ⟨hresult, hrest⟩ := hr
  cases hresult
  exact hf h' hrest

/-- A program whose errors are caught. What was done before the error is not
undone, and the program that catches it runs on the host with that. -/
theorem Ends.run_tryCatch {p : ExceptT ε Program α} {f : ε → ExceptT ε Program α}
    {R : Except ε α → Host → Prop} {Q : Except ε α → Host → Prop} (hp : p.run.Ends h R)
    (hok : ∀ a h', R (.ok a) h' → Q (.ok a) h')
    (herror : ∀ e h', R (.error e) h' → (f e).run.Ends h' Q) :
    (tryCatch p f : ExceptT ε Program α).run.Ends h Q := by
  refine Ends.bind hp fun r h' hr => ?_
  cases r with
  | ok a => exact hok a h' hr
  | error e => exact herror e h' hr

/-- A program that cannot fail, as part of one that may. -/
theorem Ends.run_lift {p : Program α} {R : α → Host → Prop} {Q : Except ε α → Host → Prop}
    (hp : p.Ends h R) (hok : ∀ a h', R a h' → Q (.ok a) h') :
    (liftM p : ExceptT ε Program α).run.Ends h Q :=
  Ends.bind hp hok

/-- It is never the one that ends the run. -/
theorem Ends.run_lift_bind {p : Program α} {f : α → ExceptT ε Program β} {R : α → Host → Prop}
    {Q : Except ε β → Host → Prop} (hp : p.Ends h R)
    (hf : ∀ a h', R a h' → (f a).run.Ends h' Q) :
    ((liftM p : ExceptT ε Program α) >>= f).run.Ends h Q := by
  refine Ends.run_bind (R := fun r h' => ∃ a, r = .ok a ∧ R a h')
    (hp.run_lift fun a h' ha => ⟨a, rfl, ha⟩) ?_ ?_
  · rintro a h' ⟨_, ha, hr⟩
    cases ha
    exact hf _ _ hr
  · rintro e h' ⟨_, he, -⟩
    cases he

/-- A refusal is an error about a path, the path that was asked for. -/
theorem Ends.run_orFault {path : Path} {p : Program (Except Files.Fault α)}
    {R : Except Files.Fault α → Host → Prop} {Q : Except Error α → Host → Prop} (hp : p.Ends h R)
    (hok : ∀ a h', R (.ok a) h' → Q (.ok a) h')
    (herror : ∀ fault h', R (.error fault) h' → Q (.error (.ofFault path fault)) h') :
    (Action.orFault path p).run.Ends h Q := by
  refine Ends.bind hp fun r h' hr => ?_
  cases r with
  | ok a => exact hok a h' hr
  | error fault => exact herror fault h' hr

/-- What the authority does as part of a command. Its errors are failures of the
command, and are told as such. -/
theorem Ends.run_ofAction {p : Action α} {R : Except Error α → Host → Prop}
    {Q : Except Command.Failure α → Host → Prop} (hp : p.run.Ends h R)
    (hok : ∀ a h', R (.ok a) h' → Q (.ok a) h')
    (herror : ∀ e h', R (.error e) h' → Q (.error (.authority e)) h') :
    (ExceptT.run (Command.ofAction p)).Ends h Q := by
  refine Ends.bind hp fun r h' hr => ?_
  cases r with
  | ok a => exact hok a h' hr
  | error e => exact herror e h' hr

/-- What succeeds succeeds as part of a command. -/
theorem Ends.run_ofAction_ok {p : Action α} {a : α} {R : Host → Prop}
    (hp : p.run.Ends h fun result h' => result = .ok a ∧ R h') :
    (ExceptT.run (Command.ofAction p)).Ends h fun result h' => result = .ok a ∧ R h' := by
  refine hp.run_ofAction (fun a' h' hr => ?_) fun e h' hr => by cases hr.1
  obtain ⟨hresult, hrest⟩ := hr
  cases hresult
  exact ⟨rfl, hrest⟩

/-- How an action ends as a step of a command: as it does by itself, with its
error as a failure of the authority. -/
theorem ends_ofAction (p : Action α) (h : Host) :
    (ExceptT.run (Command.ofAction p)).Ends h fun result h' =>
      match result with
      | .ok a => p.runOn h = (.ok a, h')
      | .error failure => ∃ e, failure = .authority e ∧ p.runOn h = (.error e, h') := by
  have hp : p.run.Ends h fun result h' => p.runOn h = (result, h') := rfl
  exact hp.run_ofAction (fun a h' hr => hr) fun e h' hr => ⟨e, rfl, hr⟩

/-! ### What a program yields -/

/-- **What comes of a program if it succeeds.** Nothing is said of an error, and
so there is no rule for programs that catch some. -/
def Yields (p : ExceptT ε Program α) (h : Host) (R : α → Host → Prop) : Prop :=
  p.run.Ends h fun result h' => ∀ a, result = .ok a → R a h'

/-- One program after another yields what the second one yields of what the
first one does. -/
theorem Yields.bind {p : ExceptT ε Program α} {f : α → ExceptT ε Program β}
    {R : α → Host → Prop} {S : β → Host → Prop} (hp : Yields p h R)
    (hf : ∀ a h', R a h' → Yields (f a) h' S) : Yields (p >>= f) h S :=
  Ends.run_bind hp (fun a h' ha => hf a h' (ha a rfl)) fun e h' _ b hb => by cases hb

/-- What the authority yields it yields as part of a command. -/
theorem Yields.ofAction {p : Action α} {R : α → Host → Prop} (hp : Yields p h R) :
    Yields (Command.ofAction p) h R := by
  refine Ends.run_ofAction hp (fun a h' ha a' hok => ?_) fun e h' _ a hok => by cases hok
  cases hok
  exact ha a rfl

/-- A result that is at hand is yielded, and nothing was asked for it. -/
theorem yields_pure {a : α} {R : α → Host → Prop} (ha : R a h) :
    Yields (pure a : ExceptT ε Program α) h R := by
  intro a' hok
  cases hok
  exact ha

/-- What has succeeded as part of a command has succeeded. -/
theorem runOn_eq_of_ofAction {p : Action α} {a : α} {h' : Host}
    (hrun : (Command.ofAction p).runOn h = (.ok a, h')) : p.runOn h = (.ok a, h') := by
  have hends := ends_ofAction p h
  rw [Ends, show (ExceptT.run (Command.ofAction p)).runOn h = (.ok a, h') from hrun] at hends
  exact hends

/-! ## What a program may ask

A program is a tree of requests with a branch for every answer, so what it may
ask is said by recursion on it. It is the coarser of two ways to know a
program: nothing is said of the order of requests, and nothing of results. -/

/-- **All requests that a program may make** are of some kind, whatever the
answers are. It is said of the program alone, by recursion on it: no host comes
into it, and answers that no host would give are counted as well. -/
def Asks (P : Request → Prop) : Program α → Prop
  | done _ => True
  | ask r next => P r ∧ ∀ x, (next x).Asks P

/-- A request on its own is all that is asked. -/
theorem asks_request {r : Request} (h : P r) : (request r).Asks P := ⟨h, fun _ => trivial⟩

theorem asks_note {e : Event} (h : P (.note e)) : (Action.note e).run.Asks P :=
  ⟨h, fun _ => trivial⟩

/-- One program after another asks what the two of them ask. -/
theorem Asks.bind {p : Program α} {f : α → Program β} (hp : p.Asks P) (hf : ∀ a, (f a).Asks P) :
    (p >>= f).Asks P := by
  induction p with
  | done a => exact hf a
  | ask r next ih => exact ⟨hp.1, fun x => ih x (hp.2 x)⟩

/-- So it does if the first one may fail. -/
theorem Asks.run_bind {p : ExceptT ε Program α} {f : α → ExceptT ε Program β} (hp : p.run.Asks P)
    (hf : ∀ a, (f a).run.Asks P) : (p >>= f).run.Asks P := by
  rw [ExceptT.run_bind]
  refine hp.bind fun r => ?_
  cases r with
  | ok a => exact hf a
  | error e => trivial

/-- A program whose errors are caught asks what it asks itself, and what is
asked in its stead. -/
theorem Asks.run_tryCatch {p : ExceptT ε Program α} {f : ε → ExceptT ε Program α}
    (hp : p.run.Asks P) (hf : ∀ e, (f e).run.Asks P) :
    (tryCatch p f : ExceptT ε Program α).run.Asks P := by
  refine Asks.bind hp fun r => ?_
  cases r with
  | ok a => trivial
  | error e => exact hf e

/-- A program asks the same as part of one that may fail. -/
theorem Asks.run_lift {p : Program α} (hp : p.Asks P) :
    (liftM p : ExceptT ε Program α).run.Asks P :=
  Asks.bind hp fun _ => trivial

/-- To make an error of a refusal is to ask no more. -/
theorem Asks.run_orFault {path : Path} {p : Program (Except Files.Fault α)} (hp : p.Asks P) :
    (Action.orFault path p).run.Asks P := by
  refine Asks.bind hp fun r => ?_
  cases r with
  | ok a => trivial
  | error fault => trivial

/-- The authority asks the same as part of a command. -/
theorem Asks.run_ofAction {p : Action α} (hp : p.run.Asks P) :
    (ExceptT.run (Command.ofAction p)).Asks P := by
  refine Asks.bind hp fun r => ?_
  cases r with
  | ok a => trivial
  | error fault => trivial

/-- Requests of one kind are requests of every wider kind. -/
theorem Asks.mono {p : Program α} (hp : p.Asks P) (h : ∀ r, P r → P' r) : p.Asks P' := by
  induction p with
  | done a => trivial
  | ask r next ih => exact ⟨h r hp.1, fun x => ih x (hp.2 x)⟩

/-- **What every answer preserves, a run preserves.** A relation between
hosts that is reflexive, transitive and holds over every request a program
may make holds over its runs. -/
theorem Asks.runOn {R : Host → Host → Prop} (refl : ∀ h, R h h)
    (trans : ∀ {h h' h''}, R h h' → R h' h'' → R h h'')
    (step : ∀ h r, P r → R h (h.answer r).2) {p : Program α} (hp : p.Asks P) (h : Host) :
    R h (p.runOn h).2 := by
  induction p generalizing h with
  | done a => exact refl h
  | ask r next ih => exact trans (step h r hp.1) (ih _ (hp.2 _) _)

end Program

/-! ## Requests

Everything that becomes of a host is what requests have made of it, and there
are few kinds of these. Requests to change files either change them as the
tree has it, or are refused, and then they are the last that was refused; all
others leave the files alone. What is preserved by each of them is preserved
by runs. -/

/-- Whether a request asks for a change to files. The seven requests that do are
those that the writers are made of; to read and to look are not among them. -/
def Request.edits : Request → Bool
  | makeDirectory .. | createTemporary .. | fill .. | restrict .. | replace .. | moveNew ..
  | remove _ => true
  | note _ | random _ | today | externalKey | kind _ | read _ | print _ | complain _ => false

/-- Whether a request asks for a text to be printed. Complaints go elsewhere and
are not counted. -/
def Request.prints : Request → Bool
  | print _ => true
  | note _ | random _ | today | externalKey | kind _ | makeDirectory .. | createTemporary .. | fill ..
  | restrict .. | replace .. | moveNew .. | remove _ | read _ | complain _ => false

/-- Whether a request leaves alone both the files and what is printed. -/
def Request.looks (r : Request) : Bool := !r.edits && !r.prints

theorem Request.looks_iff {r : Request} : r.looks = true ↔ r.edits = false ∧ r.prints = false := by
  simp [looks]

namespace Host

variable {α : Type} (h : Host) (r : Request)

/-- Whether a host refuses a request, some time. It does not say when: of a
request that has been refused in a run, `HasJustRefused` says more. -/
def MayRefuse (h : Host) (r : Request) : Prop := ∃ asked, h.refuses asked r ≠ none

/-- **Whether a request is one that a host has just refused**: asked for as the
latest of the requests about files, it is refused. That the host refuses it at
some other time, before that or after it, does not count. -/
def HasJustRefused (h : Host) (r : Request) : Prop :=
  ∃ n, h.asked = n + 1 ∧ h.refuses n r ≠ none

theorem HasJustRefused.mayRefuse {h : Host} {r : Request} (hr : h.HasJustRefused r) :
    h.MayRefuse r := by
  obtain ⟨n, -, hrefused⟩ := hr
  exact ⟨n, hrefused⟩

/-- **A host that was not asked about files** in the meantime. It may have told
the date, given keys and random bytes, taken notes and printed. -/
structure Unasked (h h' : Host) : Prop where
  /-- The files. -/
  tree : h'.tree = h.tree
  /-- How many requests about files there have been. -/
  asked : h'.asked = h.asked
  /-- Which of them are refused. -/
  refuses : h'.refuses = h.refuses

namespace Unasked

/-- Nothing was asked between a host and itself. -/
theorem refl (h : Host) : h.Unasked h := ⟨rfl, rfl, rfl⟩

/-- Nothing was asked if nothing was asked until halfway, and nothing from
there. -/
theorem trans {h h' h'' : Host} (hfirst : h.Unasked h') (hsecond : h'.Unasked h'') :
    h.Unasked h'' :=
  ⟨hsecond.tree.trans hfirst.tree, hsecond.asked.trans hfirst.asked,
    hsecond.refuses.trans hfirst.refuses⟩

/-- What was just refused is what was just refused before: the latest request
about files is still the same one. -/
theorem hasJustRefused {h h' : Host} (hsame : h.Unasked h') :
    h'.HasJustRefused = h.HasJustRefused := by
  unfold HasJustRefused
  rw [hsame.asked, hsame.refuses]

end Unasked

/-- **What has become of a host** that was asked to change files: either it
has the change, or it has none, and has refused or found it impossible. -/
structure Changed (f : Files.Tree → Except Files.Fault (α × Files.Tree))
    (a : Except Files.Fault α) (h' : Host) : Prop where
  /-- It goes on refusing what it refuses. -/
  refuses : h'.refuses = h.refuses
  /-- It has counted the request. -/
  asked : h'.asked = h.asked + 1
  /-- The change. -/
  ok : ∀ x, a = .ok x → f h.tree = .ok (x, h'.tree)
  /-- No change. -/
  error : ∀ fault, a = .error fault →
    h'.tree = h.tree ∧ (f h.tree = .error fault ∨ h.refuses h.asked r = some fault)

/-- What has become of the files, for a change that has no further
answer. -/
theorem Changed.only {f : Files.Tree → Except Files.Fault Files.Tree} {h h' : Host} {r : Request}
    {a : Except Files.Fault Unit} (hc : h.Changed r (fun t => (f t).map ((), ·)) a h') (x : Unit)
    (ha : a = .ok x) : f h.tree = .ok h'.tree := by
  have hok := hc.ok x ha
  cases hf : f h.tree with
  | ok t =>
    rw [hf] at hok
    rw [(Prod.mk.inj (Except.ok.inj hok)).2]
  | error fault =>
    rw [hf] at hok
    cases hok

/-- What has become of them, and why, if the change was not made. -/
theorem Changed.error_only {f : Files.Tree → Except Files.Fault Files.Tree} {h h' : Host}
    {r : Request} {fault : Files.Fault}
    (hc : h.Changed r (fun t => (f t).map ((), ·)) (.error fault) h') :
    h'.tree = h.tree ∧ (f h.tree = .error fault ∨ h.refuses h.asked r = some fault) := by
  refine (hc.error fault rfl).imp_right (Or.imp_left fun hfault => ?_)
  cases hf : f h.tree with
  | ok t =>
    rw [hf] at hfault
    cases hfault
  | error fault' =>
    rw [hf] at hfault
    exact congrArg Except.error (Except.error.inj hfault)

/-- **A change that the files allow** is made, or refused by the host, and then
it is this very request that the host refuses. -/
theorem Changed.allowed {f : Files.Tree → Except Files.Fault Files.Tree} {h h' : Host} {r : Request}
    {a : Except Files.Fault Unit} {t : Files.Tree}
    (hc : h.Changed r (fun t => (f t).map ((), ·)) a h') (hf : f h.tree = .ok t) :
    (a = .ok () ∧ h'.tree = t) ∨ (∃ fault, a = .error fault) ∧ h'.tree = h.tree
      ∧ h.refuses h.asked r ≠ none := by
  cases a with
  | ok u =>
    refine Or.inl ⟨rfl, ?_⟩
    exact Except.ok.inj ((hc.only u rfl).symm.trans hf)
  | error fault =>
    obtain ⟨hsame, hfault | hrefused⟩ := hc.error_only
    · rw [hf] at hfault
      cases hfault
    · refine Or.inr ⟨⟨fault, rfl⟩, hsame, ?_⟩
      rw [hrefused]
      exact Option.some_ne_none fault

/-- A request that is refused was just refused. It was the latest one: the host
has counted it and been asked nothing since. -/
theorem Changed.hasJustRefused {f : Files.Tree → Except Files.Fault (α × Files.Tree)} {h h' : Host}
    {r : Request} {a : Except Files.Fault α} (hc : h.Changed r f a h')
    (hr : h.refuses h.asked r ≠ none) : h'.HasJustRefused r := by
  refine ⟨h.asked, hc.asked, ?_⟩
  rw [hc.refuses]
  exact hr

/-- **What becomes of a host that is asked to change files** is said by
`Changed`, whichever of the changes it is. -/
theorem changed_change (f : Files.Tree → Except Files.Fault (α × Files.Tree)) :
    h.Changed r f (h.change r f).1 (h.change r f).2 := by
  unfold change refusal
  cases hr : h.refuses h.asked r with
  | some fault =>
    refine ⟨rfl, rfl, fun x hx => ?_, fun fault' hfault => ⟨rfl, Or.inr ?_⟩⟩
    · cases hx
    · rw [hr, Except.error.inj hfault]
  | none =>
    cases hf : f h.tree with
    | ok x =>
      obtain ⟨a, t⟩ := x
      refine ⟨?_, ?_, fun x hx => ?_, fun fault hfault => ?_⟩
      · simp only [hf]
      · simp only [hf]
      · simp only [hf] at hx ⊢
        rw [Except.ok.inj hx]
      · simp only [hf] at hfault
        cases hfault
    | error fault =>
      refine ⟨?_, ?_, fun x hx => ?_, fun fault' hfault => ?_⟩
      · simp only [hf]
      · simp only [hf]
      · simp only [hf] at hx
        cases hx
      · simp only [hf] at hfault
        cases hfault
        exact ⟨by simp only [hf], Or.inl hf⟩

/-- To be looked at changes neither the files nor what is refused. -/
theorem refuses_look (f : Files.Tree → Except Files.Fault α) :
    (h.look r f).2.refuses = h.refuses ∧ (h.look r f).2.tree = h.tree := by
  unfold look refusal
  cases h.refuses h.asked r with
  | some fault => exact ⟨rfl, rfl⟩
  | none => exact ⟨rfl, rfl⟩

/-- What was seen is there. -/
theorem look_eq_ok {f : Files.Tree → Except Files.Fault α} {a : α}
    (hlook : (h.look r f).1 = .ok a) : h.refuses h.asked r = none ∧ f h.tree = .ok a := by
  unfold look refusal at hlook
  cases hrefuses : h.refuses h.asked r with
  | some fault =>
    rw [hrefuses] at hlook
    cases hlook
  | none =>
    rw [hrefuses] at hlook
    exact ⟨rfl, hlook⟩

/-- Nor does it if one only looks whether there is something. -/
theorem refuses_lookFor (path : Path) :
    (h.lookFor path).2.refuses = h.refuses ∧ (h.lookFor path).2.tree = h.tree := by
  unfold lookFor refusal
  cases h.refuses h.asked (.kind path) with
  | some fault => exact ⟨rfl, rfl⟩
  | none => exact ⟨rfl, rfl⟩

/-- To print is not to be asked about files. -/
theorem unasked_printText (text : String) : h.Unasked (h.printText text).2 := by
  unfold printText
  cases h.room with
  | some room => exact ⟨rfl, rfl, rfl⟩
  | none => exact ⟨rfl, rfl, rfl⟩

/-- A host goes on refusing what it refuses. -/
theorem refuses_answer : (h.answer r).2.refuses = h.refuses := by
  cases r with
  | note | random | today | externalKey | complain => rfl
  | kind path => exact (h.refuses_lookFor path).1
  | read path => exact (h.refuses_look _ _).1
  | print text => exact (h.unasked_printText text).refuses
  | makeDirectory | createTemporary | fill | restrict | replace | moveNew | remove =>
    exact (h.changed_change _ _).refuses

/-- A request to change files leaves the rest alone. -/
theorem rest_change (f : Files.Tree → Except Files.Fault (α × Files.Tree)) :
    (h.change r f).2.today = h.today ∧ (h.change r f).2.printed = h.printed
      ∧ (h.change r f).2.room = h.room := by
  unfold change refusal
  cases h.refuses h.asked r with
  | some fault => exact ⟨rfl, rfl, rfl⟩
  | none => cases hf : f h.tree <;> simp only [hf, and_self]

/-- So does one to look at them. -/
theorem rest_look (f : Files.Tree → Except Files.Fault α) :
    (h.look r f).2.today = h.today ∧ (h.look r f).2.printed = h.printed
      ∧ (h.look r f).2.room = h.room := by
  unfold look refusal
  cases h.refuses h.asked r with
  | some fault => exact ⟨rfl, rfl, rfl⟩
  | none => exact ⟨rfl, rfl, rfl⟩

/-- And so does the question whether there is something at a path. -/
theorem rest_lookFor (path : Path) :
    (h.lookFor path).2.today = h.today ∧ (h.lookFor path).2.printed = h.printed
      ∧ (h.lookFor path).2.room = h.room := by
  unfold lookFor refusal
  cases h.refuses h.asked (.kind path) with
  | some fault => exact ⟨rfl, rfl, rfl⟩
  | none => exact ⟨rfl, rfl, rfl⟩

/-- **A host that was looked at**: it has counted how often, and may have taken
notes. In everything else it is what it was. -/
def LookedAt (h h' : Host) : Prop :=
  ∃ asked traces, h' = { h with asked := asked, traces := traces }

theorem LookedAt.trans {h h' h'' : Host} (hfirst : h.LookedAt h') (hsecond : h'.LookedAt h'') :
    h.LookedAt h'' := by
  obtain ⟨asked, traces, rfl⟩ := hfirst
  obtain ⟨asked', traces', rfl⟩ := hsecond
  exact ⟨asked', traces', rfl⟩

theorem LookedAt.tree {h h' : Host} (hlooked : h.LookedAt h') : h'.tree = h.tree := by
  obtain ⟨asked, traces, rfl⟩ := hlooked
  rfl

theorem LookedAt.refuses {h h' : Host} (hlooked : h.LookedAt h') : h'.refuses = h.refuses := by
  obtain ⟨asked, traces, rfl⟩ := hlooked
  rfl

/-- Whether there is something at a path is found out by looking. -/
theorem lookedAt_lookFor (path : Path) : h.LookedAt (h.lookFor path).2 := by
  unfold lookFor refusal
  cases h.refuses h.asked (.kind path) with
  | some fault => exact ⟨_, _, rfl⟩
  | none => exact ⟨_, _, rfl⟩

theorem today_printText (text : String) : (h.printText text).2.today = h.today := by
  unfold printText
  cases h.room with
  | some room => rfl
  | none => rfl

theorem today_answer : (h.answer r).2.today = h.today := by
  cases r with
  | note | random | today | externalKey | complain => rfl
  | kind path => exact (h.rest_lookFor path).1
  | read path => exact (h.rest_look _ _).1
  | print text => exact h.today_printText text
  | makeDirectory | createTemporary | fill | restrict | replace | moveNew | remove =>
    exact (h.rest_change _ _).1

/-- **Only what is to be printed is printed**, and nothing else takes room. -/
theorem printed_answer (hr : r.prints = false) :
    (h.answer r).2.printed = h.printed ∧ (h.answer r).2.room = h.room := by
  cases r with
  | note | random | today | externalKey | complain => exact ⟨rfl, rfl⟩
  | kind path => exact (h.rest_lookFor path).2
  | read path => exact (h.rest_look _ _).2
  | print text => cases hr
  | makeDirectory | createTemporary | fill | restrict | replace | moveNew | remove =>
    exact (h.rest_change _ _).2

/-- A request to print something is not one about files. -/
theorem unasked_answer (hr : r.prints = true) : h.Unasked (h.answer r).2 := by
  cases r with
  | print text => exact h.unasked_printText text
  | note | random | today | externalKey | complain | kind | read | makeDirectory | createTemporary
  | fill | restrict | replace | moveNew | remove => cases hr

/-- **Only changes change files.** -/
theorem tree_answer (hr : r.edits = false) : (h.answer r).2.tree = h.tree := by
  cases r with
  | note | random | today | externalKey | complain => rfl
  | kind path => exact (h.refuses_lookFor path).2
  | read path => exact (h.refuses_look _ _).2
  | print text => exact (h.unasked_printText text).tree
  | makeDirectory | createTemporary | fill | restrict | replace | moveNew | remove => cases hr

end Host

namespace Program

variable {α : Type}

/-- A host goes on refusing what it refuses, whatever program it runs. -/
theorem refuses_runOn (p : Program α) (h : Host) : (p.runOn h).2.refuses = h.refuses := by
  induction p generalizing h with
  | done a => rfl
  | ask r next ih => exact (ih _ _).trans (h.refuses_answer r)

/-- A run takes no time. -/
theorem today_runOn (p : Program α) (h : Host) : (p.runOn h).2.today = h.today := by
  induction p generalizing h with
  | done a => rfl
  | ask r next ih => exact (ih _ _).trans (h.today_answer r)

/-- That a host goes on refusing what it refuses may be added to whatever is
known of the end of a program. -/
theorem Ends.refuses {p : Program α} {h : Host} {Q : α → Host → Prop} (hp : p.Ends h Q) :
    p.Ends h fun a h' => Q a h' ∧ h'.refuses = h.refuses :=
  ⟨hp, p.refuses_runOn h⟩

/-- **A change that the files allow**, and what comes after it. -/
theorem Ends.run_orFault_allowed {f : Files.Tree → Except Files.Fault Files.Tree} {h : Host}
    {r : Request} {t : Files.Tree} {p : Program (Except Files.Fault Unit)} {path : Path}
    {next : Unit → Action α} {Q : Except Error α → Host → Prop}
    (hp : p.Ends h (h.Changed r fun t => (f t).map ((), ·))) (hf : f h.tree = .ok t)
    (hnext : ∀ h' : Host, h'.refuses = h.refuses → h'.tree = t → (next ()).run.Ends h' Q)
    (hrefused : ∀ e (h' : Host), h.MayRefuse r → h'.tree = h.tree → Q (.error e) h') :
    (Action.orFault path p >>= next).run.Ends h Q := by
  refine (hp.run_orFault (Q := fun a h' => match a with
    | .ok _ => h'.refuses = h.refuses ∧ h'.tree = t
    | .error _ => h.MayRefuse r ∧ h'.tree = h.tree) (fun u h' hc => ?_)
    fun fault h' hc => ?_).run_bind (fun u h' hc => hnext h' hc.1 hc.2)
    fun e h' hc => hrefused e h' hc.1 hc.2
  · obtain ⟨-, ht⟩ | ⟨⟨fault, hfault⟩, -, -⟩ := hc.allowed hf
    · exact ⟨hc.refuses, ht⟩
    · cases hfault
  · obtain ⟨hok, -⟩ | ⟨-, hsame, hr⟩ := hc.allowed hf
    · cases hok
    · exact ⟨⟨_, hr⟩, hsame⟩

/-- **A program that looks and listens**: it asks for no change to files, and
for nothing to be printed. The commands that only report are of this kind until
they report. -/
def Looks {α : Type} (p : Program α) : Prop := p.Asks fun r => r.looks = true

/-- **A program that prints nothing.** It may ask for changes to files, and may
leave notes for operators. -/
def Silent {α : Type} (p : Program α) : Prop := p.Asks fun r => r.prints = false

namespace Looks

variable {β ε : Type}

/-- A single request that does is such a program. -/
theorem request {r : Request} (h : r.looks = true) : (Program.request r).Looks :=
  Program.asks_request h

/-- It is one as part of a program that may fail. -/
theorem run_request {r : Request} (h : r.looks = true) :
    (liftM (Program.request r) : ExceptT ε Program r.Answer).run.Looks :=
  (request h).run_lift

theorem run_bind {p : ExceptT ε Program α} {f : α → ExceptT ε Program β} (hp : p.run.Looks)
    (hf : ∀ a, (f a).run.Looks) : (p >>= f).run.Looks :=
  Program.Asks.run_bind hp hf

/-- That a refusal is an error does not matter to what a program asks. -/
theorem run_orFault {path : Path} {p : Program (Except Files.Fault α)} (hp : p.Looks) :
    (Action.orFault path p).run.Looks :=
  Program.Asks.run_orFault hp

theorem run_note {e : Event} : (Action.note e).run.Looks := Program.asks_note rfl

/-- What the authority does by looking is done by looking as part of a command.
-/
theorem run_ofAction {p : Action α} (hp : p.run.Looks) : (ExceptT.run (Command.ofAction p)).Looks :=
  Program.Asks.run_ofAction hp

end Looks

/-- **A program that asks for no change to files changes none.** -/
theorem Asks.tree_runOn {p : Program α} (hp : p.Asks fun r => r.edits = false) (h : Host) :
    (p.runOn h).2.tree = h.tree :=
  hp.runOn (R := fun h h' => h'.tree = h.tree) (fun _ => rfl) (fun h₁ h₂ => h₂.trans h₁)
    (fun h r hr => h.tree_answer r hr) h

/-- **A program that does nothing but print** asks nothing about files. -/
theorem Asks.unasked_runOn {p : Program α} (hp : p.Asks fun r => r.prints = true) (h : Host) :
    h.Unasked (p.runOn h).2 :=
  hp.runOn (R := Host.Unasked) Host.Unasked.refl Host.Unasked.trans
    (fun h r hr => h.unasked_answer r hr) h

theorem Looks.tree_runOn {p : Program α} (hp : p.Looks) (h : Host) :
    (p.runOn h).2.tree = h.tree :=
  (Asks.mono hp fun _ hr => (Request.looks_iff.1 hr).1).tree_runOn h

theorem Looks.silent {p : Program α} (hp : p.Looks) : p.Silent :=
  Asks.mono hp fun _ hr => (Request.looks_iff.1 hr).2

/-- **What prints nothing leaves what is printed as it is.** -/
theorem Silent.printed_runOn {p : Program α} (hp : p.Silent) (h : Host) :
    (p.runOn h).2.printed = h.printed :=
  Asks.runOn (R := fun h h' => h'.printed = h.printed) (fun _ => rfl) (fun h₁ h₂ => h₂.trans h₁)
    (fun h r hr => (h.printed_answer r hr).1) hp h

/-- So does it leave the room. -/
theorem Silent.room_runOn {p : Program α} (hp : p.Silent) (h : Host) :
    (p.runOn h).2.room = h.room :=
  Asks.runOn (R := fun h h' => h'.room = h.room) (fun _ => rfl) (fun h₁ h₂ => h₂.trans h₁)
    (fun h r hr => (h.printed_answer r hr).2) hp h

end Program

/-! ## Runs that succeed -/

namespace Action

variable {α β : Type} {p : Action α} {f : α → Action β} {h : Host}

/-- After a program that succeeds the next one runs. -/
theorem runOn_bind_of_ok {a : α} (hp : (p.runOn h).1 = .ok a) :
    (p >>= f).runOn h = (f a).runOn (p.runOn h).2 := by
  unfold runOn at hp ⊢
  rw [ExceptT.run_bind, Program.runOn_bind, hp]

/-- After one that fails none does. -/
theorem runOn_bind_of_error {e : Error} (hp : (p.runOn h).1 = .error e) :
    (p >>= f).runOn h = (.error e, (p.runOn h).2) := by
  unfold runOn at hp ⊢
  rw [ExceptT.run_bind, Program.runOn_bind, hp]
  rfl

/-- **A run that succeeds has succeeded in each of its parts.** -/
theorem runOn_bind_eq_ok_iff {b : β} :
    ((p >>= f).runOn h).1 = .ok b ↔
      ∃ a, (p.runOn h).1 = .ok a ∧ ((f a).runOn (p.runOn h).2).1 = .ok b := by
  constructor
  · intro hb
    match hp : (p.runOn h).1 with
    | .ok a =>
      rw [runOn_bind_of_ok hp] at hb
      exact ⟨a, rfl, hb⟩
    | .error e =>
      rw [runOn_bind_of_error hp] at hb
      exact absurd hb (by simp)
  · rintro ⟨a, hp, hb⟩
    rw [runOn_bind_of_ok hp, hb]

end Action

end CertAuthority
