import CertAuthority.Proofs.Program.Run

/-!
# How often a program asks

`Program.countOn` counts the requests of a kind that a program makes while it
runs on a host. Which ones it makes depends on the answers, so that this is a
property of the run. The count of one program after another is the sum of
their counts (`countOn_bind`), and for programs that may fail the second one
counts only if the first succeeds (`countOn_run_bind_of_ok`,
`countOn_run_bind_of_error`).

It is used for the source of keys, which is asked at most once and at a
certain point. That it is not asked before that point could be told from what
the program may ask there, whatever the answers; that it is asked once and not
twice, and whether it is asked at all in a run that fails, cannot.
-/

namespace CertAuthority.Program

variable {α β : Type} {P : Request → Bool}

/-- **How many requests of a kind a program makes** on a host. The host answers
each of them on the way, for its answers say how the program goes on. -/
def countOn (P : Request → Bool) : Program α → Host → Nat
  | done _, _ => 0
  | ask r next, h =>
    (if P r then 1 else 0) + (next (h.answer r).1).countOn P (h.answer r).2

/-- **The requests of one program after another** are those of both. -/
theorem countOn_bind (p : Program α) (f : α → Program β) (h : Host) :
    (p >>= f).countOn P h = p.countOn P h + (f (p.runOn h).1).countOn P (p.runOn h).2 := by
  -- the host is not fixed, since every answer leaves another one
  induction p generalizing h with
  | done a => exact (Nat.zero_add _).symm
  | ask r next ih =>
    show (if P r then 1 else 0) + ((next (h.answer r).1 >>= f).countOn P (h.answer r).2) = _
    rw [ih]
    exact (Nat.add_assoc _ _ _).symm

/-- A program that cannot ask does not ask. -/
theorem Asks.countOn {p : Program α} (hp : p.Asks fun r => P r = false) (h : Host) :
    p.countOn P h = 0 := by
  induction p generalizing h with
  | done a => rfl
  | ask r next ih =>
    show (if P r then 1 else 0) + (next (h.answer r).1).countOn P (h.answer r).2 = 0
    rw [if_neg (by simp [hp.1]), ih _ (hp.2 _)]

/-! ## Programs that may fail -/

variable {p : Action α} {f : α → Action β} {h : Host}

/-- After a program that succeeds the requests of the next one count. -/
theorem countOn_run_bind_of_ok {a : α} (hp : (p.runOn h).1 = .ok a) :
    (p >>= f).run.countOn P h = p.run.countOn P h + (f a).run.countOn P (p.runOn h).2 := by
  unfold Action.runOn at hp ⊢
  rw [ExceptT.run_bind, countOn_bind, hp]

theorem countOn_run_bind_of_error {e : Error} (hp : (p.runOn h).1 = .error e) :
    (p >>= f).run.countOn P h = p.run.countOn P h := by
  unfold Action.runOn at hp
  rw [ExceptT.run_bind, countOn_bind, hp]
  rfl

/-- A program whose continuations do not ask asks as often as without
them. -/
theorem countOn_run_bind_of_asks (hf : ∀ a, (f a).run.Asks fun r => P r = false) :
    (p >>= f).run.countOn P h = p.run.countOn P h := by
  match hp : (p.runOn h).1 with
  | .ok a => rw [countOn_run_bind_of_ok hp, (hf a).countOn, Nat.add_zero]
  | .error e => exact countOn_run_bind_of_error hp

end CertAuthority.Program
