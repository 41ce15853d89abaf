/-!
# Arithmetic modulo a number

Powers, inverses and differences of residues. Residues are natural numbers
below the modulus; `ModArith.pow` is what makes large exponents feasible,
and equals the power it stands for (`ModArith.pow_eq`).
-/

namespace CertAuthority.Crypto.ModArith

/-- **The residue of a power `b ^ e`**, by repeated squaring. -/
def pow (m b e : Nat) : Nat :=
  if _h : e = 0 then 1 % m
  else
    let half := pow m (b * b % m) (e / 2)
    if e % 2 = 1 then half * b % m else half
  termination_by e

theorem pow_eq (m b e : Nat) : pow m b e = Nat.pow b e % m := by
  change pow m b e = b ^ e % m
  induction e using Nat.strongRecOn generalizing b with
  | _ e ih =>
    unfold pow
    split
    · rename_i h; simp [h]
    · rename_i h
      have hlt : e / 2 < e := Nat.div_lt_self (by omega) (by omega)
      have hhalf : pow m (b * b % m) (e / 2) = b ^ (2 * (e / 2)) % m := by
        rw [ih (e / 2) hlt, ← Nat.pow_mod, Nat.pow_mul, Nat.pow_two]
      simp only [hhalf]
      split
      · rename_i hodd
        rw [Nat.mod_mul_mod, ← Nat.pow_succ]
        congr 2
        omega
      · rename_i heven
        congr 2
        omega

/-- The inverse of a residue modulo a prime. Zero has none and goes to
zero. -/
def inv (p a : Nat) : Nat := pow p a (p - 2)

/-- The residue of `a - b`. -/
def sub (m a b : Nat) : Nat := (a + (m - b % m)) % m

end CertAuthority.Crypto.ModArith
