import CertAuthority.Bytes
import Mathlib.Tactic.Ring
import Mathlib.Tactic.SplitIfs

/-!
# Numbers as byte strings

A byte string denotes a number, and `Bytes.ofNat` is the shortest one that
denotes a given number: it denotes it (`toNat_ofNat`), does not begin with a
zero byte (`ofNat_eq_cons`), and has as many bytes as the number has digits to
the base 256 (`length_ofNat_le`). Byte strings that do not begin with a zero
byte are therefore told apart by their numbers (`eq_of_toNat_eq`), which is
how serial numbers are compared.

What an expected beginning leaves of a text is the rest of it
(`dropExpected?_eq_some_iff`), and the first item of a kind in a list is found
in one way (`append_cons_inj_of_not`). These two are about lists of anything.
They stand here because readers of bytes and readers of texts both go by them.
-/

namespace CertAuthority

/-- **What an expected beginning leaves** of a text is the rest of it. -/
theorem dropExpected?_eq_some_iff {α : Type} [BEq α] [LawfulBEq α] {start text rest : List α} :
    dropExpected? start text = some rest ↔ text = start ++ rest := by
  induction start generalizing text with
  | nil => simp [dropExpected?]
  | cons a start ih =>
    cases text with
    | nil => simp [dropExpected?]
    | cons b text =>
      by_cases hab : a = b
      · subst hab
        simp [dropExpected?, ih]
      · simp [dropExpected?, hab, Ne.symm hab]

@[simp] theorem dropExpected?_append {α : Type} [BEq α] [LawfulBEq α] (start rest : List α) :
    dropExpected? start (start ++ rest) = some rest :=
  dropExpected?_eq_some_iff.2 rfl

/-- **The first item of a kind in a list is found in one way.** What is before
it is not of the kind, so two ways to cut the list there are one. -/
theorem append_cons_inj_of_not {α : Type} {p : α → Prop} {as as' bs bs' : List α} {a a' : α}
    (has : ∀ x ∈ as, ¬ p x) (ha : p a) (has' : ∀ x ∈ as', ¬ p x) (ha' : p a')
    (h : as ++ a :: bs = as' ++ a' :: bs') : as = as' ∧ a = a' ∧ bs = bs' := by
  induction as generalizing as' with
  | nil =>
    cases as' with
    | nil => simpa using h
    | cons x as' =>
      obtain ⟨rfl, -⟩ := List.cons.inj h
      exact absurd ha (has' a List.mem_cons_self)
  | cons x as ih =>
    rw [List.forall_mem_cons] at has
    cases as' with
    | nil =>
      obtain ⟨rfl, -⟩ := List.cons.inj h
      exact absurd ha' has.1
    | cons x' as' =>
      rw [List.forall_mem_cons] at has'
      obtain ⟨rfl, htail⟩ := List.cons.inj h
      obtain ⟨rfl, rfl, rfl⟩ := ih has.2 has'.2 htail
      exact ⟨rfl, rfl, rfl⟩

namespace Bytes

/-- Bytes that come after a number multiply it, once for each of them. -/
theorem foldl_toNat (b : Bytes) (n : Nat) :
    b.foldl (fun n x => n * 256 + x.toNat) n = n * 256 ^ b.length + toNat b := by
  induction b generalizing n with
  | nil => simp [toNat]
  | cons x b ih =>
    rw [toNat, List.foldl_cons, List.foldl_cons, ih, ih (0 * 256 + x.toNat), List.length_cons,
      Nat.pow_succ]
    ring

theorem toNat_cons (x : UInt8) (b : Bytes) :
    toNat (x :: b) = x.toNat * 256 ^ b.length + toNat b := by
  rw [toNat, List.foldl_cons, foldl_toNat]
  simp

/-- A number has no more digits than it is written with. -/
theorem toNat_lt (b : Bytes) : toNat b < 256 ^ b.length := by
  induction b with
  | nil => exact Nat.one_pos
  | cons x b ih =>
    have hx : x.toNat ≤ 255 := Nat.le_of_lt_succ (UInt8.toNat_lt x)
    rw [toNat_cons, List.length_cons, Nat.pow_succ]
    calc x.toNat * 256 ^ b.length + toNat b
        < x.toNat * 256 ^ b.length + 256 ^ b.length := Nat.add_lt_add_left ih _
      _ ≤ 255 * 256 ^ b.length + 256 ^ b.length :=
        Nat.add_le_add_right (Nat.mul_le_mul_right _ hx) _
      _ = 256 ^ b.length * 256 := by ring

/-- As many bytes as are asked for denote what is left of the number in them. -/
theorem toNat_ofNatPadded (width n : Nat) : toNat (ofNatPadded width n) = n % 256 ^ width := by
  induction width with
  | zero => rw [Nat.pow_zero, Nat.mod_one]; rfl
  | succ width ih =>
    have hbyte : (UInt8.ofNat (n / 256 ^ width)).toNat = n / 256 ^ width % 256 :=
      UInt8.toNat_ofNat'
    rw [ofNatPadded, toNat_cons, ih, length_ofNatPadded, Nat.pow_succ, Nat.mod_mul,
      Nat.mul_comm (256 ^ width)]
    show (UInt8.ofNat (n / 256 ^ width)).toNat * _ + _ = _
    rw [hbyte, Nat.add_comm]

/-- The binary length of a number tells how many bytes are enough. -/
theorem lt_pow_of_log2 (n : Nat) : n < 256 ^ (n.log2 / 8 + 1) := by
  have hlog : n < 2 ^ (n.log2 + 1) := Nat.lt_log2_self
  calc n < 2 ^ (n.log2 + 1) := hlog
    _ ≤ 2 ^ (8 * (n.log2 / 8 + 1)) := Nat.pow_le_pow_right Nat.two_pos (by omega)
    _ = 256 ^ (n.log2 / 8 + 1) := by rw [Nat.pow_mul]

/-- **The shortest byte string of a number denotes it.** There are bytes enough,
so nothing of the number is cut off. -/
theorem toNat_ofNat (n : Nat) : toNat (ofNat n) = n := by
  unfold ofNat
  split_ifs with hn
  · rw [hn]
    rfl
  · rw [toNat_ofNatPadded, Nat.mod_eq_of_lt (lt_pow_of_log2 n)]

theorem pow_log2_le {n : Nat} (hn : n ≠ 0) : 256 ^ (n.log2 / 8) ≤ n := by
  calc 256 ^ (n.log2 / 8) = 2 ^ (8 * (n.log2 / 8)) := by rw [Nat.pow_mul]
    _ ≤ 2 ^ n.log2 := Nat.pow_le_pow_right Nat.two_pos (Nat.mul_div_le _ _)
    _ ≤ n := Nat.log2_self_le hn

/-- **The shortest bytes of a number do not begin with a zero byte**, or one
byte less would do. -/
theorem ofNat_eq_cons {n : Nat} (hn : n ≠ 0) : ∃ x rest, ofNat n = x :: rest ∧ x ≠ 0 := by
  refine ⟨_, _, (if_neg hn).trans rfl, fun hzero => ?_⟩
  have hlow : 1 ≤ n / 256 ^ (n.log2 / 8) :=
    (Nat.one_le_div_iff (Nat.pow_pos (by decide))).2 (pow_log2_le hn)
  have hhigh : n / 256 ^ (n.log2 / 8) < 256 := by
    rw [Nat.div_lt_iff_lt_mul (Nat.pow_pos (by decide)), Nat.mul_comm, ← Nat.pow_succ]
    exact lt_pow_of_log2 n
  have hbyte : (UInt8.ofNat (n / 256 ^ (n.log2 / 8))).toNat = n / 256 ^ (n.log2 / 8) % 256 :=
    UInt8.toNat_ofNat'
  rw [Nat.mod_eq_of_lt hhigh] at hbyte
  have hnone : (UInt8.ofNat (n / 256 ^ (n.log2 / 8))).toNat = 0 := congrArg UInt8.toNat hzero
  rw [hbyte] at hnone
  rw [hnone] at hlow
  exact absurd hlow (by decide)

/-- **It is short**: as long as a number fits so many bytes, it takes no more.
-/
theorem length_ofNat_le {n width : Nat} (h : n < 256 ^ width) : (ofNat n).length ≤ width := by
  unfold ofNat
  split_ifs with hn
  · exact Nat.zero_le width
  · rw [length_ofNatPadded]
    have hle : 256 ^ (n.log2 / 8) < 256 ^ width := (pow_log2_le hn).trans_lt h
    exact (Nat.pow_lt_pow_iff_right (by decide)).1 hle

/-- A first byte that is not zero counts at least as much as all others could.
-/
theorem pow_length_le {x : UInt8} {b : Bytes} (hx : x ≠ 0) : 256 ^ b.length ≤ toNat (x :: b) := by
  have hpos : 1 ≤ x.toNat := Nat.pos_of_ne_zero fun h => hx (UInt8.toNat_inj.1 h)
  rw [toNat_cons]
  exact (Nat.le_mul_of_pos_left _ hpos).trans (Nat.le_add_right _ _)

/-- Byte strings of one length are told apart by their numbers. -/
theorem eq_of_toNat_eq_of_length_eq {a b : Bytes} (hlength : a.length = b.length)
    (h : toNat a = toNat b) : a = b := by
  induction a generalizing b with
  | nil => exact (List.length_eq_zero_iff.1 hlength.symm).symm
  | cons x a ih =>
    cases b with
    | nil => cases hlength
    | cons y b =>
      have htail : a.length = b.length := Nat.succ.inj hlength
      have ha := toNat_lt a
      have hb := toNat_lt b
      rw [toNat_cons, toNat_cons, htail] at h
      rw [htail] at ha
      have hhead : x.toNat = y.toNat := by
        have hdiv := congrArg (· / 256 ^ b.length) h
        rwa [Nat.mul_comm, Nat.mul_add_div (Nat.pow_pos (by decide)), Nat.div_eq_of_lt ha,
          Nat.mul_comm, Nat.mul_add_div (Nat.pow_pos (by decide)), Nat.div_eq_of_lt hb] at hdiv
      rw [hhead] at h
      rw [UInt8.toNat_inj.1 hhead, ih htail (Nat.add_left_cancel h)]

/-- **Byte strings without leading zeros** are the same if they denote the same
number. Their lengths show in their numbers then. -/
theorem eq_of_toNat_eq {a b : Bytes} (ha : a.head? ≠ some 0) (hb : b.head? ≠ some 0)
    (h : toNat a = toNat b) : a = b := by
  refine eq_of_toNat_eq_of_length_eq ?_ h
  have hle : ∀ {a b : Bytes}, a.head? ≠ some 0 → toNat a = toNat b → a.length ≤ b.length := by
    intro a b ha h
    cases a with
    | nil => exact Nat.zero_le _
    | cons x a =>
      have hlow := pow_length_le (b := a) fun hx => ha (congrArg some hx)
      exact (Nat.pow_lt_pow_iff_right (by decide)).1 ((hlow.trans_eq h).trans_lt (toNat_lt b))
  exact Nat.le_antisymm (hle ha h) (hle hb h.symm)

/-- Leading zeros do not count. -/
theorem toNat_dropWhile (b : Bytes) : toNat (b.dropWhile (· == 0)) = toNat b := by
  induction b with
  | nil => rfl
  | cons x b ih =>
    rw [List.dropWhile_cons]
    split_ifs with hx
    · rw [ih, toNat_cons, beq_iff_eq.1 hx]
      show _ = 0 * _ + _
      rw [Nat.zero_mul, Nat.zero_add]
    · rfl

/-- Taking off what was put before. -/
theorem splitAt?_append (a b : Bytes) : splitAt? a.length (a ++ b) = some (a, b) := by
  unfold splitAt?
  rw [if_pos (by rw [List.length_append]; exact Nat.le_add_right _ _), List.splitAt_eq,
    List.take_left, List.drop_left]

end Bytes

end CertAuthority
