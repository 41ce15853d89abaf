/-!
# Byte strings

Certificates, keys and files are byte strings, and a byte string is a list
of bytes, so that a reader is a function on what is left to read and an
encoder is a function into what comes next.

Three views of a byte string recur: the number it denotes when read
big-endian (`Bytes.toNat`, with `Bytes.ofNat` and `Bytes.ofNatPadded` in
the other direction), its hexadecimal text (`Bytes.hex`, read back by
`Bytes.ofHex?`), and the part of it that follows a given beginning
(`dropExpected?`).
-/

namespace CertAuthority

/-- **A byte string.** -/
abbrev Bytes := List UInt8

/-- What follows `start` in `text`, when `text` begins with it. -/
def dropExpected? {α : Type} [BEq α] : (start text : List α) → Option (List α)
  | [], rest => some rest
  | _ :: _, [] => none
  | a :: start, b :: rest => if a == b then dropExpected? start rest else none

namespace Bytes

/-- **The number a byte string denotes**, most significant byte first. -/
def toNat (b : Bytes) : Nat :=
  b.foldl (fun n x => n * 256 + x.toNat) 0

/-- The `width` low-order bytes of a number, most significant first. -/
def ofNatPadded : (width n : Nat) → Bytes
  | 0, _ => []
  | width + 1, n => UInt8.ofNat (n / Nat.pow 256 width) :: ofNatPadded width n

/-- **The shortest byte string that denotes a number.** Zero is the empty
string. -/
def ofNat (n : Nat) : Bytes :=
  if n = 0 then [] else ofNatPadded (n.log2 / 8 + 1) n

/-- The hexadecimal digit of a number below sixteen, in lower case. -/
def hexDigit (n : Nat) : Char :=
  Char.ofNat (if n < 10 then 48 + n else 87 + n)

/-- The value of a hexadecimal digit of either case. -/
def hexValue? (c : Char) : Option Nat :=
  if '0' ≤ c ∧ c ≤ '9' then some (c.toNat - 48)
  else if 'a' ≤ c ∧ c ≤ 'f' then some (c.toNat - 87)
  else if 'A' ≤ c ∧ c ≤ 'F' then some (c.toNat - 55)
  else none

/-- The two hexadecimal digits of a byte. -/
def hexPair (b : UInt8) : List Char :=
  [hexDigit (b.toNat / 16), hexDigit (b.toNat % 16)]

/-- **The hexadecimal text of a byte string**: two digits a byte. -/
def hex (b : Bytes) : String :=
  String.ofList (b.flatMap hexPair)

/-- Reads pairs of hexadecimal digits. -/
def ofHexDigits? : List Char → Option Bytes
  | [] => some []
  | h :: l :: rest => do
    let high ← hexValue? h
    let low ← hexValue? l
    let bytes ← ofHexDigits? rest
    return UInt8.ofNat (high * 16 + low) :: bytes
  | [_] => none

/-- **The byte string of a hexadecimal text**, if it is one. -/
def ofHex? (text : String) : Option Bytes :=
  ofHexDigits? text.toList

/-- The first `n` bytes and the rest, when there are that many. -/
def splitAt? (n : Nat) (b : Bytes) : Option (Bytes × Bytes) :=
  if n ≤ b.length then some (b.splitAt n) else none

@[simp] theorem length_ofNatPadded (width n : Nat) : (ofNatPadded width n).length = width := by
  induction width with
  | zero => rfl
  | succ width ih => simp [ofNatPadded, ih]

theorem eq_append_of_splitAt? {n : Nat} {b head rest : Bytes}
    (h : splitAt? n b = some (head, rest)) : b = head ++ rest ∧ head.length = n := by
  unfold splitAt? at h
  split at h
  · rename_i hle
    simp only [List.splitAt_eq, Option.some.injEq, Prod.mk.injEq] at h
    obtain ⟨rfl, rfl⟩ := h
    exact ⟨(List.take_append_drop n b).symm, by simp [hle]⟩
  · simp at h

end Bytes

end CertAuthority
