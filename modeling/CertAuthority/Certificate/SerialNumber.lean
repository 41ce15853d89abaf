import CertAuthority.Bytes

/-!
# Serial numbers

A serial number is an unsigned number of any size, kept as its shortest
big-endian bytes. The type carries that: its bytes never begin with a zero
byte, so that two serial numbers are the same number exactly when they are
the same bytes and, since every byte prints as two digits, exactly when
they have the same text.
-/

namespace CertAuthority

/-- **A serial number**: big-endian bytes, the first of them not zero. -/
structure SerialNumber where
  /-- The bytes of the number. -/
  bytes : Bytes
  /-- There is no leading zero byte. -/
  head_ne_zero : bytes.head? ≠ some 0
  deriving DecidableEq

namespace SerialNumber

/-- **The serial number of a byte string**, whose leading zero bytes do not
count. -/
def ofBytes (b : Bytes) : SerialNumber where
  bytes := b.dropWhile (· == 0)
  head_ne_zero h := by
    have := List.head?_dropWhile_not (· == (0 : UInt8)) b
    rw [h] at this
    simp at this

/-- The serial number with the given value. -/
def ofNat (n : Nat) : SerialNumber := ofBytes (Bytes.ofNat n)

/-- **The text of a serial number**: two hexadecimal digits a byte, and a
single digit for zero. -/
def text (s : SerialNumber) : String :=
  if s.bytes = [] then "0" else Bytes.hex s.bytes

/-- Whether one serial number comes no later than another in the order of
their byte strings, which compares the first byte in which they differ. -/
def le (a b : SerialNumber) : Bool :=
  !(decide (b.bytes < a.bytes))

@[simp] theorem ofBytes_bytes (s : SerialNumber) : ofBytes s.bytes = s := by
  have h : s.bytes.dropWhile (· == 0) = s.bytes := by
    cases hb : s.bytes with
    | nil => rfl
    | cons x rest =>
      have := s.head_ne_zero
      rw [hb] at this
      simp only [List.head?_cons, ne_eq, Option.some.injEq] at this
      simp [this]
  cases s
  simpa [ofBytes] using h

end SerialNumber

end CertAuthority
