import CertAuthority.Certificate.SerialNumber
import CertAuthority.Proofs.Bytes

/-!
# Serial numbers are numbers

A serial number has three forms: the number that it is, its shortest
big-endian bytes, and its hexadecimal text. They are worth the same
(`ofBytes_canonical`). The bytes denote the number, and only one byte string
without leading zeros does; the text is read as the number again, by whoever
reads hexadecimal digits (`Bytes.hexNumber?`), so that it is the text of no
other number. Zero has no bytes, and its text is the one that does not come
from bytes.

All three forms are in use. Certificates carry the bytes, with a zero in front
where the first of them would make the number negative; people are shown the
text; and whoever makes up a serial number starts from the number. That equal
serial numbers are equal texts is what makes it safe to compare them by what
is shown.

The text of bytes is made digit by digit, two digits a byte, and read by
powers of 16. That this is the same as reading the bytes by powers of 256 is a
matter of the two halves of each byte (`hexFold_halves`).
-/

namespace CertAuthority

namespace Bytes

/-! ## Hexadecimal texts as numbers -/

/-- The number that hexadecimal digits denote. -/
def hexFold (ds : List Nat) : Nat := ds.foldl (fun n d => n * 16 + d) 0

/-- **The number that a hexadecimal text denotes**, if it is one. There has to be
a digit. -/
def hexNumber? (text : String) : Option Nat :=
  if text = "" then none else (text.toList.mapM hexValue?).map hexFold

/-- A digit that is written has the value that it was written for. -/
theorem hexValue?_hexDigit {n : Nat} (h : n < 16) : hexValue? (hexDigit n) = some n := by
  revert n
  decide

/-- The values of the two digits of each byte, the higher one first. -/
def halves (b : Bytes) : List Nat := b.flatMap fun x => [x.toNat / 16, x.toNat % 16]

/-- **The digits of bytes are read as these values.** -/
theorem mapM_hexValue?_flatMap (b : Bytes) :
    (b.flatMap hexPair).mapM hexValue? = some (halves b) := by
  induction b with
  | nil => rfl
  | cons x b ih =>
    have hx : x.toNat < 256 := UInt8.toNat_lt x
    have hhigh : hexValue? (hexDigit (x.toNat / 16)) = some (x.toNat / 16) :=
      hexValue?_hexDigit (by omega)
    have hlow : hexValue? (hexDigit (x.toNat % 16)) = some (x.toNat % 16) :=
      hexValue?_hexDigit (by omega)
    rw [List.flatMap_cons, hexPair, List.cons_append, List.singleton_append, List.mapM_cons,
      List.mapM_cons, ih, hhigh, hlow]
    rfl

/-- Two digits to the base 16 are one to the base 256. -/
theorem hexFold_halves (b : Bytes) : hexFold (halves b) = toNat b := by
  have hfold : ∀ n, (halves b).foldl (fun n d => n * 16 + d) n
      = b.foldl (fun n x => n * 256 + x.toNat) n := by
    induction b with
    | nil => exact fun n => rfl
    | cons x b ih =>
      intro n
      have hpair : (n * 16 + x.toNat / 16) * 16 + x.toNat % 16 = n * 256 + x.toNat := by omega
      rw [List.foldl_cons, ← hpair, ← ih]
      rfl
  exact hfold 0

/-- **The text of a byte string** is read as the number that it denotes. -/
theorem hexNumber?_hex {b : Bytes} (h : b ≠ []) : hexNumber? (hex b) = some (toNat b) := by
  obtain ⟨x, b, rfl⟩ := List.exists_cons_of_ne_nil h
  have hne : hex (x :: b) ≠ "" := fun hempty => by
    have hnil := congrArg String.toList hempty
    rw [hex, String.toList_ofList] at hnil
    cases hnil
  rw [hexNumber?, if_neg hne, hex, String.toList_ofList, mapM_hexValue?_flatMap, Option.map_some,
    hexFold_halves]

end Bytes

namespace SerialNumber

/-! ## One number, one serial number -/

/-- **The bytes of a serial number denote** what those that it was made from
do. -/
theorem toNat_bytes_ofBytes (a : Bytes) : Bytes.toNat (ofBytes a).bytes = Bytes.toNat a :=
  Bytes.toNat_dropWhile a

/-- Serial numbers whose bytes denote one number are one serial number. -/
theorem eq_of_toNat_bytes {s s' : SerialNumber} (h : Bytes.toNat s.bytes = Bytes.toNat s'.bytes) :
    s = s' := by
  have hbytes := Bytes.eq_of_toNat_eq s.head_ne_zero s'.head_ne_zero h
  cases s
  cases s'
  cases hbytes
  rfl

/-- **Byte strings make the same serial number** just if they denote the same
number. -/
theorem ofBytes_eq_iff {a b : Bytes} : ofBytes a = ofBytes b ↔ Bytes.toNat a = Bytes.toNat b := by
  rw [← toNat_bytes_ofBytes a, ← toNat_bytes_ofBytes b]
  exact ⟨fun h => by rw [h], eq_of_toNat_bytes⟩

/-- A number and a byte string make the same serial number if the bytes denote
the number. -/
theorem ofNat_eq_ofBytes_iff {n : Nat} {a : Bytes} : ofNat n = ofBytes a ↔ Bytes.toNat a = n := by
  rw [ofNat, ofBytes_eq_iff, Bytes.toNat_ofNat, eq_comm]

/-- **The text of a serial number is read as it**, zero included. -/
theorem hexNumber?_text (s : SerialNumber) : Bytes.hexNumber? s.text = some (Bytes.toNat s.bytes) := by
  unfold text
  split_ifs with h
  · rw [h]
    decide
  · exact Bytes.hexNumber?_hex h

/-- **Serial numbers are canonical.** Two byte strings make the same serial
number just if they denote the same number, and just then the texts are the same.
The bytes that are kept do not begin with a zero and denote what was given; a
number makes the serial number of every byte string that denotes it, its eight
bytes among them, and of no other; and the text is read as the number again. -/
theorem ofBytes_canonical (a b : Bytes) :
    (ofBytes a = ofBytes b ↔ Bytes.toNat a = Bytes.toNat b)
      ∧ ((ofBytes a).text = (ofBytes b).text ↔ Bytes.toNat a = Bytes.toNat b)
      ∧ (ofBytes a).bytes.head? ≠ some 0
      ∧ Bytes.toNat (ofBytes a).bytes = Bytes.toNat a
      ∧ (∀ n, ofNat n = ofBytes a ↔ Bytes.toNat a = n)
      ∧ (∀ n : UInt64, ofNat n.toNat = ofBytes (Bytes.ofNatPadded 8 n.toNat))
      ∧ Bytes.hexNumber? (ofBytes a).text = some (Bytes.toNat a) := by
  refine ⟨ofBytes_eq_iff, ⟨fun h => ?_, fun h => by rw [ofBytes_eq_iff.2 h]⟩,
    (ofBytes a).head_ne_zero, toNat_bytes_ofBytes a, fun n => ofNat_eq_ofBytes_iff, fun n => ?_, ?_⟩
  · have hnumber := congrArg Bytes.hexNumber? h
    rw [hexNumber?_text, hexNumber?_text, toNat_bytes_ofBytes, toNat_bytes_ofBytes] at hnumber
    exact Option.some.inj hnumber
  · rw [ofNat_eq_ofBytes_iff, Bytes.toNat_ofNatPadded]
    exact Nat.mod_eq_of_lt (UInt64.toNat_lt n)
  · rw [hexNumber?_text, toNat_bytes_ofBytes]

example : (ofBytes [0, 0, 1, 2]).text = "0102" := by decide +kernel

end SerialNumber

end CertAuthority
