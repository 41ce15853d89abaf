import CertAuthority.Bytes

/-!
# Text in wide units

Two kinds of string in old certificates are not UTF-8: `BMPString` is a
sequence of sixteen-bit units, read here as UTF-16 so that characters
beyond the first plane survive, and `UniversalString` spends four bytes on
every character.
-/

namespace CertAuthority.Text

/-- The sixteen-bit units of a byte string, most significant byte first; an
odd byte at the end is a unit of its own. -/
def units16 : Bytes → List Nat
  | [] => []
  | [a] => [a.toNat]
  | a :: b :: rest => (a.toNat * 256 + b.toNat) :: units16 rest

/-- The characters of a sequence of sixteen-bit units, unless one half of a
surrogate pair stands alone. -/
def ofUnits16? : List Nat → Option (List Char)
  | [] => some []
  | u :: rest =>
    if u < 0xd800 ∨ 0xdfff < u then (ofUnits16? rest).map (Char.ofNat u :: ·)
    else
      match rest with
      | v :: rest =>
        if u < 0xdc00 ∧ 0xdc00 ≤ v ∧ v ≤ 0xdfff then
          (ofUnits16? rest).map
            (Char.ofNat (0x10000 + (u - 0xd800) * 0x400 + (v - 0xdc00)) :: ·)
        else none
      | [] => none

/-- The text of a byte string in UTF-16. -/
def decodeUtf16? (b : Bytes) : Option (List Char) :=
  ofUnits16? (units16 b)

/-- The text of a byte string of four-byte characters. -/
def decodeUtf32? : Bytes → Option (List Char)
  | [] => some []
  | a :: b :: c :: d :: rest =>
    let n := Bytes.toNat [a, b, c, d]
    if n.isValidChar then (decodeUtf32? rest).map (Char.ofNat n :: ·) else none
  | _ => none

end CertAuthority.Text
