import CertAuthority.Der.Encode

/-!
# Reading keys and signatures

Keys and signatures are held to the letter of the distinguished encoding:
one identifier byte, the shortest form of the length, numbers without a
byte too many, and nothing after the last field. `readStrict?` takes one
such element off a byte string, and `insideStrict?` reads the whole of its
content.

Contents of 65536 bytes and more are beyond any key and are refused.
-/

namespace CertAuthority.Der

/-- Reads a length in its shortest form. -/
def readStrictLength? : Bytes → Option (Nat × Bytes)
  | [] => none
  | b :: rest =>
    if b.toNat < 128 then some (b.toNat, rest)
    else if b = 0x81 then
      match rest with
      | n :: rest => if n.toNat < 128 then none else some (n.toNat, rest)
      | [] => none
    else if b = 0x82 then
      match rest with
      | hi :: lo :: rest => if hi = 0 then none else some (hi.toNat * 256 + lo.toNat, rest)
      | _ => none
    else none

/-- **Takes the content of an element with the given identifier byte off a
byte string.** -/
def readStrict? (mark : UInt8) : Bytes → Option (Bytes × Bytes)
  | [] => none
  | b :: rest => do
    let (length, rest) ← readStrictLength? rest
    let (content, rest) ← Bytes.splitAt? length rest
    if b = mark then some (content, rest) else none

/-- Takes an element off a byte string and reads its content to the end. -/
def insideStrict? {α : Type} (mark : UInt8) (read : Bytes → Option (α × Bytes)) (b : Bytes) :
    Option (α × Bytes) := do
  let (content, rest) ← readStrict? mark b
  match ← read content with
  | (a, []) => some (a, rest)
  | (_, _ :: _) => none

/-- Reads the whole of a byte string. -/
def wholeStrict? {α : Type} (read : Bytes → Option (α × Bytes)) (b : Bytes) : Option α := do
  match ← read b with
  | (a, []) => some a
  | (_, _ :: _) => none

/-- The number in the content of an `INTEGER` that is written in the
shortest form and not negative. -/
def strictNumber? : Bytes → Option Nat
  | [] => none
  | [b] => if b.toNat < 128 then some b.toNat else none
  | b :: c :: rest =>
    if 128 ≤ b.toNat then none
    else if b = 0 ∧ c.toNat < 128 then none
    else some (Bytes.toNat (b :: c :: rest))

/-- Reads an `INTEGER` that is not negative. -/
def readNumber? (b : Bytes) : Option (Nat × Bytes) := do
  let (content, rest) ← readStrict? Mark.integer b
  return (← strictNumber? content, rest)

/-- Reads an `INTEGER` greater than zero. -/
def readPositive? (b : Bytes) : Option (Nat × Bytes) := do
  let (n, rest) ← readNumber? b
  if n = 0 then none else some (n, rest)

/-- Reads a `BIT STRING` of whole bytes. -/
def readBits? (b : Bytes) : Option (Bytes × Bytes) := do
  match ← readStrict? Mark.bitString b with
  | (unused :: bytes, rest) => if unused = 0 then some (bytes, rest) else none
  | ([], _) => none

end CertAuthority.Der
