import CertAuthority.Der.Strict

/-!
# Containers of private keys

A private key of any algorithm travels in the same container: a version,
the algorithm, the key in the algorithm's own form, optional attributes,
and from the second version on the public key.

Containers are compared and written as bytes, so the algorithm is given by
the content of its element.
-/

namespace CertAuthority.Key

open Der

/-- **A container.** -/
structure Container where
  /-- The content of the element that names the algorithm. -/
  algorithm : Bytes
  /-- The key, in the algorithm's own form. -/
  key : Bytes
  /-- The public key, in the second version. -/
  publicKey : Option Bytes
  deriving DecidableEq, Repr

/-- The identifier byte of the public key in a container. -/
def Container.publicKeyMark : UInt8 := Mark.plainField 1

/-- A version of the container. -/
inductive Container.Version where
  /-- Without a public key. -/
  | first
  /-- With one. -/
  | second
  deriving DecidableEq, Repr

namespace Container

/-- Reads a version. -/
def Version.read? (b : Bytes) : Option (Version × Bytes) := do
  match ← readNumber? b with
  | (0, rest) => some (.first, rest)
  | (1, rest) => some (.second, rest)
  | _ => none

/-- Skips the attributes, if there are any. -/
def skipAttributes? (b : Bytes) : Option Bytes :=
  if b.head? = some (Mark.fieldOf 0) then (readStrict? (Mark.fieldOf 0) b).map (·.2) else some b

/-- The bytes in the content of a bit string, when all bits of them are in
use. -/
def bitsOf? : Bytes → Option Bytes
  | unused :: bytes => if unused = 0 then some bytes else none
  | [] => none

/-- Reads the public key. An older spelling of it, with a complete bit
string inside the field, is read as well. -/
def readPublicKey? (b : Bytes) : Option (Bytes × Bytes) :=
  if b.head? = some (Mark.fieldOf 1) then insideStrict? (Mark.fieldOf 1) readBits? b
  else do
    let (content, rest) ← readStrict? publicKeyMark b
    return (← bitsOf? content, rest)

/-- **The container with this encoding.** -/
def decode? : Bytes → Option Container :=
  wholeStrict? <| insideStrict? Mark.sequence fun b => do
    let (version, b) ← Version.read? b
    let (algorithm, b) ← readStrict? Mark.sequence b
    let (key, b) ← readStrict? Mark.octetString b
    let b ← skipAttributes? b
    match version with
    | .first => return (⟨algorithm, key, none⟩, b)
    | .second =>
      let (publicKey, b) ← readPublicKey? b
      return (⟨algorithm, key, some publicKey⟩, b)

/-- **The encoding of a container**, without attributes and in the version
that it needs. -/
def encode (c : Container) : Bytes :=
  let version := integer (if c.publicKey.isSome then 1 else 0)
  let publicKey := c.publicKey.map fun k => Der.encode publicKeyMark (0 :: k)
  sequence [version, Der.encode Mark.sequence c.algorithm, octetString c.key,
    publicKey.getD []]

end Container

end CertAuthority.Key
