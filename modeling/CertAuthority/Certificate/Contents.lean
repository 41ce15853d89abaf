import CertAuthority.Certificate.AltName
import CertAuthority.Certificate.Extension
import CertAuthority.Certificate.SerialNumber
import CertAuthority.Certificate.Validity

/-!
# What a certificate says

A certificate is a signed statement: a serial number, the name of who
signed it, a validity window, the name of the subject, the subject's public
key and extensions, followed by the algorithm and the bits of the
signature. `Contents.read?` reads one off a byte string; the bytes that
were signed and those of the public key are kept as they were written,
since a signature is over bytes.
-/

namespace CertAuthority

open Der

/-- **An algorithm and its parameters.** -/
structure AlgorithmId where
  /-- The algorithm. -/
  algorithm : Oid
  /-- Its parameters, of any type. -/
  parameters : Option Element
  deriving DecidableEq, Repr

/-- Reads an algorithm. -/
def AlgorithmId.read? : Bytes → Option (AlgorithmId × Bytes) :=
  readInside? Tag.sequence fun b => do
    let (algorithm, rest) ← Oid.read? b
    match rest with
    | [] => return (⟨algorithm, none⟩, [])
    | _ =>
      let (parameters, rest) ← readElement? rest
      return (⟨algorithm, some parameters⟩, rest)

/-- **A public key with the algorithm it is for.** -/
structure PublicKeyInfo where
  /-- The bytes of the whole, as they were written. -/
  bytes : Bytes
  /-- The algorithm the key is for. -/
  algorithm : AlgorithmId
  /-- The key itself. -/
  key : BitString
  deriving DecidableEq, Repr

/-- Reads an element and returns with its value the bytes up to where the
value's own reader stopped; bytes of the element beyond that point are
skipped and not part of them. -/
def readKept? {α : Type} (read : Bytes → Option (α × Bytes)) (b : Bytes) :
    Option ((α × Bytes) × Bytes) := do
  let (_, body) ← readHeader? b
  let (e, rest) ← readTagged? Tag.sequence b
  let (a, inner) ← read e.content
  let header := b.length - body.length
  return ((a, b.take (header + (e.content.length - inner.length))), rest)

namespace PublicKeyInfo

/-- Reads the fields of a public key: the algorithm and the key itself. -/
def readFields? (b : Bytes) : Option ((AlgorithmId × BitString) × Bytes) := do
  let (algorithm, rest) ← AlgorithmId.read? b
  let (key, rest) ← BitString.read? rest
  return ((algorithm, key), rest)

/-- Reads a public key. -/
def read? (b : Bytes) : Option (PublicKeyInfo × Bytes) := do
  let (((algorithm, key), bytes), rest) ← readKept? readFields? b
  return (⟨bytes, algorithm, key⟩, rest)

end PublicKeyInfo

/-- **The signed part of a certificate.** -/
structure Statement where
  /-- The serial number, unique per issuer. -/
  serialNumber : SerialNumber
  /-- The algorithm the issuer says it signs with. -/
  signatureAlgorithm : AlgorithmId
  /-- The name of the signer. -/
  issuer : Name
  /-- When the certificate holds. -/
  validity : Validity
  /-- The name of the subject. -/
  subject : Name
  /-- The key of the subject. -/
  publicKey : PublicKeyInfo
  /-- What else the certificate says. -/
  extensions : List Extension
  deriving DecidableEq

namespace Statement

/-- Reads the version, a field numbered zero that is absent from the first
one. Its value does not matter, but has to be a small number. -/
def readVersion? (b : Bytes) : Option (Unit × Bytes) := do
  let (e, rest) ← readElement? b
  if e.number ≠ 0 then some ((), b)
  else if e.identifier.tagClass ≠ .contextSpecific then none
  else
    let (number, _) ← readPrimitive? Tag.integer e.content
    let _ ← unsigned? 32 number
    return ((), rest)

/-- Reads a serial number. It may be negative by the rules of the notation
and counts as unsigned all the same. -/
def readSerial? (b : Bytes) : Option (SerialNumber × Bytes) := do
  let (e, rest) ← readBasic? b
  if e.number = Tag.integer then some (.ofBytes e.content, rest) else none

/-- Reads a unique identifier of the issuer or of the subject, a bit string
under the given number that is absent from most certificates. -/
def skipUniqueId? (number : Nat) (b : Bytes) : Option Bytes :=
  match readElement? b with
  | some (e, rest) =>
    if e.identifier.tagClass = .contextSpecific ∧ e.number = number then
      if e.content = [] then none else some rest
    else some b
  | none => some b

/-- Reads the fields of the signed part. -/
def readFields? (b : Bytes) : Option (Statement × Bytes) := do
  let (_, b) ← readVersion? b
  let (serialNumber, b) ← readSerial? b
  let (signatureAlgorithm, b) ← AlgorithmId.read? b
  let (issuer, b) ← Name.read? b
  let (validity, b) ← Validity.read? b
  let (subject, b) ← Name.read? b
  let (publicKey, b) ← PublicKeyInfo.read? b
  let b ← skipUniqueId? 1 b
  let b ← skipUniqueId? 2 b
  let extensions ← Extension.readList? b
  return (⟨serialNumber, signatureAlgorithm, issuer, validity, subject, publicKey, extensions⟩, [])

end Statement

/-- **What a certificate says, and the signature under it.** -/
structure Contents where
  /-- What is signed. -/
  statement : Statement
  /-- The bytes that are signed. -/
  signedBytes : Bytes
  /-- The algorithm of the signature. -/
  signatureAlgorithm : AlgorithmId
  /-- The signature. -/
  signature : BitString
  deriving DecidableEq

namespace Contents

/-- **Reads a certificate off a byte string.** -/
def read? : Bytes → Option (Contents × Bytes) :=
  readInside? Tag.sequence fun b => do
    let ((statement, signedBytes), b) ← readKept? Statement.readFields? b
    let (signatureAlgorithm, b) ← AlgorithmId.read? b
    let (signature, b) ← BitString.read? b
    return (⟨statement, signedBytes, signatureAlgorithm, signature⟩, b)

end Contents

end CertAuthority
