import CertAuthority.Certificate.Basic
import CertAuthority.Crypto.Ecdsa
import CertAuthority.Crypto.Ed25519
import CertAuthority.Crypto.Rsa

/-!
# Checking a self-signed certificate

A certificate that is its own root names its subject as its issuer, and
its signature was made with the key it carries. `Certificate.verifySelfSigned`
checks both, the names first.

The algorithm of the signature is the one written beside it, and not the
one within the signed part; for the elliptic curves it leaves the curve
open, which the key names instead. What the key says it is for does not
count otherwise.
-/

namespace CertAuthority

open Crypto

/-- **How a signature is checked.** -/
inductive SignatureScheme where
  /-- RSA with an encoding and a hash function. -/
  | rsa (padding : Rsa.Padding) (hash : Hash)
  /-- ECDSA on a curve with a hash function. -/
  | ecdsa (curve : Curve) (hash : Hash)
  /-- Ed25519. -/
  | ed25519
  deriving DecidableEq, Repr

namespace SignatureScheme

open Der

/-- **Whether a signature of a message was made with a key.** -/
def verify : SignatureScheme → (key message signature : Bytes) → Bool
  | rsa padding hash => Rsa.verify padding hash
  | ecdsa curve hash => Ecdsa.verify curve hash
  | ed25519 => Ed25519.verify

/-- The curve a key is on. Whatever type the parameters of the key's
algorithm claim to be, their content is read as an identifier. -/
def curveOf? (key : AlgorithmId) : Option Curve := do
  let parameters ← key.parameters
  let curve : Oid := ⟨parameters.content⟩
  if curve = .ofArcs [1, 2, 840, 10045, 3, 1, 7] then some .p256
  else if curve = .ofArcs [1, 3, 132, 0, 34] then some .p384
  else none

/-- Reads a field that may be absent, told apart by its number, whose
content is read with `read`. -/
def readField? {α : Type} (number : Nat) (read : Bytes → Option (α × Bytes)) (b : Bytes) :
    Option (Option α × Bytes) :=
  match b with
  | [] => some (none, [])
  | _ :: _ => do
    let ((identifier, _), _) ← readHeader? b
    if identifier.number ≠ number then some (none, b)
    else if identifier.tagClass ≠ .contextSpecific then none
    else
      let (e, rest) ← readElement? b
      let (a, _) ← read e.content
      return (some a, rest)

/-- Reads a number of at most thirty-two bits. -/
def readSmallNumber? (b : Bytes) : Option (Nat × Bytes) := do
  let (content, rest) ← readPrimitive? Tag.integer b
  return (← unsigned? 32 content, rest)

/-- The hash function in the parameters of a salted signature. They name a
function for the mask, the length of the salt and a trailer as well, which
have to be well formed and do not count. -/
def pssHash? (parameters : Element) : Option Hash := do
  if parameters.number ≠ Tag.sequence then none
  else
    let (hash, b) ← readField? 0 AlgorithmId.read? parameters.content
    let (_, b) ← readField? 1 AlgorithmId.read? b
    let (_, b) ← readField? 2 readSmallNumber? b
    let _ ← readField? 3 readSmallNumber? b
    let hash ← hash
    [Hash.sha256, .sha384, .sha512].find? fun h => hash.algorithm = h.oid

/-- **The scheme that an algorithm stands for**, if signatures of its kind
can be checked with keys of the given kind. -/
def of? (algorithm key : AlgorithmId) : Option SignatureScheme :=
  let oid := algorithm.algorithm
  if oid = .ofArcs [1, 2, 840, 113549, 1, 1, 5] ∨ oid = .ofArcs [1, 3, 14, 3, 2, 29] then
    some (rsa .pkcs1 .sha1)
  else if oid = .ofArcs [1, 2, 840, 113549, 1, 1, 11] then some (rsa .pkcs1 .sha256)
  else if oid = .ofArcs [1, 2, 840, 113549, 1, 1, 12] then some (rsa .pkcs1 .sha384)
  else if oid = .ofArcs [1, 2, 840, 113549, 1, 1, 13] then some (rsa .pkcs1 .sha512)
  else if oid = .ofArcs [1, 2, 840, 113549, 1, 1, 10] then do
    return rsa .pss (← pssHash? (← algorithm.parameters))
  else if oid = .ofArcs [1, 2, 840, 10045, 4, 3, 2] then
    (curveOf? key).map fun c => ecdsa c .sha256
  else if oid = .ofArcs [1, 2, 840, 10045, 4, 3, 3] then
    (curveOf? key).map fun c => ecdsa c .sha384
  else if oid = .ofArcs [1, 3, 101, 112] then some ed25519
  else none

end SignatureScheme

/-- **The signature of a certificate, checked with a key.** -/
def Contents.checkSignature (contents : Contents) (key : PublicKeyInfo) :
    Except SignatureFault Unit :=
  match SignatureScheme.of? contents.signatureAlgorithm key.algorithm with
  | none => .error .unsupported
  | some scheme =>
    if scheme.verify key.key.bytes contents.signedBytes contents.signature.bytes then .ok ()
    else .error .mismatch

/-- **Checks that a certificate was signed by its own subject.** What is
signed, and with which key, is read from the encoding once more. -/
def Certificate.verifySelfSigned (c : Certificate) : Except Error Unit :=
  if c.isSelfIssued then
    match Contents.read? c.der with
    | none => .error (.encoding .notACertificate)
    | some (contents, _) =>
      match contents.checkSignature contents.statement.publicKey with
      | .ok () => .ok ()
      | .error fault => .error (.encoding (.signature c.subject fault))
  else .error (.encoding (.notSelfIssued c.subject c.issuer))

end CertAuthority
