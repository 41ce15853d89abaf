import CertAuthority.Crypto.Hash
import CertAuthority.Crypto.Weierstrass
import CertAuthority.Der.Strict

/-!
# ECDSA

Signatures with a key on an elliptic curve. A signature is a pair of
numbers `r` and `s` between zero and the order of the base point, encoded
as a sequence of two integers.

Signing takes a *nonce* along with the secret, a number that must be new
and secret for every signature; where it comes from is the caller's
concern.
-/

namespace CertAuthority.Crypto.Ecdsa

/-- **A signature.** -/
structure Signature where
  /-- The first coordinate of the nonce's point. -/
  r : Nat
  /-- What ties the message and the secret to it. -/
  s : Nat
  deriving DecidableEq, Repr

/-- The encoding of a signature. -/
def Signature.encode (sig : Signature) : Bytes :=
  Der.sequence [Der.integer sig.r, Der.integer sig.s]

/-- The signature with this encoding. -/
def Signature.decode? : Bytes → Option Signature :=
  Der.wholeStrict? <| Der.insideStrict? Der.Mark.sequence fun b => do
    let (r, b) ← Der.readPositive? b
    let (s, b) ← Der.readPositive? b
    return (⟨r, s⟩, b)

/-- The number that is signed: as much of the hash as the order has
bytes. -/
def messageNumber (c : Curve) (h : Hash) (message : Bytes) : Nat :=
  Bytes.toNat ((h.apply message).take c.size) % c.order

/-- **Whether a signature of a message was made with the key of a point.** -/
def Holds (c : Curve) (h : Hash) (key : Nat × Nat) (message : Bytes) (sig : Signature) : Bool :=
  if sig.r < c.order ∧ sig.s < c.order then
    let w := ModArith.inv c.order sig.s
    let u := messageNumber c h message * w % c.order
    let v := sig.r * w % c.order
    let point := (c.base.mul c u).add c ((Jacobian.ofAffine key).mul c v)
    match point.affine? c with
    | none => false
    | some (x, _) => x % c.order == sig.r
  else false

/-- **Checks an encoded signature with an encoded key.** -/
def verify (c : Curve) (h : Hash) (key message signature : Bytes) : Bool :=
  match c.decodePoint? key, Signature.decode? signature with
  | some point, some sig => Holds c h point message sig
  | _, _ => false

/-- **Signs a message.** There is no signature with a nonce that makes one
of its numbers zero. -/
def sign? (c : Curve) (h : Hash) (secret nonce : Nat) (message : Bytes) : Option Signature := do
  let (x, _) ← c.publicPoint? nonce
  let r := x % c.order
  let e := messageNumber c h message
  let s := ModArith.inv c.order nonce * (e + r * secret) % c.order
  if r = 0 ∨ s = 0 then none else some ⟨r, s⟩

end CertAuthority.Crypto.Ecdsa
