import CertAuthority.Crypto.Ecdsa
import CertAuthority.Crypto.Ed25519
import CertAuthority.Crypto.Rsa
import CertAuthority.Error
import CertAuthority.Key.Container
import CertAuthority.Pem.Block
import CertAuthority.Pem.Envelope

/-!
# Key pairs

A key pair is a secret, the public key that belongs to it, and the encoding
that both are stored in. For the elliptic curves the secret is a number
below the order of the curve, for Ed25519 a seed of thirty-two bytes.

`KeyPair.ofDer?` reads an encoding and checks that the public key in it, if
there is one, is the secret's; `KeyPair.ofSecret?` makes a pair from a
secret, and `KeyPair.ofEntropy` from random bytes. The encoding of a pair
that was read is kept as it was.

Signing (`KeyPair.sign?`) is a function: where a signature needs a nonce,
it follows from the secret and the message.
-/

namespace CertAuthority

open Crypto Der

/-! ## Algorithms -/

namespace Key.Algorithm

/-- The curve of an algorithm, unless it is Ed25519. -/
def curve? : Algorithm → Option Curve
  | .ecdsaP256 => some .p256
  | .ecdsaP384 => some .p384
  | .ed25519 => none

/-- The hash function an algorithm signs with. -/
def hash : Algorithm → Hash
  | .ecdsaP256 => .sha256
  | .ecdsaP384 => .sha384
  | .ed25519 => .sha512

/-- The number of bytes of a secret. -/
def secretSize : Algorithm → Nat
  | .ecdsaP256 => 32
  | .ecdsaP384 => 48
  | .ed25519 => 32

/-- The identifier of keys on an elliptic curve. -/
def ellipticKeyOid : Oid := .ofArcs [1, 2, 840, 10045, 2, 1]

/-- The identifiers that say what a key is for. -/
def keyOids : Algorithm → List Oid
  | .ecdsaP256 => [ellipticKeyOid, .ofArcs [1, 2, 840, 10045, 3, 1, 7]]
  | .ecdsaP384 => [ellipticKeyOid, .ofArcs [1, 3, 132, 0, 34]]
  | .ed25519 => [.ofArcs [1, 3, 101, 112]]

/-- What a key is for, encoded: the content of the element. -/
def keyAlgorithm (a : Algorithm) : Bytes := (a.keyOids.map Oid.encode).flatten

/-- The identifier of an algorithm's signatures. -/
def signatureOid : Algorithm → Oid
  | .ecdsaP256 => .ofArcs [1, 2, 840, 10045, 4, 3, 2]
  | .ecdsaP384 => .ofArcs [1, 2, 840, 10045, 4, 3, 3]
  | .ed25519 => .ofArcs [1, 3, 101, 112]

/-- **The public key of a secret**, if it is one. -/
def publicKeyOf? (a : Algorithm) (secret : Bytes) : Option Bytes :=
  if secret.length = a.secretSize then
    match a.curve? with
    | none => some (Ed25519.publicKey secret)
    | some c =>
      let n := Bytes.toNat secret
      if 0 < n ∧ n < c.order then (c.publicPoint? n).map c.encodePoint else none
  else none

end Key.Algorithm

/-! ## Key pairs -/

/-- **A private key**: its encoding. -/
structure PrivateKey where
  /-- The encoding. -/
  der : Bytes
  deriving DecidableEq

namespace PrivateKey

/-- The text form of a private key. -/
def pem (k : PrivateKey) : String := Pem.encodeBlock "PRIVATE KEY" k.der

/-- How a private key shows in diagnostic texts: it does not. -/
def diagnostic (_ : PrivateKey) : String := "PrivateKey \x7b der: \"[REDACTED]\" \x7d"

end PrivateKey

/-- **A key pair.** -/
structure KeyPair where
  /-- The algorithm it signs with. -/
  algorithm : Key.Algorithm
  /-- The secret. -/
  secret : Bytes
  /-- The public key. -/
  publicKey : Bytes
  /-- The private key as it is stored. -/
  privateKey : PrivateKey
  deriving DecidableEq

namespace KeyPair

open Key

/-- **How a key pair shows in diagnostic texts**: by its algorithm. -/
def diagnostic (k : KeyPair) : String :=
  "KeyPair \x7b algorithm: " ++ k.algorithm.diagnosticName ++ ", private_key: \"[REDACTED]\" \x7d"

/-! ### Reading -/

/-- What the key of a container on an elliptic curve holds: the secret and
the public key. The curve may be named once more. -/
def readElliptic? (curve : Oid) : Bytes → Option (Bytes × Bytes) :=
  wholeStrict? <| insideStrict? Mark.sequence fun b => do
    let (version, b) ← readNumber? b
    let (secret, b) ← readStrict? Mark.octetString b
    let (named, b) ← if b.head? = some (Mark.fieldOf 0) then
        (readStrict? (Mark.fieldOf 0) b).map fun (name, b) => (some name, b)
      else some (none, b)
    let (publicKey, b) ← insideStrict? (Mark.fieldOf 1) readBits? b
    if version = 1 ∧ (named = none ∨ named = some curve.encode) then
      return ((secret, publicKey), b)
    else none

/-- The secret in a container for an algorithm, and the public key that is
stored with it. -/
def contentsFor? (a : Algorithm) (c : Container) : Option (Bytes × Option Bytes) :=
  if c.algorithm = a.keyAlgorithm then
    match a.keyOids with
    | [_, curve] =>
      if c.publicKey = none then
        (readElliptic? curve c.key).map fun (secret, publicKey) => (secret, some publicKey)
      else none
    | _ =>
      (wholeStrict? (readStrict? Mark.octetString) c.key).map fun secret => (secret, c.publicKey)
  else none

/-- The key pair in a container, for an algorithm. -/
def ofContainer? (a : Algorithm) (der : Bytes) (c : Container) : Option KeyPair := do
  let (secret, stored) ← contentsFor? a c
  let publicKey ← a.publicKeyOf? secret
  if stored = none ∨ stored = some publicKey then some ⟨a, secret, publicKey, ⟨der⟩⟩ else none

/-- **The key pair with this encoding.** -/
def ofDer? (der : Bytes) : Option KeyPair := do
  let c ← Container.decode? der
  Algorithm.all.findSome? fun a => ofContainer? a der c

/-- What a container for an RSA key names as its algorithm. -/
def rsaAlgorithm : Bytes := (Oid.ofArcs [1, 2, 840, 113549, 1, 1, 1]).encode ++ null

/-- Whether an encoding is of a sound key that cannot be used here. -/
def isForeignKey (der : Bytes) : Bool :=
  match Container.decode? der with
  | some ⟨algorithm, key, none⟩ =>
    algorithm == rsaAlgorithm &&
      match Rsa.PrivateKey.decode? key with
      | some k => decide k.IsConsistent
      | none => false
  | _ => false

/-- **The key pair in a text.** -/
def decodePem (text : String) : Except Error KeyPair :=
  match Pem.openEnvelope? text.toList with
  | none => .error (.encoding .notAKey)
  | some der =>
    match ofDer? der with
    | some k => .ok k
    | none => .error (.encoding (if isForeignKey der then .unsupportedKey else .notAKey))

/-! ### Making -/

/-- The container that a new pair is stored in. -/
def containerFor (a : Algorithm) (secret publicKey : Bytes) : Container :=
  match a.curve? with
  | none => ⟨a.keyAlgorithm, octetString secret, some publicKey⟩
  | some _ =>
    ⟨a.keyAlgorithm,
      sequence [integer 1, octetString secret,
        encode (Mark.fieldOf 1) (bitString 0 publicKey)],
      none⟩

/-- **The key pair of a secret**, if it is one. -/
def ofSecret? (a : Algorithm) (secret : Bytes) : Option KeyPair :=
  (a.publicKeyOf? secret).map fun publicKey =>
    ⟨a, secret, publicKey, ⟨(containerFor a secret publicKey).encode⟩⟩

/-- The number of random bytes that a key pair is made from. -/
def entropySize : Nat := 64

/-- The secret that random bytes make. For the curves their number is
reduced into the range of secrets; they are so many that no secret is
noticeably more likely than another. -/
def secretOfEntropy (a : Algorithm) (entropy : Bytes) : Bytes :=
  match a.curve? with
  | none => Bytes.ofNatPadded a.secretSize (Bytes.toNat entropy)
  | some c => Bytes.ofNatPadded a.secretSize (Bytes.toNat entropy % (c.order - 1) + 1)

/-- **The key pair that random bytes make.** -/
def ofEntropy? (a : Algorithm) (entropy : Bytes) : Option KeyPair :=
  ofSecret? a (secretOfEntropy a entropy)

/-! ### Signing -/

/-- How many nonces are tried before a message counts as not to be
signed. One is enough but for a chance that never comes up. -/
def nonceAttempts : Nat := 100

/-- A nonce for a message, never used for another one: a hash that takes in
the secret. -/
def nonceFor (c : Curve) (secret message : Bytes) (attempt : Nat) : Nat :=
  Bytes.toNat (sha512 (secret ++ sha512 message ++ Bytes.ofNatPadded 1 attempt))
    % (c.order - 1) + 1

/-- **The signature of a message**, encoded. -/
def sign? (k : KeyPair) (message : Bytes) : Option Bytes :=
  match k.algorithm.curve? with
  | none => some (Ed25519.sign k.secret message)
  | some c =>
    (List.range nonceAttempts).findSome? fun attempt =>
      (Ecdsa.sign? c k.algorithm.hash (Bytes.toNat k.secret)
        (nonceFor c k.secret message attempt) message).map Ecdsa.Signature.encode

end KeyPair

end CertAuthority
