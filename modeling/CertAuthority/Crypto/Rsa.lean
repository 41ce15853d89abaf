import CertAuthority.Crypto.Hash
import CertAuthority.Crypto.ModArith
import CertAuthority.Der.Strict

/-!
# RSA signatures

A signature is a number below the modulus, and its power with the public
exponent is an encoding of the message's hash. There are two encodings: a
fixed frame around the hash (`pkcs1Block`), and a salted and masked one
(`isPssBlock`).

Only checking is needed. Keys have an odd exponent between three and
thirty-three bits and a modulus of at most 8192 bits; how many it needs at
least depends on the hash function.

Private keys are never signed with. They are read (`PrivateKey.decode?`) so
that a sound one can be told from bytes that are no key at all.
-/

namespace CertAuthority.Crypto.Rsa

/-- The number of bits of a number. -/
def bitLength (n : Nat) : Nat := if n = 0 then 0 else n.log2 + 1

/-- **A public key.** -/
structure PublicKey where
  /-- The modulus. -/
  modulus : Nat
  /-- The exponent. -/
  exponent : Nat
  deriving DecidableEq, Repr

namespace PublicKey

/-- The number of bits of the modulus. -/
def bits (k : PublicKey) : Nat := bitLength k.modulus

/-- The number of bytes of the modulus. -/
def size (k : PublicKey) : Nat := (k.bits + 7) / 8

/-- Whether a key is of a size and kind to be used. The size counts in
whole bytes against the minimum. -/
def IsUsable (minimumBits : Nat) (k : PublicKey) : Prop :=
  minimumBits ≤ 8 * k.size ∧ k.bits ≤ 8192 ∧ k.modulus % 2 = 1 ∧
    3 ≤ k.exponent ∧ k.exponent < Nat.pow 2 33 ∧ k.exponent % 2 = 1

instance (minimumBits : Nat) (k : PublicKey) : Decidable (k.IsUsable minimumBits) := by
  unfold IsUsable
  infer_instance

/-- The key with this encoding. -/
def decode? : Bytes → Option PublicKey :=
  Der.wholeStrict? <| Der.insideStrict? Der.Mark.sequence fun b => do
    let (modulus, b) ← Der.readPositive? b
    let (exponent, b) ← Der.readPositive? b
    return (⟨modulus, exponent⟩, b)

/-- **The encoding that a signature stands for**, in as many bytes as the
modulus has. -/
def open? (k : PublicKey) (signature : Bytes) : Option Bytes :=
  let n := Bytes.toNat signature
  if signature.length = k.size ∧ 0 < n ∧ n < k.modulus then
    some (Bytes.ofNatPadded k.size (ModArith.pow k.modulus n k.exponent))
  else none

end PublicKey

/-- **How the hash is encoded.** -/
inductive Padding where
  /-- In a fixed frame. -/
  | pkcs1
  /-- Salted and masked. -/
  | pss
  deriving DecidableEq, Repr

/-- The fixed frame around a hash, of `size` bytes. -/
def pkcs1Block (h : Hash) (size : Nat) (message : Bytes) : Bytes :=
  let info := h.digestInfo message
  [0x00, 0x01] ++ List.replicate (size - info.length - 3) 0xff ++ 0x00 :: info

/-- The blocks of a mask: hashes of the seed and a counter. -/
def maskBlocks (h : Hash) (seed : Bytes) (count : Nat) : Bytes :=
  (List.range count).flatMap fun i => h.apply (seed ++ Bytes.ofNatPadded 4 i)

/-- A mask of the given length. -/
def mask (h : Hash) (seed : Bytes) (length : Nat) : Bytes :=
  (maskBlocks h seed (length / h.size + 1)).take length

/-- The sum without carry of two byte strings. -/
def xor (a b : Bytes) : Bytes := List.zipWith (· ^^^ ·) a b

/-- **Whether a byte string of `bits` bits is a salted and masked encoding
of a message's hash**, with a salt as long as the hash. -/
def isPssBlock (h : Hash) (bits : Nat) (message block : Bytes) : Bool :=
  let size := (bits + 7) / 8
  let spare := 8 * size - bits
  if block.length = size ∧ 2 * h.size + 2 ≤ size ∧ block.getLast? = some 0xbc then
    let maskedLength := size - h.size - 1
    let masked := block.take maskedLength
    let digest := (block.drop maskedLength).take h.size
    let top := Nat.pow 2 (8 - spare)
    if (masked.headD 0).toNat < top then
      match xor masked (mask h digest maskedLength) with
      | [] => false
      | first :: rest =>
        let data := UInt8.ofNat (first.toNat % top) :: rest
        let zeros := maskedLength - h.size - 1
        let salt := data.drop (zeros + 1)
        data.take (zeros + 1) == List.replicate zeros 0 ++ [0x01]
          && h.apply (List.replicate 8 0 ++ h.apply message ++ salt) == digest
    else false
  else false

/-- Whether the bytes that a signature stands for encode a message's
hash. -/
def Padding.accepts (padding : Padding) (h : Hash) (k : PublicKey) (message block : Bytes) :
    Bool :=
  match padding with
  | .pkcs1 => block == pkcs1Block h k.size message
  | .pss =>
    -- A modulus of one bit more than whole bytes leaves a first byte over.
    if (k.bits - 1) % 8 = 0 then
      block.headD 1 == 0 && isPssBlock h (k.bits - 1) message block.tail
    else isPssBlock h (k.bits - 1) message block

/-- The number of bits that a modulus needs at least. -/
def minimumBits : Hash → Nat
  | .sha1 => 1024
  | _ => 2048

/-- **Checks a signature with an encoded key.** -/
def verify (padding : Padding) (h : Hash) (key message signature : Bytes) : Bool :=
  match PublicKey.decode? key with
  | none => false
  | some k =>
    if k.IsUsable (minimumBits h) then
      match k.open? signature with
      | none => false
      | some block => padding.accepts h k message block
    else false

/-! ## Private keys -/

/-- **A private key**: the secret exponent and the two primes, with the
numbers that speed up signing. -/
structure PrivateKey where
  /-- The public part. -/
  publicKey : PublicKey
  /-- The secret exponent. -/
  exponent : Nat
  /-- The first prime. -/
  p : Nat
  /-- The second prime. -/
  q : Nat
  /-- The secret exponent modulo the first prime less one. -/
  exponentP : Nat
  /-- The secret exponent modulo the second prime less one. -/
  exponentQ : Nat
  /-- The inverse of the second prime modulo the first. -/
  inverse : Nat
  deriving DecidableEq, Repr

namespace PrivateKey

/-- Whether a number may be a prime of a modulus of the given length: half
as long, in whole steps of 512 bits, and odd. -/
def IsPrimeOf (bits prime : Nat) : Prop :=
  bitLength prime = (bits + 1) / 2 ∧ bitLength prime % 512 = 0 ∧ prime % 2 = 1

instance (bits prime : Nat) : Decidable (IsPrimeOf bits prime) := by
  unfold IsPrimeOf
  infer_instance

/-- **Whether the numbers of a key belong together**, in a key of 2048 to
4096 bits with a public exponent of 65537 at least. -/
def IsConsistent (k : PrivateKey) : Prop :=
  let n := k.publicKey.modulus
  let bits := k.publicKey.bits
  k.publicKey.IsUsable 2048 ∧ bits ≤ 4096 ∧ 65537 ≤ k.publicKey.exponent ∧
    IsPrimeOf bits k.p ∧ IsPrimeOf bits k.q ∧ k.p * k.q % n = 0 ∧
    k.exponent % 2 = 1 ∧ (bits + 1) / 2 < bitLength k.exponent ∧ k.exponent < n ∧
    k.exponentP % 2 = 1 ∧ k.exponentP < k.p ∧ k.exponentQ % 2 = 1 ∧ k.exponentQ < k.q ∧
    k.inverse < k.p ∧ k.inverse * k.q % k.p = 1

instance (k : PrivateKey) : Decidable k.IsConsistent := by
  unfold IsConsistent
  infer_instance

/-- The key with this encoding. -/
def decode? : Bytes → Option PrivateKey :=
  Der.wholeStrict? <| Der.insideStrict? Der.Mark.sequence fun b => do
    let (version, b) ← Der.readNumber? b
    let (modulus, b) ← Der.readNumber? b
    let (publicExponent, b) ← Der.readNumber? b
    let (exponent, b) ← Der.readNumber? b
    let (p, b) ← Der.readNumber? b
    let (q, b) ← Der.readNumber? b
    let (exponentP, b) ← Der.readNumber? b
    let (exponentQ, b) ← Der.readNumber? b
    let (inverse, b) ← Der.readNumber? b
    if version = 0 then
      return (⟨⟨modulus, publicExponent⟩, exponent, p, q, exponentP, exponentQ, inverse⟩, b)
    else none

end PrivateKey

end CertAuthority.Crypto.Rsa
