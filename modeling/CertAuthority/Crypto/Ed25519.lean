import CertAuthority.Bytes
import CertAuthority.Crypto.ModArith
import CertAuthority.Crypto.Sha2

/-!
# Ed25519

Signatures with a key on the Edwards curve `y² - x² = 1 + d x² y²` over the
integers modulo `2²⁵⁵ - 19`.

Points are added in *extended* coordinates, where `(X, Y, Z, T)` stands for
the point `(X / Z, Y / Z)` and `T = X Y / Z`. The formula for the sum holds
for all points of the curve, so that doubling needs none of its own.

A point is encoded by its second coordinate and the parity of the first,
in thirty-two bytes, the least significant first. A second coordinate that
is not reduced stands for its residue.
-/

namespace CertAuthority.Crypto.Ed25519

/-- The prime of the field. -/
def p : Nat := Nat.pow 2 255 - 19

/-- The order of the base point. -/
def order : Nat := Nat.pow 2 252 + 27742317777372353535851937790883648493

/-- The coefficient of the curve. -/
def d : Nat := 0x52036cee2b6ffe738cc740797779e89800700a4d4141d8ab75eb4dca135978a3

/-- A square root of `-1`. -/
def rootOfMinusOne : Nat :=
  0x2b8324804fc1df0b2b4d00993dfbd7a72f431806ad2fe478c4ee1b274a0ea0b0

/-- A point in extended coordinates. -/
structure Point where
  /-- The first coordinate, times the third. -/
  x : Nat
  /-- The second coordinate, times the third. -/
  y : Nat
  /-- What the others are multiplied with. -/
  z : Nat
  /-- The product of both coordinates, times the third. -/
  t : Nat
  deriving DecidableEq, Repr

namespace Point

/-- The point with the given coordinates. -/
def ofAffine (x y : Nat) : Point := ⟨x, y, 1, x * y % p⟩

/-- The neutral point. -/
def zero : Point := ofAffine 0 1

/-- The base point. -/
def base : Point :=
  ofAffine 0x216936d3cd6e53fec0a4e231fdd6dc5c692cc7609525a7b2c9562d608f25d51a
    0x6666666666666666666666666666666666666666666666666666666666666658

/-- **The sum of two points.** -/
def add (q r : Point) : Point :=
  let a := ModArith.sub p q.y q.x * ModArith.sub p r.y r.x % p
  let b := (q.y + q.x) * (r.y + r.x) % p
  let c := 2 * d * q.t % p * r.t % p
  let e := 2 * q.z * r.z % p
  let f := ModArith.sub p b a
  let g := ModArith.sub p e c
  let h := (e + c) % p
  let i := (b + a) % p
  ⟨f * g % p, h * i % p, g * h % p, f * i % p⟩

/-- The negative of a point. -/
def neg (q : Point) : Point := ⟨ModArith.sub p 0 q.x, q.y, q.z, ModArith.sub p 0 q.t⟩

/-- **A multiple of a point**, by doubling. -/
def mul (k : Nat) (q : Point) : Point :=
  if _h : k = 0 then zero
  else
    let half := mul (k / 2) (q.add q)
    if k % 2 = 1 then half.add q else half
  termination_by k

end Point

/-- The number a byte string denotes, least significant byte first. -/
def toNatLittle (b : Bytes) : Nat := Bytes.toNat b.reverse

/-- Thirty-two bytes of a number, least significant first. -/
def ofNatLittle (n : Nat) : Bytes := (Bytes.ofNatPadded 32 n).reverse

/-- The encoding of a point. -/
def Point.encode (q : Point) : Bytes :=
  let w := ModArith.inv p q.z
  let x := q.x * w % p
  let y := q.y * w % p
  ofNatLittle (y + x % 2 * Nat.pow 2 255)

/-- A first coordinate for a second one, of either sign. -/
def recoverX? (y : Nat) : Option Nat :=
  let yy := y * y % p
  let u := ModArith.sub p yy 1
  let v := (d * yy + 1) % p
  let v3 := v * v % p * v % p
  let v7 := v3 * v3 % p * v % p
  let x := u * v3 % p * ModArith.pow p (u * v7) ((p - 5) / 8) % p
  let check := v * (x * x % p) % p
  if check = u then some x
  else if check = ModArith.sub p 0 u then some (x * rootOfMinusOne % p)
  else none

/-- **The point with this encoding**, if it is one. -/
def decodePoint? (b : Bytes) : Option Point :=
  if b.length = 32 then
    let n := toNatLittle b
    let y := n % Nat.pow 2 255 % p
    let sign := n / Nat.pow 2 255
    (recoverX? y).map fun x =>
      .ofAffine (if x % 2 = sign then x else ModArith.sub p 0 x) y
  else none

/-- What binds a signature's point, the key and the message together. -/
def challenge (point key message : Bytes) : Nat :=
  toNatLittle (sha512 (point ++ key ++ message)) % order

/-- **Checks a signature**: a point in thirty-two bytes and a number below
the order in thirty-two more. -/
def verify (key message signature : Bytes) : Bool :=
  if signature.length = 64 then
    let r := signature.take 32
    let s := toNatLittle (signature.drop 32)
    if s < order then
      match decodePoint? key with
      | none => false
      | some a =>
        let k := challenge r key message
        ((Point.base.mul s).add (a.neg.mul k)).encode == r
    else false
  else false

/-! ## Signing -/

/-- **What follows from a seed**: the secret multiplier, and the bytes that
make every signature's point unpredictable. -/
def expand (seed : Bytes) : Nat × Bytes :=
  let h := sha512 seed
  let n := toNatLittle (h.take 32)
  (n % Nat.pow 2 254 / 8 * 8 + Nat.pow 2 254, h.drop 32)

/-- The public key of a seed. -/
def publicKey (seed : Bytes) : Bytes :=
  (Point.base.mul (expand seed).1).encode

/-- **Signs a message** with the key of a seed. -/
def sign (seed message : Bytes) : Bytes :=
  let (secret, nonceKey) := expand seed
  let nonce := toNatLittle (sha512 (nonceKey ++ message)) % order
  let r := (Point.base.mul nonce).encode
  let k := challenge r (publicKey seed) message
  r ++ ofNatLittle ((nonce + k * secret) % order)

end CertAuthority.Crypto.Ed25519
