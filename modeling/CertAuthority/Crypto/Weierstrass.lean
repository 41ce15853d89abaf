import CertAuthority.Bytes
import CertAuthority.Crypto.ModArith

/-!
# Elliptic curves in Weierstrass form

The curves `y² = x³ + a x + b` over the integers modulo a prime, with a
base point that generates a group of prime order.

Points are added in *Jacobian* coordinates, where `(X, Y, Z)` stands for
the point `(X / Z², Y / Z³)` and `Z = 0` for the point at infinity, because
that needs no division until the end. Multiples are found by doubling.

The two curves that keys can be on, `p256` and `p384`, are at the end.
-/

namespace CertAuthority.Crypto

/-- **A curve with its base point.** -/
structure Curve where
  /-- The prime of the field. -/
  p : Nat
  /-- The coefficient of `x`. -/
  a : Nat
  /-- The constant coefficient. -/
  b : Nat
  /-- The first coordinate of the base point. -/
  baseX : Nat
  /-- The second coordinate of the base point. -/
  baseY : Nat
  /-- The order of the base point. -/
  order : Nat
  /-- The number of bytes of a coordinate, and of the order. -/
  size : Nat
  deriving DecidableEq, Repr

/-- A point in Jacobian coordinates. -/
structure Jacobian where
  /-- The first coordinate, times the square of the third. -/
  x : Nat
  /-- The second coordinate, times the cube of the third. -/
  y : Nat
  /-- Zero at infinity. -/
  z : Nat
  deriving DecidableEq, Repr

namespace Jacobian

/-- The point at infinity. -/
def infinity : Jacobian := ⟨1, 1, 0⟩

/-- The point with the given coordinates. -/
def ofAffine (point : Nat × Nat) : Jacobian := ⟨point.1, point.2, 1⟩

/-- Twice a point. -/
def double (c : Curve) (q : Jacobian) : Jacobian :=
  if q.z = 0 ∨ q.y = 0 then infinity
  else
    let yy := q.y * q.y % c.p
    let s := 4 * q.x * yy % c.p
    let zz := q.z * q.z % c.p
    let m := (3 * q.x * q.x + c.a * (zz * zz % c.p)) % c.p
    let x := ModArith.sub c.p (m * m) (2 * s)
    let y := ModArith.sub c.p (m * ModArith.sub c.p s x) (8 * yy * yy)
    ⟨x, y, 2 * q.y * q.z % c.p⟩

/-- **The sum of two points.** -/
def add (c : Curve) (q r : Jacobian) : Jacobian :=
  if q.z = 0 then r
  else if r.z = 0 then q
  else
    let qzz := q.z * q.z % c.p
    let rzz := r.z * r.z % c.p
    let u := q.x * rzz % c.p
    let s := q.y * (rzz * r.z % c.p) % c.p
    let h := ModArith.sub c.p (r.x * qzz) u
    let t := ModArith.sub c.p (r.y * (qzz * q.z % c.p)) s
    if h = 0 then
      if t = 0 then double c q else infinity
    else
      let hh := h * h % c.p
      let hhh := hh * h % c.p
      let v := u * hh % c.p
      let x := ModArith.sub c.p (t * t) (hhh + 2 * v)
      let y := ModArith.sub c.p (t * ModArith.sub c.p v x) (s * hhh)
      ⟨x, y, q.z * r.z % c.p * h % c.p⟩

/-- **A multiple of a point**, by doubling. -/
def mul (c : Curve) (k : Nat) (q : Jacobian) : Jacobian :=
  if _h : k = 0 then infinity
  else
    let half := mul c (k / 2) (double c q)
    if k % 2 = 1 then add c half q else half
  termination_by k

/-- The coordinates of a point, unless it is at infinity. -/
def affine? (c : Curve) (q : Jacobian) : Option (Nat × Nat) :=
  if q.z = 0 then none
  else
    let w := ModArith.inv c.p q.z
    let ww := w * w % c.p
    some (q.x * ww % c.p, q.y * (ww * w % c.p) % c.p)

end Jacobian

namespace Curve

/-- The base point. -/
def base (c : Curve) : Jacobian := ⟨c.baseX, c.baseY, 1⟩

/-- **Whether a pair of residues is a point of the curve.** -/
def Contains (c : Curve) (point : Nat × Nat) : Prop :=
  point.1 < c.p ∧ point.2 < c.p ∧
    point.2 * point.2 % c.p = (point.1 * point.1 * point.1 + c.a * point.1 + c.b) % c.p

instance (c : Curve) (point : Nat × Nat) : Decidable (c.Contains point) := by
  unfold Contains
  infer_instance

/-- The encoding of a point: a mark and both coordinates. -/
def encodePoint (c : Curve) (point : Nat × Nat) : Bytes :=
  0x04 :: Bytes.ofNatPadded c.size point.1 ++ Bytes.ofNatPadded c.size point.2

/-- **The point with this encoding**, if it is one of the curve. -/
def decodePoint? (c : Curve) : Bytes → Option (Nat × Nat)
  | [] => none
  | mark :: coordinates =>
    let point := (Bytes.toNat (coordinates.take c.size), Bytes.toNat (coordinates.drop c.size))
    if mark = 0x04 ∧ coordinates.length = 2 * c.size ∧ c.Contains point then some point else none

/-- **The public key of a private one**: that multiple of the base
point. -/
def publicPoint? (c : Curve) (secret : Nat) : Option (Nat × Nat) :=
  (c.base.mul c secret).affine? c

/-- NIST P-256. -/
def p256 : Curve where
  p := 0xffffffff00000001000000000000000000000000ffffffffffffffffffffffff
  a := 0xffffffff00000001000000000000000000000000fffffffffffffffffffffffc
  b := 0x5ac635d8aa3a93e7b3ebbd55769886bc651d06b0cc53b0f63bce3c3e27d2604b
  baseX := 0x6b17d1f2e12c4247f8bce6e563a440f277037d812deb33a0f4a13945d898c296
  baseY := 0x4fe342e2fe1a7f9b8ee7eb4a7c0f9e162bce33576b315ececbb6406837bf51f5
  order := 0xffffffff00000000ffffffffffffffffbce6faada7179e84f3b9cac2fc632551
  size := 32

/-- NIST P-384. -/
def p384 : Curve where
  p := 0xfffffffffffffffffffffffffffffffffffffffffffffffffffffffffffffffeffffffff0000000000000000ffffffff
  a := 0xfffffffffffffffffffffffffffffffffffffffffffffffffffffffffffffffeffffffff0000000000000000fffffffc
  b := 0xb3312fa7e23ee7e4988e056be3f82d19181d9c6efe8141120314088f5013875ac656398d8a2ed19d2a85c8edd3ec2aef
  baseX := 0xaa87ca22be8b05378eb1c71ef320ad746e1d3b628ba79b9859f741e082542a385502f25dbf55296c3a545e3872760ab7
  baseY := 0x3617de4a96262c6f5d9e98bf9292dc29f8f41dbd289a147ce9da3113b5f0b8c00a60b1ce1d7e819d7a431d7c90ea0e5f
  order := 0xffffffffffffffffffffffffffffffffffffffffffffffffc7634d81f4372ddf581a0db248b0a77aecec196accc52973
  size := 48

end Curve

end CertAuthority.Crypto
