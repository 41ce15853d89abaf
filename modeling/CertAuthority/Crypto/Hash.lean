import CertAuthority.Crypto.Sha2
import CertAuthority.Der.Encode

/-!
# The choice of a hash function

A signature algorithm names the hash function it signs with. `Hash` is
that choice: what is applied, how long the result is and by which
identifier certificates name it.
-/

namespace CertAuthority.Crypto

/-- **A hash function.** -/
inductive Hash where
  /-- SHA-1. -/
  | sha1
  /-- SHA-256. -/
  | sha256
  /-- SHA-384. -/
  | sha384
  /-- SHA-512. -/
  | sha512
  deriving DecidableEq, Repr

namespace Hash

/-- The hash of a message. -/
def apply : Hash → Bytes → Bytes
  | sha1 => Crypto.sha1
  | sha256 => Crypto.sha256
  | sha384 => Crypto.sha384
  | sha512 => Crypto.sha512

/-- The number of bytes of a hash. -/
def size : Hash → Nat
  | sha1 => 20
  | sha256 => 32
  | sha384 => 48
  | sha512 => 64

/-- The identifier of a hash function. -/
def oid : Hash → Der.Oid
  | sha1 => .ofArcs [1, 3, 14, 3, 2, 26]
  | sha256 => .ofArcs [2, 16, 840, 1, 101, 3, 4, 2, 1]
  | sha384 => .ofArcs [2, 16, 840, 1, 101, 3, 4, 2, 2]
  | sha512 => .ofArcs [2, 16, 840, 1, 101, 3, 4, 2, 3]

/-- **The hash of a message together with the name of the hash function**,
encoded. -/
def digestInfo (h : Hash) (message : Bytes) : Bytes :=
  Der.sequence [Der.sequence [h.oid.encode, Der.null], Der.octetString (h.apply message)]

end Hash

end CertAuthority.Crypto
