/-!
# Signature algorithms

The three algorithms the authority signs with, each with the name that
configurations and command lines use and the name of its key pairs in
diagnostic texts. A name on a command line may be in either case; a
configuration is read more strictly, by `Algorithm.ofName?`.
-/

namespace CertAuthority.Key

/-- **An algorithm to sign with.** -/
inductive Algorithm where
  /-- Elliptic curve signatures over P-256 with SHA-256. -/
  | ecdsaP256
  /-- Elliptic curve signatures over P-384 with SHA-384. -/
  | ecdsaP384
  /-- Edwards curve signatures over Curve25519. -/
  | ed25519
  deriving DecidableEq, Repr, Inhabited

namespace Algorithm

/-- All algorithms, the default one first. -/
def all : List Algorithm := [.ecdsaP256, .ecdsaP384, .ed25519]

/-- The algorithm of an authority that asks for none in particular. -/
def default : Algorithm := .ecdsaP256

/-- **The name of an algorithm.** -/
def name : Algorithm → String
  | .ecdsaP256 => "ecdsa-p256"
  | .ecdsaP384 => "ecdsa-p384"
  | .ed25519 => "ed25519"

/-- The name of an algorithm in diagnostic texts. -/
def diagnosticName : Algorithm → String
  | .ecdsaP256 => "EcdsaP256Sha256"
  | .ecdsaP384 => "EcdsaP384Sha384"
  | .ed25519 => "Ed25519"

/-- The algorithm with exactly this name. -/
def ofName? (s : String) : Option Algorithm :=
  all.find? fun a => a.name == s

/-- A letter of the basic alphabet in lower case; any other character as it
is. -/
def lowerAscii (c : Char) : Char :=
  if 'A' ≤ c ∧ c ≤ 'Z' then Char.ofNat (c.toNat + 32) else c

/-- **The algorithm with this name**, in letters of either case. -/
def parse? (s : String) : Option Algorithm :=
  all.find? fun a => a.name.toList == s.toList.map lowerAscii

@[simp] theorem ofName?_name (a : Algorithm) : ofName? a.name = some a := by
  cases a <;> rfl

end Algorithm

end CertAuthority.Key
