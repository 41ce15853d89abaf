import CertAuthority.Key.Supply
import CertAuthority.Proofs.Program.Run

/-!
# Keys of Ed25519

Keys of Ed25519 come with no condition on the secret: every seed is one, so
that random bytes always make a key pair (`Key.Supply.obtain_ed25519`) and a
key pair signs every message. The keys of the other two algorithms are numbers
below the order of a group, so there are random bytes that make none, and a
signature may fail for want of a number to draw. What is to be shown of the
authority on a run that cannot fail for such a reason is shown with this
algorithm.

Public keys and signatures have fixed sizes, which bounds the certificates
that hold them.

Both facts are about sizes and not about the curve: a point is encoded in as
many bytes as a field element has, and a signature is an encoded point and a
number. Nothing is said here of whether a signature is accepted, which is
assumed where it matters.
-/

namespace CertAuthority

open Program (Ends)

namespace Crypto.Ed25519

/-- **A point is encoded in 32 bytes**: one coordinate of 255 bits and the sign
of the other. -/
theorem length_encode (q : Point) : q.encode.length = 32 := by
  unfold Point.encode ofNatLittle
  rw [List.length_reverse, Bytes.length_ofNatPadded]

theorem length_publicKey (seed : Bytes) : (publicKey seed).length = 32 := length_encode _

/-- A signature is a point and a number of 32 bytes. -/
theorem length_sign (seed message : Bytes) : (sign seed message).length = 64 := by
  unfold sign ofNatLittle
  rw [List.length_append, length_encode, List.length_reverse, Bytes.length_ofNatPadded]

end Crypto.Ed25519

namespace KeyPair

/-- **Every seed is one.** Whatever bytes are drawn, they make a key pair, of
this algorithm and with a public key of the size that is to be expected. -/
theorem ofEntropy?_ed25519 (entropy : Bytes) :
    ∃ k, ofEntropy? .ed25519 entropy = some k ∧ k.algorithm = .ed25519
      ∧ k.publicKey.length = 32 := by
  have hsize : (secretOfEntropy .ed25519 entropy).length = Key.Algorithm.ed25519.secretSize :=
    Bytes.length_ofNatPadded _ _
  unfold ofEntropy? ofSecret? Key.Algorithm.publicKeyOf?
  rw [if_pos hsize]
  exact ⟨_, rfl, rfl, Crypto.Ed25519.length_publicKey _⟩

/-- A key pair of this algorithm signs every message, and no drawing of numbers
is part of it. -/
theorem sign?_ed25519 {k : KeyPair} (h : k.algorithm = .ed25519) (message : Bytes) :
    k.sign? message = some (Crypto.Ed25519.sign k.secret message) := by
  unfold sign?
  rw [h]
  rfl

end KeyPair

/-- **There is always a new key pair** from a generator of this algorithm, on
every host. -/
theorem Key.Supply.obtain_ed25519 (h : Host) :
    (generator .ed25519).obtain.run.Ends h fun r _ =>
      ∃ k, r = .ok k ∧ k.algorithm = .ed25519 ∧ k.publicKey.length = 32 := by
  have hrandom : (Program.request (.random KeyPair.entropySize)).Ends h fun _ _ => True := trivial
  have hgenerate : (KeyPair.generate .ed25519).run.Ends h fun r _ =>
      ∃ k, r = .ok k ∧ k.algorithm = .ed25519 ∧ k.publicKey.length = 32 := by
    unfold KeyPair.generate
    refine hrandom.run_lift_bind fun entropy h' _ => ?_
    obtain ⟨k, hk, halgorithm, hlength⟩ := KeyPair.ofEntropy?_ed25519 entropy
    rw [hk]
    exact ⟨k, rfl, halgorithm, hlength⟩
  refine hgenerate.run_bind (fun k h' hk => ?_) fun e h' he => he
  have hnote : (Action.note (.keyGenerated .ed25519)).run.Ends h' fun r _ => r = .ok () := rfl
  refine hnote.run_bind (fun u h'' _ => hk) fun e h'' he => ?_
  cases he

end CertAuthority
