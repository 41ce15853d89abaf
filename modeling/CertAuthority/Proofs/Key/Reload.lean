import CertAuthority.Key.Pair
import CertAuthority.Proofs.Der.Strict
import CertAuthority.Proofs.Key.Ed25519
import CertAuthority.Proofs.Pem.Envelope

/-!
# Keys that are stored are read back

A key pair that is made from a secret is stored in a container of its own
form: the algorithm, the secret and the public key. Whoever reads the
container finds the secret in it, makes the public key again and compares
(`KeyPair.ofDer?_of_ofSecret?`). What is read is the pair that was made, and
the same goes for the text that the container travels in
(`KeyPair.decodePem_of_ofSecret?`).

No algorithm's container is taken for another's, since the names of the
algorithms differ (`Key.Algorithm.keyAlgorithm_inj`), and all containers are
short, as secrets and public keys have fixed sizes. The reader tries the
algorithms one after another, so that a proof for the last of them has to show
that the first two have refused, which is where the names come in.

Nothing is said here about the mathematics of the keys. The public key is made
again from the secret by the same function, and a function gives the same
twice. What has to be shown is that the secret arrives in full: for the keys
of elliptic curves as a number of fixed size inside a structure of its own,
and for the others as bytes in a string within a string.
-/

namespace CertAuthority

open Crypto Der

namespace Key

/-! ## Containers -/

namespace Container

theorem Version.read?_first (rest : Bytes) : read? (integer 0 ++ rest) = some (.first, rest) := by
  rw [read?, readNumber?_integer (by decide)]
  rfl

theorem Version.read?_second (rest : Bytes) : read? (integer 1 ++ rest) = some (.second, rest) := by
  rw [read?, readNumber?_integer (by decide)]
  rfl

/-- **A container that is written is read**, if it is not too long. -/
theorem decode?_encode {c : Container} (h : IsShort c.encode) : decode? c.encode = some c := by
  obtain ⟨algorithm, key, publicKey⟩ := c
  have hcontent := h.mono (length_le_encode _ _)
  have halgorithm : IsShort algorithm := hcontent.mono (by
    have := length_le_encode Mark.sequence algorithm
    simp only [List.flatten_cons, List.length_append]
    omega)
  have hkey : IsShort key := hcontent.mono (by
    have := length_le_encode Mark.octetString key
    simp only [List.flatten_cons, List.length_append, octetString]
    omega)
  refine wholeStrict?_eq_some ?_
  rw [encode, Der.sequence, ← List.append_nil (Der.encode _ _)]
  refine insideStrict?_encode hcontent ?_ []
  cases publicKey with
  | none =>
    simp only [List.flatten_cons, List.flatten_nil, Option.isSome_none, Bool.false_eq_true,
      if_false, Option.map_none, Option.getD_none, List.append_nil]
    rw [Version.read?_first]
    simp only [Option.bind_eq_bind, Option.bind_some]
    rw [readStrict?_encode halgorithm]
    simp only [Option.bind_some]
    rw [octetString, readStrict?_encode_last hkey]
    rfl
  | some k =>
    have hpublicKey : IsShort (0 :: k) := hcontent.mono (by
      have := length_le_encode publicKeyMark (0 :: k)
      simp only [List.flatten_cons, List.length_append, Option.map_some, Option.getD_some]
      omega)
    simp only [List.flatten_cons, List.flatten_nil, Option.isSome_some, if_true, Option.map_some,
      Option.getD_some, List.append_nil]
    rw [Version.read?_second]
    simp only [Option.bind_eq_bind, Option.bind_some]
    rw [readStrict?_encode halgorithm]
    simp only [Option.bind_some]
    rw [octetString, readStrict?_encode hkey]
    simp only [Option.bind_some]
    -- what follows is neither attributes nor the older spelling
    show (readPublicKey? (Der.encode publicKeyMark (0 :: k))).bind _ = _
    have hread : readPublicKey? (Der.encode publicKeyMark (0 :: k)) = some (k, []) := by
      show ((readStrict? publicKeyMark (Der.encode publicKeyMark (0 :: k))).bind _) = _
      rw [readStrict?_encode_last hpublicKey]
      rfl
    rw [hread]
    rfl

end Container

/-! ## Algorithms -/

/-- **The name of an algorithm in a container** is its own. -/
theorem Algorithm.keyAlgorithm_inj {a b : Algorithm} :
    a.keyAlgorithm = b.keyAlgorithm ↔ a = b := by
  constructor
  · intro h
    cases a <;> cases b <;> first | rfl | exact absurd h (by decide +kernel)
  · rintro rfl
    rfl

/-- Secrets and public keys have few bytes. -/
theorem Algorithm.sizes_of_publicKeyOf? {a : Algorithm} {secret publicKey : Bytes}
    (h : a.publicKeyOf? secret = some publicKey) :
    secret.length ≤ 48 ∧ publicKey.length ≤ 97 := by
  have hsecret : a.secretSize ≤ 48 := by cases a <;> decide
  have hcurve : ∀ c, a.curve? = some c → c.size ≤ 48 := by
    intro c hc
    cases a <;> cases hc <;> decide
  unfold publicKeyOf? at h
  split_ifs at h with hsize
  refine ⟨hsize ▸ hsecret, ?_⟩
  cases hcase : a.curve? with
  | none =>
    rw [hcase] at h
    cases h
    exact (Ed25519.length_publicKey secret).trans_le (by decide)
  | some c =>
    rw [hcase] at h
    dsimp only at h
    split_ifs at h
    obtain ⟨point, -, rfl⟩ := Option.map_eq_some_iff.1 h
    have hc := hcurve c hcase
    simp only [Curve.encodePoint, List.length_cons, List.length_append, Bytes.length_ofNatPadded]
    omega

end Key

/-! ## Key pairs

A pair is written with its public key, and whoever reads it computes the
public key again and compares. For a pair that was made from a secret the two
agree by construction. That its container is short enough for a strict reader
is a matter of counting. -/

namespace KeyPair

open Key

variable {a : Algorithm} {secret publicKey : Bytes}

/-- A new pair's container names the algorithm of the pair. -/
theorem algorithm_containerFor : (containerFor a secret publicKey).algorithm = a.keyAlgorithm := by
  unfold containerFor
  cases a.curve? with
  | none => rfl
  | some c => rfl

section Sizes

variable (hsecret : secret.length ≤ 48) (hpublicKey : publicKey.length ≤ 97)
include hsecret hpublicKey

/-- The key of an elliptic curve is short. -/
theorem length_ellipticKey_le :
    [integer 1, octetString secret, encode (Mark.fieldOf 1) (bitString 0 publicKey)].flatten.length
      ≤ 161 := by
  have hversion : (integer 1).length = 3 := by decide
  have hoctets : (octetString secret).length ≤ 48 + 4 := length_encode_le_add hsecret (by decide)
  have hbits : (bitString 0 publicKey).length ≤ 98 + 4 :=
    length_encode_le_add (Nat.succ_le_succ hpublicKey) (by decide)
  have hfield : (encode (Mark.fieldOf 1) (bitString 0 publicKey)).length ≤ 98 + 4 + 4 :=
    length_encode_le_add hbits (by decide)
  simp only [List.flatten_cons, List.flatten_nil, List.length_append, List.length_nil, hversion]
  omega

/-- The container of a new pair is short. -/
theorem isShort_containerFor : IsShort (containerFor a secret publicKey).encode := by
  have hcontent : ∀ c : Container, c.algorithm.length ≤ 30 → c.key.length ≤ 165 →
      (∀ k, c.publicKey = some k → k.length ≤ 97) → IsShort c.encode := by
    rintro ⟨algorithm, key, stored⟩ halgorithm hkey hstored
    have hversion : (integer (if stored.isSome then 1 else 0)).length = 3 := by
      cases stored with
      | none => decide
      | some k => exact (by decide : (integer 1).length = 3)
    have hname : (encode Mark.sequence algorithm).length ≤ 30 + 4 :=
      length_encode_le_add halgorithm (by decide)
    have hoctets : (octetString key).length ≤ 165 + 4 := length_encode_le_add hkey (by decide)
    have hfield : ((stored.map fun k => encode Container.publicKeyMark (0 :: k)).getD []).length
        ≤ 98 + 4 := by
      cases stored with
      | none => exact Nat.zero_le _
      | some k => exact length_encode_le_add (Nat.succ_le_succ (hstored k rfl)) (by decide)
    refine (length_encode_le_add (n := 400) ?_ (by decide)).trans_lt (by decide)
    simp only [List.flatten_cons, List.flatten_nil, List.length_append, List.length_nil, hversion]
    omega
  have halgorithm : a.keyAlgorithm.length ≤ 30 := by cases a <;> decide +kernel
  have hkey : (containerFor a secret publicKey).algorithm.length ≤ 30 := by
    rw [algorithm_containerFor]
    exact halgorithm
  refine hcontent _ hkey ?_ ?_
  · unfold containerFor
    cases a.curve? with
    | none => exact (length_encode_le_add hsecret (by decide)).trans (by decide)
    | some c => exact length_encode_le_add (length_ellipticKey_le hsecret hpublicKey) (by decide)
  · unfold containerFor
    cases a.curve? with
    | none =>
      intro k hk
      cases hk
      exact hpublicKey
    | some c =>
      intro k hk
      cases hk

/-- What the key of an elliptic curve holds. -/
theorem readElliptic?_sequence (curve : Oid) :
    readElliptic? curve (sequence [integer 1, octetString secret,
      encode (Mark.fieldOf 1) (bitString 0 publicKey)]) = some (secret, publicKey) := by
  have hcontent := length_ellipticKey_le hsecret hpublicKey
  have hbits : IsShort (bitString 0 publicKey) :=
    (length_encode_le_add (Nat.succ_le_succ hpublicKey) (by decide)).trans_lt (by decide)
  have hpublic : IsShort (0 :: publicKey) := (Nat.succ_le_succ hpublicKey).trans_lt (by decide)
  have hread : insideStrict? (Mark.fieldOf 1) readBits?
      (encode (Mark.fieldOf 1) (bitString 0 publicKey)) = some (publicKey, []) := by
    have hinside := readBits?_bitString hpublic []
    rw [List.append_nil] at hinside
    rw [← List.append_nil (encode _ _)]
    exact insideStrict?_encode hbits hinside []
  refine wholeStrict?_eq_some ?_
  rw [Der.sequence, ← List.append_nil (encode _ _)]
  refine insideStrict?_encode (hcontent.trans_lt (by decide)) ?_ []
  simp only [List.flatten_cons, List.flatten_nil, List.append_nil]
  rw [readNumber?_integer (by decide)]
  simp only [Option.bind_eq_bind, Option.bind_some]
  rw [octetString, readStrict?_encode (hsecret.trans_lt (by decide))]
  simp only [Option.bind_some]
  -- the curve is not named once more
  have hunnamed : (encode (Mark.fieldOf 1) (bitString 0 publicKey)).head? ≠ some (Mark.fieldOf 0) :=
    fun h => absurd (Option.some.inj h) (by decide)
  rw [if_neg hunnamed, hread]
  simp

/-- **In the container of a new pair** are its secret and its public key. -/
theorem contentsFor?_containerFor :
    contentsFor? a (containerFor a secret publicKey) = some (secret, some publicKey) := by
  have hoctets : wholeStrict? (readStrict? Mark.octetString) (octetString secret) = some secret :=
    wholeStrict?_eq_some (readStrict?_encode_last (hsecret.trans_lt (by decide)))
  unfold contentsFor?
  rw [if_pos algorithm_containerFor]
  cases a with
  | ecdsaP256 =>
    exact congrArg (Option.map _) (readElliptic?_sequence hsecret hpublicKey _)
  | ecdsaP384 =>
    exact congrArg (Option.map _) (readElliptic?_sequence hsecret hpublicKey _)
  | ed25519 =>
    exact congrArg (Option.map _) hoctets

end Sizes

/-- **A key pair that was made is read back** from its encoding. -/
theorem ofDer?_of_ofSecret? {k : KeyPair} (h : ofSecret? a secret = some k) :
    ofDer? k.privateKey.der = some k := by
  obtain ⟨publicKey, hpublic, rfl⟩ := Option.map_eq_some_iff.1 h
  obtain ⟨hsecret, hpublicKey⟩ := Algorithm.sizes_of_publicKeyOf? hpublic
  have hown : ∀ der, ofContainer? a der (containerFor a secret publicKey)
      = some ⟨a, secret, publicKey, ⟨der⟩⟩ := by
    intro der
    unfold ofContainer?
    rw [contentsFor?_containerFor hsecret hpublicKey]
    simp [hpublic]
  have hother : ∀ b der, b ≠ a → ofContainer? b der (containerFor a secret publicKey) = none := by
    intro b der hne
    have halgorithm : (containerFor a secret publicKey).algorithm ≠ b.keyAlgorithm := by
      rw [algorithm_containerFor]
      exact fun heq => hne (Algorithm.keyAlgorithm_inj.1 heq.symm)
    unfold ofContainer? contentsFor?
    rw [if_neg halgorithm]
    rfl
  have hread : ofDer? (containerFor a secret publicKey).encode
      = Algorithm.all.findSome? fun b => ofContainer? b (containerFor a secret publicKey).encode
        (containerFor a secret publicKey) := by
    unfold ofDer?
    rw [Container.decode?_encode (isShort_containerFor hsecret hpublicKey)]
    rfl
  show ofDer? (containerFor a secret publicKey).encode = _
  rw [hread]
  cases a <;> simp [Algorithm.all, hown, hother]

/-- **The text of a key pair that was made** is read as that key pair. -/
theorem decodePem_of_ofSecret? {k : KeyPair} (h : ofSecret? a secret = some k) :
    decodePem k.privateKey.pem = .ok k := by
  unfold decodePem PrivateKey.pem
  rw [Pem.openEnvelope?_encodeBlock (by decide) (by decide)]
  dsimp only
  rw [ofDer?_of_ofSecret? h]

end KeyPair

end CertAuthority
