import CertAuthority.Certificate.Verify
import CertAuthority.Proofs.Certificate.Acceptance
import CertAuthority.Proofs.Certificate.Built
import CertAuthority.Proofs.Der.Prefix

/-!
# Self-signed certificates

Whether a certificate is its own root is decided by the bytes of its encoding
alone. The encoding holds the statement that is signed, the algorithm of the
signature and the signature, one after the other (`Contents.parts?`), and the
public key that is kept as bytes holds the key and what it is for
(`PublicKeyInfo.keyIn?`). Both are read here from the bytes afresh, without
regard to what the certificate is known to say.

The headline `Certificate.verifySelfSigned_exact` says that the check of a
self-signed certificate is the check of that signature over that statement
with that key, and that certificates that are built pass it. What is signed
when a certificate is built is the encoding of a plan, and what is cut out of
the certificate is the same bytes; the algorithms that are written for a key
are those by which the scheme of the key is found (`SignatureScheme.of?_plan`).
-/

namespace CertAuthority

open Der

/-! ## Parts of the encoding

The parts are cut out of the bytes by readers of elements, from the outside
in. It is shown that they are what the certificate says they are: reading the
whole certificate has gone over the same bytes. -/

/-- **The parts of an encoded certificate**: the bytes of the statement, the
algorithm of the signature, and the signature. -/
def Contents.parts? (b : Bytes) : Option (Bytes × AlgorithmId × BitString) := do
  let (outer, _) ← readElement? b
  let (_, afterStatement) ← readElement? outer.content
  let (algorithm, afterAlgorithm) ← AlgorithmId.read? afterStatement
  let (signature, _) ← BitString.read? afterAlgorithm
  return (outer.content.take (outer.content.length - afterStatement.length), algorithm, signature)

/-- **The key in an encoded public key**, with what it is for: all that
follows the header. -/
def PublicKeyInfo.keyIn? (b : Bytes) : Option (AlgorithmId × BitString) := do
  let (_, fields) ← readHeader? b
  let (key, rest) ← readFields? fields
  if rest = [] then some key else none

/-- **All of a statement is read**, and within it the names, a window and a public
key. -/
structure Statement.IsRead (s : Statement) : Prop where
  /-- The issuer was read. -/
  issuer : ∃ b rest, Name.read? b = some (s.issuer, rest)
  /-- So was the window of validity. -/
  validity : ∃ b rest, Validity.read? b = some (s.validity, rest)
  /-- So was the subject. -/
  subject : ∃ b rest, Name.read? b = some (s.subject, rest)
  /-- And the key of the subject. -/
  publicKey : ∃ b rest, PublicKeyInfo.read? b = some (s.publicKey, rest)

/-- A statement that could be read was read in all its parts, with no byte left.
-/
theorem Statement.readFields?_eq_some {b left : Bytes} {s : Statement}
    (h : readFields? b = some (s, left)) : left = [] ∧ s.IsRead := by
  unfold readFields? at h
  obtain ⟨⟨_, b₁⟩, -, h⟩ := Option.bind_eq_some_iff.1 h
  obtain ⟨⟨serialNumber, b₂⟩, -, h⟩ := Option.bind_eq_some_iff.1 h
  obtain ⟨⟨algorithm, b₃⟩, -, h⟩ := Option.bind_eq_some_iff.1 h
  obtain ⟨⟨issuer, b₄⟩, hissuer, h⟩ := Option.bind_eq_some_iff.1 h
  obtain ⟨⟨validity, b₅⟩, hvalidity, h⟩ := Option.bind_eq_some_iff.1 h
  obtain ⟨⟨subject, b₆⟩, hsubject, h⟩ := Option.bind_eq_some_iff.1 h
  obtain ⟨⟨publicKey, b₇⟩, hkey, h⟩ := Option.bind_eq_some_iff.1 h
  obtain ⟨b₈, -, h⟩ := Option.bind_eq_some_iff.1 h
  obtain ⟨b₉, -, h⟩ := Option.bind_eq_some_iff.1 h
  obtain ⟨extensions, -, h⟩ := Option.bind_eq_some_iff.1 h
  obtain ⟨rfl, rfl⟩ := Prod.mk.inj (Option.some.inj h)
  exact ⟨rfl, ⟨b₃, b₄, hissuer⟩, ⟨b₄, b₅, hvalidity⟩, ⟨b₅, b₆, hsubject⟩, b₆, b₇, hkey⟩

/-- The fields of a public key are read by themselves, whatever is behind them.
-/
theorem PublicKeyInfo.isLocal_readFields? : IsLocal readFields? :=
  (isLocal_readInside? _ _).bind fun algorithm =>
    isLocal_readBitString?.check fun key => some (algorithm, key)

/-- **The key that was read is in the bytes that were kept.** -/
theorem PublicKeyInfo.keyIn?_bytes {b rest : Bytes} {info : PublicKeyInfo}
    (h : read? b = some (info, rest)) : keyIn? info.bytes = some (info.algorithm, info.key) := by
  unfold read? at h
  obtain ⟨⟨⟨⟨algorithm, key⟩, bytes⟩, rest'⟩, hkept, h⟩ := Option.bind_eq_some_iff.1 h
  obtain ⟨rfl, rfl⟩ := Prod.mk.inj (Option.some.inj h)
  obtain ⟨header, identifier, content, left, hheader, -, hread, rfl⟩ :=
    exists_header_of_readKept? hkept
  obtain ⟨fields, rfl, hfields⟩ := isLocal_readFields? hread
  have hwhole : readFields? fields = some ((algorithm, key), []) := by
    have hfields := hfields []
    rwa [List.append_nil] at hfields
  unfold keyIn?
  dsimp only
  rw [List.length_append, Nat.add_sub_cancel, List.take_left, hheader, Option.bind_eq_bind,
    Option.bind_some, hwhole]
  rfl

/-- **What a certificate says is signed is its first part**, and what it says
of the signature is in the other two. -/
theorem Contents.parts?_of_read? {b rest : Bytes} {contents : Contents}
    (h : read? b = some (contents, rest)) :
    parts? b = some (contents.signedBytes, contents.signatureAlgorithm, contents.signature) := by
  obtain ⟨outer, left, houter, -, h⟩ := readInside?_eq_some_iff.1 h
  obtain ⟨⟨⟨statement, signedBytes⟩, afterStatement⟩, hstatement, h⟩ := Option.bind_eq_some_iff.1 h
  obtain ⟨⟨algorithm, afterAlgorithm⟩, halgorithm, h⟩ := Option.bind_eq_some_iff.1 h
  obtain ⟨⟨signature, left'⟩, hsignature, h⟩ := Option.bind_eq_some_iff.1 h
  obtain ⟨rfl, rfl⟩ := Prod.mk.inj (Option.some.inj h)
  obtain ⟨e, helement, -, hcontent⟩ := readElement?_of_readKept? hstatement fun content left hread =>
    (Statement.readFields?_eq_some hread).1
  unfold parts?
  rw [houter]
  show (readElement? outer.content).bind _ = _
  rw [helement]
  show (AlgorithmId.read? afterStatement).bind _ = _
  rw [halgorithm]
  show (BitString.read? afterAlgorithm).bind _ = _
  rw [hsignature, hcontent]
  show some (List.take _ _, _, _) = _
  rw [List.length_append, Nat.add_sub_cancel, List.take_left]

namespace Certificate

variable (c : Certificate)

/-- **The parts of a certificate's own encoding** are what it says was signed,
the algorithm and the signature. -/
theorem parts?_der : Contents.parts? c.der
    = some (c.facts.contents.signedBytes, c.facts.contents.signatureAlgorithm,
      c.facts.contents.signature) := Contents.parts?_of_read? c.read_der.1

/-- The statement of a certificate was read. -/
theorem isRead_statement : c.facts.contents.statement.IsRead := by
  obtain ⟨outer, left, -, -, h⟩ := readInside?_eq_some_iff.1 c.read_der.1
  obtain ⟨⟨⟨statement, signedBytes⟩, afterStatement⟩, hstatement, h⟩ := Option.bind_eq_some_iff.1 h
  obtain ⟨⟨algorithm, afterAlgorithm⟩, -, h⟩ := Option.bind_eq_some_iff.1 h
  obtain ⟨⟨signature, left'⟩, -, h⟩ := Option.bind_eq_some_iff.1 h
  obtain ⟨header, identifier, content, left, -, -, hread, -⟩ := exists_header_of_readKept? hstatement
  have hsame : statement = c.facts.contents.statement :=
    congrArg Contents.statement (Prod.mk.inj (Option.some.inj h)).1
  exact hsame ▸ (Statement.readFields?_eq_some hread).2

/-- **The key in the public key that it has** is the one it says it has. -/
theorem keyIn?_publicKey : PublicKeyInfo.keyIn? c.publicKey
    = some (c.facts.contents.statement.publicKey.algorithm,
      c.facts.contents.statement.publicKey.key) := by
  obtain ⟨b, rest, hkey⟩ := c.isRead_statement.publicKey
  exact PublicKeyInfo.keyIn?_bytes hkey

/-! ## The check -/

/-- The certificate is not found to be unreadable: what is checked is what
the certificate says. -/
theorem verifySelfSigned_eq :
    c.verifySelfSigned =
      if c.isSelfIssued then
        match c.facts.contents.checkSignature c.facts.contents.statement.publicKey with
        | .ok () => .ok ()
        | .error fault => .error (.encoding (.signature c.subject fault))
      else .error (.encoding (.notSelfIssued c.subject c.issuer)) := by
  unfold verifySelfSigned
  rewrite [c.read_der.1]
  rfl

end Certificate

/-- A signature is found to be right if there is a scheme for its algorithm and
the key's, and that accepts it. -/
theorem Contents.checkSignature_eq_ok_iff {contents : Contents} {key : PublicKeyInfo} :
    contents.checkSignature key = .ok ()
      ↔ ∃ scheme, SignatureScheme.of? contents.signatureAlgorithm key.algorithm = some scheme
        ∧ scheme.verify key.key.bytes contents.signedBytes contents.signature.bytes = true := by
  unfold checkSignature
  cases SignatureScheme.of? contents.signatureAlgorithm key.algorithm with
  | none => simp
  | some scheme => simp

/-- The check passes if the names agree and the signature is found to be right.
-/
theorem Certificate.verifySelfSigned_eq_ok_iff (c : Certificate) :
    c.verifySelfSigned = .ok () ↔ c.isSelfIssued = true
      ∧ c.facts.contents.checkSignature c.facts.contents.statement.publicKey = .ok () := by
  rw [verifySelfSigned_eq]
  split_ifs with hissued
  · split
    · rename_i hcheck
      exact iff_of_true rfl ⟨hissued, hcheck⟩
    · rename_i fault hcheck
      rw [hcheck]
      simp
  · exact iff_of_false (by simp) fun h => hissued h.1

/-- **There are two ways to fail**: another subject, or another signature. -/
theorem Certificate.verifySelfSigned_eq_error {c : Certificate} {e : Error}
    (h : c.verifySelfSigned = .error e) :
    e = .encoding (.notSelfIssued c.subject c.issuer)
      ∨ ∃ fault, e = .encoding (.signature c.subject fault) := by
  rw [verifySelfSigned_eq] at h
  split_ifs at h with hissued
  · split at h
    · cases h
    · rename_i fault hcheck
      exact Or.inr ⟨fault, (Except.error.inj h).symm⟩
  · exact Or.inl (Except.error.inj h).symm

/-! ## Certificates that were built

Whether signatures of a key are accepted is a matter of the primitives, which
no proof here goes into. It enters as an assumption about one key and one
message, the one that is signed. -/

/-- **The scheme of the signatures** that the keys of an algorithm make. A
certificate does not name it in one place: it comes of the algorithm of the
signature and that of the key. -/
def Key.Algorithm.scheme : Key.Algorithm → SignatureScheme
  | .ecdsaP256 => .ecdsa .p256 .sha256
  | .ecdsaP384 => .ecdsa .p384 .sha384
  | .ed25519 => .ed25519

/-- **The algorithms that are written lead to the scheme of the key.** -/
theorem SignatureScheme.of?_plan (a : Key.Algorithm) :
    of? ⟨a.signatureOid, none⟩ (Plan.keyAlgorithmId a) = some a.scheme := by
  cases a <;> decide +kernel

/-- **A key whose signature of a message is accepted**, if it makes one. -/
def KeyPair.IsAccepted (k : KeyPair) (message : Bytes) : Prop :=
  ∀ signature, k.sign? message = some signature →
    k.algorithm.scheme.verify k.publicKey message signature = true

/-- A certificate that was built is signed by its subject, if the signature of
the key is accepted. -/
theorem Order.Built.verifySelfSigned {o : Order} {h : Host} {k : KeyPair} {c : Certificate}
    (hbuilt : o.Built h k c)
    (haccepted : ∀ statement algorithm signature,
      Contents.parts? c.der = some (statement, algorithm, signature) → k.IsAccepted statement) :
    c.verifySelfSigned = .ok () := by
  obtain ⟨signature, hsign, hfacts⟩ := hbuilt.signed
  have haccepted := haccepted _ _ _ c.parts?_der
  have hissued : c.isSelfIssued = true := by
    unfold Certificate.isSelfIssued Certificate.subject Certificate.issuer Certificate.subjectName
      Certificate.issuerName
    rw [hfacts]
    exact beq_self_eq_true _
  rw [Certificate.verifySelfSigned_eq_ok_iff, Contents.checkSignature_eq_ok_iff]
  rw [hfacts] at haccepted ⊢
  exact ⟨hissued, k.algorithm.scheme, SignatureScheme.of?_plan k.algorithm, haccepted signature hsign⟩

/-- **The check of a self-signed certificate is exact.** It passes if the
subject is the issuer and the signature in the encoding is one of the statement
in the encoding, with the key in the encoding of the key and by the algorithm
beside the signature; otherwise it fails with an error about the encoding,
which never is that there is none. A certificate that was built passes the
check, provided that signatures of the key are accepted at all. -/
theorem Certificate.verifySelfSigned_exact :
    (∀ c : Certificate, ∃ statement algorithm signature keyAlgorithm key,
      Contents.parts? c.der = some (statement, algorithm, signature)
        ∧ c.signature = signature.bytes
        ∧ PublicKeyInfo.keyIn? c.publicKey = some (keyAlgorithm, key)
        ∧ (c.verifySelfSigned = .ok () ↔ c.isSelfIssued = true
          ∧ ∃ scheme, SignatureScheme.of? algorithm keyAlgorithm = some scheme
            ∧ scheme.verify key.bytes statement c.signature = true)
        ∧ ∀ e, c.verifySelfSigned = .error e →
          ∃ fault, e = .encoding fault ∧ fault ≠ .notACertificate) ∧
      ∀ (d : Draft) (h : Host) (c : Certificate),
        (∀ date, d.beginDate = some date ∨ d.endDate = some date → date.Valid) →
        (d.build.runOn h).1 = .ok c →
        (∀ s k statement algorithm signature, d.key = some s → (s.obtain.runOn h).1 = .ok k →
          Contents.parts? c.der = some (statement, algorithm, signature) →
          k.IsAccepted statement) →
        c.verifySelfSigned = .ok () := by
  refine ⟨fun c => ?_, fun d h c hdates hbuild haccepted => ?_⟩
  · refine ⟨_, _, _, _, _, c.parts?_der, rfl, c.keyIn?_publicKey, ?_, fun e he => ?_⟩
    · rw [c.verifySelfSigned_eq_ok_iff, Contents.checkSignature_eq_ok_iff]
      rfl
    · rcases verifySelfSigned_eq_error he with rfl | ⟨fault, rfl⟩
      · exact ⟨_, rfl, by simp⟩
      · exact ⟨_, rfl, by simp⟩
  · obtain ⟨o, k, rfl, hbuilt⟩ := Draft.built_of_build hdates hbuild
    exact hbuilt.verifySelfSigned fun statement algorithm signature hparts =>
      haccepted o.supply k statement algorithm signature rfl hbuilt.obtained hparts

/-! ### A key of zeros

The assumption is met by a key whose secret is all zeros, for the statement of
a year's order. To see this one signature is made and checked. -/

/-- The key that is made on a host whose random bytes are none. -/
def zeroKey : KeyPair :=
  let seed := Bytes.ofNatPadded 32 0
  let publicKey := Crypto.Ed25519.publicKey seed
  ⟨.ed25519, seed, publicKey, ⟨(KeyPair.containerFor .ed25519 seed publicKey).encode⟩⟩

/-- The statement that it signs for a year's order. -/
def zeroStatement : Bytes :=
  ((Draft.yearOrder (.generator .ed25519)).plan (Order.serialOfEntropy [])).statement .ed25519
    zeroKey.publicKey

theorem ofEntropy?_zeroKey : KeyPair.ofEntropy? .ed25519 [] = some zeroKey := by
  have hsecret : KeyPair.secretOfEntropy .ed25519 [] = Bytes.ofNatPadded 32 0 := rfl
  have hsize : (Bytes.ofNatPadded 32 0).length = Key.Algorithm.ed25519.secretSize :=
    Bytes.length_ofNatPadded _ _
  unfold KeyPair.ofEntropy? KeyPair.ofSecret? Key.Algorithm.publicKeyOf?
  rw [hsecret, if_pos hsize]
  rfl

theorem obtain_zeroKey :
    ((Key.Supply.generator .ed25519).obtain.runOn Draft.bareHost).1 = .ok zeroKey := by
  have hgenerate : ((KeyPair.generate .ed25519).runOn Draft.bareHost).1 = .ok zeroKey := by
    unfold KeyPair.generate
    rw [Action.runOn_bind_of_ok (show (Action.runOn (Program.request (.random KeyPair.entropySize))
      Draft.bareHost).1 = .ok [] from rfl), ofEntropy?_zeroKey]
    rfl
  unfold Key.Supply.obtain
  rw [Action.runOn_bind_of_ok hgenerate]
  rfl

/-- The signature that this key makes of that statement is accepted. The
computation goes through the curve, so it is left to the kernel. -/
theorem isAccepted_zeroKey : zeroKey.IsAccepted zeroStatement := by
  have hverify : Crypto.Ed25519.verify zeroKey.publicKey zeroStatement
      (Crypto.Ed25519.sign zeroKey.secret zeroStatement) = true := by decide +kernel
  have halgorithm : zeroKey.algorithm = .ed25519 := rfl
  intro signature hsign
  rw [KeyPair.sign?_ed25519 halgorithm] at hsign
  rw [← Option.some.inj hsign, halgorithm]
  exact hverify

theorem drawn_bareHost : (Draft.yearOrder (.generator .ed25519)).drawn Draft.bareHost = [] := by
  rfl

/-- **The certificate of a year's order is signed by its subject.** -/
theorem Certificate.verifySelfSigned_zeroKey :
    ∃ c, ((Draft.yearOrder (.generator .ed25519)).toDraft.build.runOn Draft.bareHost).1 = .ok c
      ∧ c.verifySelfSigned = .ok () := by
  obtain ⟨c, hc⟩ := Draft.exists_build_yearOrder
  have hdates := fun date hdate => (Draft.dates_yearOrder (.generator .ed25519) date hdate).1
  refine ⟨c, hc, verifySelfSigned_exact.2 _ _ c hdates hc ?_⟩
  intro s k statement algorithm signature hs hk hparts
  obtain rfl := Option.some.inj hs
  obtain rfl : zeroKey = k := Except.ok.inj (obtain_zeroKey.symm.trans hk)
  -- what is signed is the statement of the plan, with a serial number made of no bytes
  obtain ⟨o, k', ho, hbuilt⟩ := Draft.built_of_build hdates hc
  obtain rfl := Draft.toDraft_inj.1 ho
  obtain rfl : zeroKey = k' := Except.ok.inj (obtain_zeroKey.symm.trans hbuilt.obtained)
  obtain ⟨made, hfacts⟩ := hbuilt.facts
  rw [c.parts?_der, hfacts, drawn_bareHost] at hparts
  rw [← (Prod.mk.inj (Option.some.inj hparts)).1]
  exact isAccepted_zeroKey

end CertAuthority
