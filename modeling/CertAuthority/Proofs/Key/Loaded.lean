import CertAuthority.Proofs.Key.Reload

/-!
# Keys that were loaded

A text that a key pair is loaded from may be laid out in many ways: any label,
header lines, blanks among the digits. None of it is kept. What is kept is the
container in it, byte by byte, and all that the pair is follows from that
(`KeyPair.IsStoredIn`): its algorithm is the one that the container names, its
secret is the one in it, and its public key is the one of that secret.

So the text that a pair is written as, always under the same label and in
lines of the same width, is read as the same pair, whatever it was loaded from
(`KeyPair.decodePem_keeps`). A container may name an algorithm that is none of
the three; no pair is stored in such a one, and no algorithm is tried for
another (`KeyPair.contentsFor?_eq_none`).
-/

namespace CertAuthority.KeyPair

open Key

variable {a : Algorithm} {c : Container} {der : Bytes} {k : KeyPair}

/-! ## What a pair is stored in -/

/-- **A key pair that is stored in these bytes.** The bytes belong to the pair,
and are what is written of it later, so that a pair is read back from whatever
container it came in. -/
structure IsStoredIn (k : KeyPair) (der : Bytes) : Prop where
  /-- The bytes are a container that names the algorithm and holds the secret.
  If it holds a public key too, that is the pair's. -/
  held : ∃ c stored, Container.decode? der = some c ∧ c.algorithm = k.algorithm.keyAlgorithm
    ∧ contentsFor? k.algorithm c = some (k.secret, stored)
    ∧ (stored = none ∨ stored = some k.publicKey)
  /-- The public key is the secret's. -/
  matched : k.algorithm.publicKeyOf? k.secret = some k.publicKey
  /-- The bytes are kept as they are. -/
  kept : k.privateKey.der = der

/-- **A container for one algorithm holds nothing for another.** -/
theorem contentsFor?_eq_none (h : c.algorithm ≠ a.keyAlgorithm) : contentsFor? a c = none := by
  unfold contentsFor?
  rw [if_neg h]

theorem algorithm_eq_of_contentsFor? {contents : Bytes × Option Bytes}
    (h : contentsFor? a c = some contents) : c.algorithm = a.keyAlgorithm := by
  by_contra hne
  rw [contentsFor?_eq_none hne] at h
  cases h

/-- **A pair is had from a container** if that holds its secret, and its public
key or none. -/
theorem ofContainer?_eq_some_iff :
    ofContainer? a der c = some k ↔ k.algorithm = a ∧ k.privateKey.der = der
      ∧ a.publicKeyOf? k.secret = some k.publicKey
      ∧ ∃ stored, contentsFor? a c = some (k.secret, stored)
        ∧ (stored = none ∨ stored = some k.publicKey) := by
  unfold ofContainer?
  simp only [Option.bind_eq_bind, Option.bind_eq_some_iff, Option.ite_none_right_eq_some,
    Option.some.injEq, Prod.exists]
  constructor
  · rintro ⟨secret, stored, hcontents, publicKey, hpublic, hstored, rfl⟩
    exact ⟨rfl, rfl, hpublic, stored, hcontents, hstored⟩
  · rintro ⟨rfl, rfl, hpublic, stored, hcontents, hstored⟩
    exact ⟨k.secret, stored, hcontents, k.publicKey, hpublic, hstored, rfl⟩

/-- **The key pair that is read from an encoding** is the one that is stored in
it. -/
theorem ofDer?_eq_some_iff : ofDer? der = some k ↔ k.IsStoredIn der := by
  unfold ofDer?
  simp only [Option.bind_eq_bind, Option.bind_eq_some_iff]
  constructor
  · rintro ⟨c, hc, hfound⟩
    obtain ⟨a, -, ha⟩ := List.exists_of_findSome?_eq_some hfound
    obtain ⟨rfl, hkept, hpublic, stored, hcontents, hstored⟩ := ofContainer?_eq_some_iff.1 ha
    exact ⟨⟨c, stored, hc, algorithm_eq_of_contentsFor? hcontents, hcontents, hstored⟩, hpublic,
      hkept⟩
  · rintro ⟨⟨c, stored, hc, halgorithm, hcontents, hstored⟩, hpublic, hkept⟩
    have hown : ofContainer? k.algorithm der c = some k :=
      ofContainer?_eq_some_iff.2 ⟨rfl, hkept, hpublic, stored, hcontents, hstored⟩
    -- the algorithms that are tried before find nothing
    have hother : ∀ a, a ≠ k.algorithm → ofContainer? a der c = none := by
      intro a hne
      have hnone : contentsFor? a c = none := contentsFor?_eq_none fun heq =>
        hne (Algorithm.keyAlgorithm_inj.1 (heq.symm.trans halgorithm))
      unfold ofContainer?
      rw [hnone]
      rfl
    refine ⟨c, hc, ?_⟩
    cases halg : k.algorithm <;> simp_all [Algorithm.all]

/-! ## The texts of a pair

What is read of a text is its envelope, and what is written is one of the same
bytes under the label of private keys. So the text changes at most once, on
the first reading, whatever it was. -/

/-- **A key pair is read from a text** if it is stored in what the envelope in
the text holds. -/
theorem decodePem_eq_ok_iff {text : String} :
    decodePem text = .ok k ↔
      ∃ der, Pem.openEnvelope? text.toList = some der ∧ k.IsStoredIn der := by
  unfold decodePem
  cases Pem.openEnvelope? text.toList with
  | none => simp
  | some der =>
    cases hread : ofDer? der with
    | none => simp [← ofDer?_eq_some_iff, hread]
    | some k' => simp [← ofDer?_eq_some_iff, hread]

/-- **Key pairs survive their texts.** A text is accepted if a key pair is
stored in the envelope in it, and then that pair is read, of the algorithm that
its container names. The text that the pair is written as is read as the very
same pair: algorithm, public key and the bytes it is stored in, and so it is
written as the same text again. Every other text is refused for its encoding,
with the wording for keys of a foreign algorithm if it holds one. -/
theorem decodePem_keeps (text : String) :
    (∀ k, decodePem text = .ok k ↔
        ∃ der, Pem.openEnvelope? text.toList = some der ∧ k.IsStoredIn der)
      ∧ (∀ k, decodePem text = .ok k →
        ∃ k', decodePem k.privateKey.pem = .ok k' ∧ k'.algorithm = k.algorithm
          ∧ k'.publicKey = k.publicKey ∧ k'.privateKey.der = k.privateKey.der
          ∧ k'.privateKey.pem = k.privateKey.pem)
      ∧ (∀ e, decodePem text = .error e →
        e = .encoding .notAKey ∨ e = .encoding .unsupportedKey)
      ∧ ∀ der c, Pem.openEnvelope? text.toList = some der → Container.decode? der = some c →
        (∀ a : Algorithm, c.algorithm ≠ a.keyAlgorithm) →
        decodePem text
          = .error (.encoding (if isForeignKey der then .unsupportedKey else .notAKey)) := by
  refine ⟨fun k => decodePem_eq_ok_iff, fun k hk => ?_, fun e he => ?_, fun der c hder hc hne => ?_⟩
  · obtain ⟨der, -, hstored⟩ := decodePem_eq_ok_iff.1 hk
    refine ⟨k, decodePem_eq_ok_iff.2 ⟨der, ?_, hstored⟩, rfl, rfl, rfl, rfl⟩
    unfold PrivateKey.pem
    rw [Pem.openEnvelope?_encodeBlock (by decide) (by decide), hstored.kept]
  · unfold decodePem at he
    split at he
    · exact .inl (Except.error.inj he).symm
    · split at he
      · cases he
      · rw [← Except.error.inj he]
        split_ifs
        · exact .inr rfl
        · exact .inl rfl
  · have hnone : ofDer? der = none := by
      refine Option.eq_none_iff_forall_ne_some.2 fun k hk => ?_
      obtain ⟨c', -, hc', halgorithm, -⟩ := (ofDer?_eq_some_iff.1 hk).held
      obtain rfl : c = c' := Option.some.inj (hc.symm.trans hc')
      exact hne k.algorithm halgorithm
    unfold decodePem
    rw [hder]
    dsimp only
    rw [hnone]

/-- **A pair under another label**, and a container that names the algorithm of
RSA keys: the first is read and written under its own label, the second is
refused. -/
theorem decodePem_otherLabel :
    (∃ k, ofEntropy? .ed25519 [] = some k
      ∧ decodePem (Pem.encodeBlock "SECRET KEY" k.privateKey.der) = .ok k
      ∧ ∃ k', decodePem k.privateKey.pem = .ok k' ∧ k'.algorithm = .ed25519
        ∧ k'.publicKey = k.publicKey ∧ k'.privateKey.der = k.privateKey.der
        ∧ k'.privateKey.pem = k.privateKey.pem)
      ∧ decodePem (Pem.encodeBlock "RSA KEY" (Container.encode ⟨rsaAlgorithm, [], none⟩))
        = .error (.encoding .notAKey) := by
  constructor
  · obtain ⟨k, hk, halgorithm, -⟩ := ofEntropy?_ed25519 []
    have hstored : k.IsStoredIn k.privateKey.der := ofDer?_eq_some_iff.1 (ofDer?_of_ofSecret? hk)
    have hopen : Pem.openEnvelope? (Pem.encodeBlock "SECRET KEY" k.privateKey.der).toList
        = some k.privateKey.der := Pem.openEnvelope?_encodeBlock (by decide) (by decide) _
    have hread := ((decodePem_keeps _).1 k).2 ⟨_, hopen, hstored⟩
    have hagain := (decodePem_keeps _).2.1 k hread
    rw [halgorithm] at hagain
    exact ⟨k, hk, hread, hagain⟩
  · have hdecoded : Container.decode? (Container.encode ⟨rsaAlgorithm, [], none⟩)
        = some ⟨rsaAlgorithm, [], none⟩ :=
      Container.decode?_encode (by decide +kernel)
    have hforeign : ∀ a : Algorithm, rsaAlgorithm ≠ a.keyAlgorithm := by
      intro a
      cases a <;> decide +kernel
    rw [(decodePem_keeps _).2.2.2 _ _
      (Pem.openEnvelope?_encodeBlock (by decide) (by decide) _) hdecoded hforeign]
    have hempty : isForeignKey (Container.encode ⟨rsaAlgorithm, [], none⟩) = false := by
      decide +kernel
    rw [hempty]
    rfl

end CertAuthority.KeyPair
