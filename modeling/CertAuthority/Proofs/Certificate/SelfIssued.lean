import CertAuthority.Proofs.Certificate.Identity
import CertAuthority.Proofs.Certificate.NameText
import CertAuthority.Proofs.Certificate.SelfSigned

/-!
# Whether the subject is the issuer

A certificate is taken to be issued by its own subject if the texts of both
names are the same. A name has one text, so that this is so if the names are
the same (`Certificate.isSelfIssued_of_eq`); but different names may have one
text. In `mergedDer` the subject is a common name and a unit, and the issuer a
common name alone, whose value reads like the two: the certificate passes for
self-issued, and since its signature is good for self-signed
(`Certificate.isSelfIssued_mergedDer`).

What does hold is the headline `Certificate.isSelfIssued_of_names`: if in
neither of the names a value reads as if another attribute began in it, the
texts tell what the names show, and the names themselves if attributes that
show the same are the same.
-/

namespace CertAuthority

open Der

/-! ## Names that were read -/

/-- Items that are read one after the other were each read. -/
theorem Der.exists_of_mem_readMany {α : Type} {read : Bytes → Option (α × Bytes)} {b : Bytes} {a : α}
    (h : a ∈ (readMany read b).1) : ∃ b' rest, read b' = some (a, rest) := by
  induction b using readMany.induct read with
  | case1 b hnone =>
    rw [readMany, hnone] at h
    cases h
  | case2 b a' rest hread hshorter as last hmany ih =>
    rw [readMany, hread] at h
    dsimp only at h
    rw [dif_pos hshorter] at h
    rcases List.mem_cons.1 h with rfl | h
    · exact ⟨b, rest, hread⟩
    · exact ih h
  | case3 b a' rest hread hlonger =>
    rw [readMany, hread] at h
    dsimp only at h
    rw [dif_neg hlonger] at h
    cases h

/-- **There is an attribute in each set of a name that was read.** -/
theorem Name.ne_nil_of_mem_parts {n : Name} {b rest : Bytes} (h : read? b = some (n, rest)) :
    ∀ part ∈ n.parts, part ≠ [] := by
  intro part hpart
  obtain ⟨e, left, -, -, hread⟩ := readInside?_eq_some_iff.1 h
  obtain ⟨rfl, -⟩ := Prod.mk.inj (Option.some.inj hread)
  obtain ⟨b', rest', hset⟩ := exists_of_mem_readMany hpart
  obtain ⟨set, left', -, -, hattributes⟩ := readInside?_eq_some_iff.1 hset
  split at hattributes
  · cases hattributes
  · rename_i attributes rest'' hne hmany
    obtain ⟨rfl, -⟩ := Prod.mk.inj (Option.some.inj hattributes)
    exact hne

namespace Certificate

variable (c : Certificate)

/-- **Same names, same texts.** -/
theorem isSelfIssued_of_eq (h : c.issuerName = c.subjectName) : c.isSelfIssued = true := by
  unfold isSelfIssued subject issuer
  rw [h]
  exact beq_self_eq_true _

/-- **Clear names pass for the same exactly if they show the same.** -/
theorem isSelfIssued_iff_shown? (hissuer : c.issuerName.IsClear) (hsubject : c.subjectName.IsClear) :
    c.isSelfIssued = true ↔ c.issuerName.shown? = c.subjectName.shown? := by
  obtain ⟨b, rest, hread⟩ := c.isRead_statement.issuer
  obtain ⟨b', rest', hread'⟩ := c.isRead_statement.subject
  have htext := Name.text_eq_text_iff hissuer hsubject (Name.ne_nil_of_mem_parts hread)
    (Name.ne_nil_of_mem_parts hread')
  unfold isSelfIssued
  rw [beq_iff_eq, ← htext]
  exact eq_comm

/-- **What the check of the names tells.** The subject passes for the issuer if
it is, and two names that differ pass for the same only if a value in them reads
as if another attribute began in it, if neither can be decoded, or if different
attributes in them show the same. -/
theorem isSelfIssued_of_names :
    (c.issuerName = c.subjectName → c.isSelfIssued = true) ∧
      (c.issuerName.IsClear → c.subjectName.IsClear →
        (c.isSelfIssued = true ↔ c.issuerName.shown? = c.subjectName.shown?) ∧
        (c.issuerName.shown? ≠ none →
          (∀ a ∈ c.issuerName.attributes, ∀ b ∈ c.subjectName.attributes,
            a.shown? = b.shown? → a = b) →
          (c.isSelfIssued = true ↔ c.issuerName = c.subjectName) ∧
          (c.issuerName ≠ c.subjectName →
            c.verifySelfSigned = .error (.encoding (.notSelfIssued c.subject c.issuer))))) := by
  refine ⟨c.isSelfIssued_of_eq, fun hissuer hsubject => ?_⟩
  have hshown := c.isSelfIssued_iff_shown? hissuer hsubject
  refine ⟨hshown, fun hreadable hattributes => ?_⟩
  have hnames : c.isSelfIssued = true ↔ c.issuerName = c.subjectName := by
    refine ⟨fun h => ?_, c.isSelfIssued_of_eq⟩
    obtain ⟨parts, hparts⟩ := Option.ne_none_iff_exists'.1 hreadable
    exact Name.eq_of_shown?_eq hparts ((hshown.1 h).symm.trans hparts) hattributes
  refine ⟨hnames, fun hne => ?_⟩
  rw [verifySelfSigned_eq, if_neg fun h => hne (hnames.1 h)]

end Certificate

/-! ## Two certificates of one key

The two have one key, and names that differ around a separator. In the first
one the difference is noticed, and in the second it is not. -/

/-- A statement of the key of zeros with the given names, an attribute in each
set. -/
def namedStatement (issuer subject : List (Oid × String)) : Bytes :=
  Der.sequence
    [encode (Mark.fieldOf 0) (integer Plan.version), integer 1, Plan.signatureAlgorithm .ed25519,
      Der.sequence (issuer.map fun x => Plan.namePart x.1 x.2),
      Der.sequence [Plan.midnight ⟨2024, 1, 1⟩, Plan.midnight ⟨2024, 12, 31⟩],
      Der.sequence (subject.map fun x => Plan.namePart x.1 x.2),
      Plan.publicKeyInfo .ed25519 zeroKey.publicKey]

/-- Two names that differ in a separator, and no signature. -/
def apartDer : Bytes :=
  Plan.signed (namedStatement [(AttributeType.commonName, "Cluster, first")]
    [(AttributeType.commonName, "Cluster + first")]) .ed25519 []

theorem ofDer_apartDer : ∃ c, Certificate.ofDer apartDer = .ok c
    ∧ c.issuerName = ⟨[[Plan.textAttribute (AttributeType.commonName, "Cluster, first")]]⟩
    ∧ c.subjectName = ⟨[[Plan.textAttribute (AttributeType.commonName, "Cluster + first")]]⟩ := by
  have hread : (match Certificate.ofDer apartDer with
    | .ok c => decide (
        c.issuerName = ⟨[[Plan.textAttribute (AttributeType.commonName, "Cluster, first")]]⟩
          ∧ c.subjectName = ⟨[[Plan.textAttribute (AttributeType.commonName, "Cluster + first")]]⟩)
    | .error _ => false) = true := by decide +kernel
  split at hread
  · rename_i c hc
    exact ⟨c, hc, of_decide_eq_true hread⟩
  · cases hread

/-- **Names that differ behind a separator are told apart** where what comes
after it is no attribute. -/
theorem Certificate.isSelfIssued_apartDer :
    ∃ c, Certificate.ofDer apartDer = .ok c ∧ c.issuerName ≠ c.subjectName
      ∧ c.isSelfIssued = false
      ∧ c.verifySelfSigned = .error (.encoding (.notSelfIssued c.subject c.issuer)) := by
  obtain ⟨c, hc, hissuer, hsubject⟩ := ofDer_apartDer
  have hne : c.issuerName ≠ c.subjectName := by
    rw [hissuer, hsubject]
    decide +kernel
  have hclear : ∀ value : String, '=' ∉ value.toList →
      Name.IsClear ⟨[[Plan.textAttribute (AttributeType.commonName, value)]]⟩ := by
    intro value hvalue a ha value' hvalue'
    obtain rfl := List.mem_singleton.1 ha
    rw [Plan.valueText?_textAttribute] at hvalue'
    obtain rfl := Option.some.inj hvalue'
    exact Name.not_seemsToSplit_of_equals hvalue
  have hnames := (c.isSelfIssued_of_names.2 (hissuer ▸ hclear _ (by decide +kernel))
    (hsubject ▸ hclear _ (by decide +kernel))).2 ?_ ?_
  · exact ⟨c, hc, hne, Bool.eq_false_iff.2 fun h => hne (hnames.1.1 h), hnames.2 hne⟩
  · rw [hissuer]
    decide +kernel
  · rw [hissuer, hsubject]
    intro a ha b hb hshown
    obtain rfl := List.mem_singleton.1 ha
    obtain rfl := List.mem_singleton.1 hb
    exact absurd hshown (by decide +kernel)

/-- One name that reads like two: the issuer is a common name, and the subject a
common name and a unit. -/
def mergedDer : Bytes :=
  let statement := namedStatement [(AttributeType.commonName, "a, OU=b")]
    [(AttributeType.commonName, "a"), (AttributeType.organizationalUnit, "b")]
  Plan.signed statement .ed25519 (Crypto.Ed25519.sign zeroKey.secret statement)

/-- **Different names that pass for the same.** The certificate is accepted, and
it passes the check of a self-signed certificate. -/
theorem Certificate.isSelfIssued_mergedDer :
    ∃ c, Certificate.ofDer mergedDer = .ok c ∧ c.issuerName ≠ c.subjectName
      ∧ c.isSelfIssued = true ∧ c.verifySelfSigned = .ok () := by
  have hcheck : (match Certificate.ofDer mergedDer with
    | .ok c => decide (c.issuerName ≠ c.subjectName) && c.isSelfIssued
        && (match c.verifySelfSigned with
          | .ok () => true
          | .error _ => false)
    | .error _ => false) = true := by decide +kernel
  split at hcheck
  · rename_i c hc
    rw [Bool.and_eq_true, Bool.and_eq_true, decide_eq_true_iff] at hcheck
    obtain ⟨⟨hnames, hissued⟩, hsigned⟩ := hcheck
    refine ⟨c, hc, hnames, hissued, ?_⟩
    split at hsigned
    · assumption
    · cases hsigned
  · cases hcheck

end CertAuthority
