import CertAuthority.Proofs.Certificate.Extensions

/-!
# Certificates can be read back

A plan, a public key and a signature determine what a certificate says
(`Plan.facts`), and whatever they are, the encoding of the certificate is
accepted and says just that (`Plan.ofDer_signed`), as long as its days are
days of the calendar with a year of four digits.

The authority does not hand out a certificate that it has only written. It
reads what it has written, and what it keeps is what was read, so that a
certificate is of one kind wherever it comes from. The statement here is that
this makes no difference. It is assembled from the fields in the order in
which they stand in the encoding; for each of them it is known already that it
is read back, in front of whatever follows it.

Sizes are a matter of the whole. An element whose length cannot be written is
not read back, and a bound on the outermost element is one on everything
inside. There is no such bound in a plan, since subject and names may be as
long as one likes, and it is a hypothesis here (`hsized`).
-/

namespace CertAuthority.Plan

open Der

/-- **A plan that can be written down**: its days are days of the calendar,
with years of four digits. -/
structure IsWritable (p : Plan) : Prop where
  /-- The first day is one. -/
  begin_valid : p.beginDate.Valid
  /-- Its year has four digits. -/
  begin_year : 0 ≤ p.beginDate.year ∧ p.beginDate.year ≤ 9999
  /-- The last day is one. -/
  end_valid : p.endDate.Valid
  /-- Its year has four digits. -/
  end_year : 0 ≤ p.endDate.year ∧ p.endDate.year ≤ 9999

variable (p : Plan) (algorithm : Key.Algorithm) (publicKey signature : Bytes)

/-- What the signed part of the certificate says. -/
def statementValue : Statement where
  serialNumber := p.serialNumber
  signatureAlgorithm := ⟨algorithm.signatureOid, none⟩
  issuer := p.nameValue
  validity := p.window
  subject := p.nameValue
  publicKey := ⟨publicKeyInfo algorithm publicKey, keyAlgorithmId algorithm, ⟨0, publicKey⟩⟩
  extensions := p.extensionList (publicKeyInfo algorithm publicKey)

/-- **What the certificate says.** -/
def facts : Facts where
  contents := {
    statement := p.statementValue algorithm publicKey
    signedBytes := p.statement algorithm publicKey
    signatureAlgorithm := ⟨algorithm.signatureOid, none⟩
    signature := ⟨0, signature⟩ }
  isCa := p.isCa
  san := p.san

variable {p algorithm publicKey signature}

/-- There are no unique identifiers. -/
theorem skipUniqueId?_extensions {number : Nat} (hnumber : number ≠ 3) {content : Bytes}
    (hsized : IsSized (encode (Mark.fieldOf 3) content)) :
    Statement.skipUniqueId? number (encode (Mark.fieldOf 3) content)
      = some (encode (Mark.fieldOf 3) content) := by
  have helement : readElement? (encode (Mark.fieldOf 3) content ++ [])
      = some (⟨identifierOf (Mark.fieldOf 3), content⟩, []) := reads_element (by decide) hsized []
  rw [List.append_nil] at helement
  unfold Statement.skipUniqueId?
  rw [helement]
  exact if_neg fun h => hnumber h.2.symm

/-- The algorithm of a signature is read back without parameters. -/
theorem reads_signatureAlgorithm (a : Key.Algorithm) :
    Reads AlgorithmId.read? (signatureAlgorithm a) ⟨a.signatureOid, none⟩ :=
  reads_algorithm a.signatureOid

/-- **The signed part can be read back**, field by field. -/
theorem readFields?_elements (hp : p.IsWritable)
    (hsized : IsSized (p.elements algorithm publicKey).flatten) :
    Statement.readFields? (p.elements algorithm publicKey).flatten
      = some (p.statementValue algorithm publicKey, []) := by
  unfold elements at hsized ⊢
  dsimp only at hsized ⊢
  simp only [List.flatten_cons, List.flatten_nil] at hsized ⊢
  have hserial := hsized.right
  have halgorithm := hserial.right
  have hissuer := halgorithm.right
  have hvalidity := hissuer.right
  have hsubject := hvalidity.right
  have hkey := hsubject.right
  have hextensions := hkey.right.left
  unfold Statement.readFields?
  rw [reads_version.bind hsized.left]
  dsimp only
  rw [(reads_serial p.serialNumber).bind hserial.left]
  dsimp only
  rw [(reads_signatureAlgorithm algorithm).bind halgorithm.left]
  dsimp only
  rw [(reads_name p).bind hissuer.left]
  dsimp only
  rw [(reads_validity hp.begin_valid hp.end_valid hp.begin_year hp.end_year).bind hvalidity.left]
  dsimp only
  rw [(reads_name p).bind hsubject.left]
  dsimp only
  rw [(reads_publicKeyInfo algorithm publicKey).bind hkey.left]
  dsimp only
  rw [List.append_nil, skipUniqueId?_extensions (by decide) hextensions, Option.bind_eq_bind,
    Option.bind_some, skipUniqueId?_extensions (by decide) hextensions, Option.bind_some,
    readList?_extensions hextensions]
  rfl

/-- What a certificate is made of: its statement, the algorithm of the
signature and the signature. -/
def signedParts (statement : Bytes) (algorithm : Key.Algorithm) (signature : Bytes) : List Bytes :=
  [statement, signatureAlgorithm algorithm, bitString 0 signature]

/-- What is inside of a certificate of a size that can be written has such a
size. -/
theorem isSized_extensions
    (hsized : IsSized (signedParts (p.statement algorithm publicKey) algorithm signature).flatten) :
    IsSized (Der.sequence (p.extensions (publicKeyInfo algorithm publicKey))) := by
  unfold signedParts at hsized
  rw [List.flatten_cons] at hsized
  have helements := hsized.left.content
  unfold elements at helements
  simp only [List.flatten_cons, List.flatten_nil] at helements
  exact helements.right.right.right.right.right.right.right.left.content

/-- **Whatever a plan says, its certificate says.** -/
theorem ofDer_signed (hp : p.IsWritable)
    (hsized : IsSized (signedParts (p.statement algorithm publicKey) algorithm signature).flatten) :
    Facts.ofDer (signed (p.statement algorithm publicKey) algorithm signature)
      = .ok (p.facts algorithm publicKey signature) := by
  have hextensions := isSized_extensions hsized
  have hread : Contents.read? (signed (p.statement algorithm publicKey) algorithm signature)
      = some ((p.facts algorithm publicKey signature).contents, []) := by
    rw [← List.append_nil (signed _ _ _)]
    have hmark : Mark.sequence.toNat % 32 ≠ 31 := by decide
    refine readInside?_encode hmark hsized (show _ = some (_, []) from ?_) []
    unfold signedParts at hsized ⊢
    simp only [List.flatten_cons, List.flatten_nil] at hsized ⊢
    have hkept : Reads (readKept? Statement.readFields?) (p.statement algorithm publicKey)
        (p.statementValue algorithm publicKey, p.statement algorithm publicKey) :=
      reads_kept fun h => readFields?_elements hp h
    rw [hkept.bind hsized.left]
    dsimp only
    rw [(reads_signatureAlgorithm algorithm).bind hsized.right.left, List.append_nil]
    dsimp only
    rw [(reads_bitString signature).bind_last hsized.right.right.left]
    rfl
  unfold Facts.ofDer
  rw [hread]
  dsimp only
  rw [if_neg (fun h => h rfl)]
  show (Facts.readIsCa (p.extensionList (publicKeyInfo algorithm publicKey))).bind _ = _
  rw [readIsCa_extensionList]
  show (Facts.readSan (p.extensionList (publicKeyInfo algorithm publicKey))).bind _ = _
  rw [readSan_extensionList hextensions]
  rfl

end CertAuthority.Plan
