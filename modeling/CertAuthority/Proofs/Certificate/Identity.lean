import CertAuthority.Proofs.Certificate.Built

/-!
# Whom a certificate names

A certificate that is built names its subject in five ways: by the name, by
the common name in it, by the public key, by what that key may be used for,
and by a serial number of its own. `Certificate.Names` says what each of them
is in terms of what was asked for, and `Draft.names_of_build` that they are
that in every certificate that is built.

The values go through an encoding and back, which is the matter of the modules
before this one. What is left are the texts and sets that are made of the
values that come back: the one line of a name (`Plan.text_nameValue`), the
uses of a key from the bits of an extension (`Plan.ofBits_keyUsage`), and the
number in the bytes of a serial number (`Order.toNat_serialOfEntropy`).

The uses are read from the certificate and not from the plan that it was built
by. They are a bit string, counted from the highest bit of the first byte, of
which the encoder leaves out the zeros at the end; so that a use is absent can
mean that its bit is zero or that the string ends before it
(`BitString.isSet`). The serial number is made of eight random bytes, of which
the lowest bit is dropped to keep the number positive, and is one where they
would make it zero. So it has at most sixty-three bits, and nothing more is
claimed of it: that two certificates differ in theirs is a matter of chance.
-/

namespace CertAuthority

open Der

/-! ## Uses of a key

The uses are read here as anyone would read them off the extension, bit by
bit, and not by way of the plan which they were written from. -/

/-- **A use that a key may be put to.** There are nine of them, in the order in
which an extension has a bit for each. -/
inductive KeyUse where
  /-- To sign messages. -/
  | digitalSignature
  /-- To sign what must not be denied later. -/
  | contentCommitment
  /-- To encipher keys. -/
  | keyEncipherment
  /-- To encipher anything else. -/
  | dataEncipherment
  /-- To agree on a key. -/
  | keyAgreement
  /-- To sign certificates. -/
  | keyCertSign
  /-- To sign revocation lists. -/
  | crlSign
  /-- To encipher only, after agreeing on a key. -/
  | encipherOnly
  /-- To decipher only, after agreeing on a key. -/
  | decipherOnly
  deriving DecidableEq, Repr

/-- The uses, in the order of their bits. -/
def KeyUse.all : List KeyUse :=
  [.digitalSignature, .contentCommitment, .keyEncipherment, .dataEncipherment, .keyAgreement,
    .keyCertSign, .crlSign, .encipherOnly, .decipherOnly]

/-- Whether a bit is set. Bits are counted from the highest of the first
byte, and those that are not part of the string are not set. -/
def Der.BitString.isSet (s : BitString) (i : Nat) : Bool :=
  decide (i + s.unused < 8 * s.bytes.length) &&
    match s.bytes[i / 8]? with
    | none => false
    | some b => b.toNat.testBit (7 - i % 8)

/-- The uses whose bits are set. -/
def KeyUse.ofBits (s : BitString) : List KeyUse :=
  (all.zipIdx.filter fun use => s.isSet use.2).map Prod.fst

/-- **The uses of the key**, if the certificate restricts them. -/
def Certificate.keyUses? (c : Certificate) : Option (List KeyUse) :=
  match Extension.unique? Extension.keyUsage c.facts.contents.statement.extensions with
  | .ok (some e) => (BitString.read? e.value).map fun bits => KeyUse.ofBits bits.1
  | _ => none

namespace Plan

/-! ## Names -/

variable (p : Plan)

/-- The text of an attribute is the one that it was made of. -/
theorem valueText?_textAttribute (x : Oid × String) : (textAttribute x).valueText? = some x.2 := by
  show Text.Utf8.decode? (Text.Utf8.encode x.2.toList) = some x.2
  exact Text.Utf8.decode?_encode x.2

/-- With the label of its type in front it is part of the line. -/
theorem text?_textAttribute (x : Oid × String) :
    (textAttribute x).text? = some (AttributeType.label x.1 ++ "=" ++ x.2) := by
  unfold Attribute.text?
  rw [valueText?_textAttribute]
  rfl

/-- The text of a name with one attribute in each set. -/
theorem text_map_textAttribute (xs : List (Oid × String)) :
    (Name.mk (xs.map fun x => [textAttribute x])).text
      = ", ".intercalate (xs.map fun x => AttributeType.label x.1 ++ "=" ++ x.2) := by
  have hparts : (xs.map fun x => [textAttribute x]).mapM
      (fun part => (part.mapM Attribute.text?).map (" + ".intercalate ·))
      = some (xs.map fun x => AttributeType.label x.1 ++ "=" ++ x.2) := by
    induction xs with
    | nil => rfl
    | cons x xs ih =>
      have hpart : ([textAttribute x].mapM Attribute.text?).map (" + ".intercalate ·)
          = some (AttributeType.label x.1 ++ "=" ++ x.2) := by
        rw [List.mapM_cons, text?_textAttribute]
        rfl
      rw [List.map_cons, List.mapM_cons, hpart, ih]
      rfl
  unfold Name.text
  rw [hparts]

/-- **The text of the name** has the values as they were given. -/
theorem text_nameValue :
    p.nameValue.text = "CN=" ++ p.subject ++ ", OU=" ++ p.scmId ++ ", O=" ++ p.clusterId := by
  have hname : AttributeType.label AttributeType.commonName = "CN" := by decide +kernel
  have hunit : AttributeType.label AttributeType.organizationalUnit = "OU" := by decide +kernel
  have horganization : AttributeType.label AttributeType.organization = "O" := by decide +kernel
  have hvalues : p.nameValue = ⟨[(AttributeType.commonName, p.subject),
      (AttributeType.organizationalUnit, p.scmId), (AttributeType.organization, p.clusterId)].map
        fun x => [textAttribute x]⟩ := rfl
  have hcn : "CN" ++ "=" = "CN=" := rfl
  have hou : ", " ++ ("OU" ++ "=") = ", OU=" := rfl
  have ho : ", " ++ ("O" ++ "=") = ", O=" := rfl
  rw [hvalues, text_map_textAttribute, ← hcn, ← hou, ← ho]
  simp only [List.map_cons, List.map_nil, hname, hunit, horganization, String.intercalate_cons_cons,
    String.intercalate_singleton, String.append_assoc]

/-- **The common name of the name** is the subject that was asked for. -/
theorem commonName?_nameValue : p.nameValue.commonName? = some p.subject := by
  have hfind : p.nameValue.attributes.find? (fun a => a.type == AttributeType.commonName)
      = some (textAttribute (AttributeType.commonName, p.subject)) :=
    List.find?_cons_of_pos (beq_self_eq_true _)
  unfold Name.commonName?
  rw [hfind]
  show Text.Utf8.decode? (Text.Utf8.encode p.subject.toList) = some p.subject
  exact Text.Utf8.decode?_encode p.subject

/-! ## The public key -/

/-- **A key's algorithm is told by what stands before the key.** -/
theorem keyAlgorithmId_inj {a b : Key.Algorithm} : keyAlgorithmId a = keyAlgorithmId b ↔ a = b := by
  constructor
  · intro h
    cases a <;> cases b <;> first | rfl | exact absurd h (by decide +kernel)
  · rintro rfl
    rfl

theorem isSuffix_encode (mark : UInt8) (content : Bytes) : content <:+ encode mark content :=
  List.suffix_append _ content

/-- The encoding of a public key ends with the key. -/
theorem isSuffix_publicKeyInfo (algorithm : Key.Algorithm) (publicKey : Bytes) :
    publicKey <:+ publicKeyInfo algorithm publicKey := by
  have hbits : publicKey <:+ bitString 0 publicKey :=
    (List.suffix_cons _ publicKey).trans (isSuffix_encode _ _)
  have hparts : bitString 0 publicKey
      <:+ [encode Mark.sequence algorithm.keyAlgorithm, bitString 0 publicKey].flatten := by
    rw [List.flatten_cons, List.flatten_singleton]
    exact List.suffix_append _ _
  exact (hbits.trans hparts).trans (isSuffix_encode _ _)

/-! ## Uses of the key -/

/-- **The bits of the extension are these uses**, and no others. -/
theorem ofBits_keyUsage (isCa : Bool) :
    (BitString.read? (keyUsage isCa)).map (fun bits => KeyUse.ofBits bits.1)
      = some (if isCa then [.digitalSignature, .keyCertSign, .crlSign]
        else [.digitalSignature, .keyEncipherment]) := by
  revert isCa
  decide +kernel

end Plan

/-! ## Serial numbers -/

/-- **The number of a serial number**: the random bits but for the lowest,
and one if they are all zero. -/
theorem Order.toNat_serialOfEntropy (entropy : Bytes) :
    Bytes.toNat (serialOfEntropy entropy).bytes = max 1 (Bytes.toNat entropy % 2 ^ 64 / 2) := by
  unfold serialOfEntropy SerialNumber.ofNat
  rw [SerialNumber.toNat_ofBytes, Bytes.toNat_ofNat]
  rfl

theorem Order.serialOfEntropy_bounds (entropy : Bytes) :
    1 ≤ Bytes.toNat (serialOfEntropy entropy).bytes
      ∧ Bytes.toNat (serialOfEntropy entropy).bytes ≤ 2 ^ 63 - 1 := by
  rw [toNat_serialOfEntropy]
  omega

theorem SerialNumber.length_pos {s : SerialNumber} (h : 1 ≤ Bytes.toNat s.bytes) :
    1 ≤ s.bytes.length := by
  by_contra hnil
  rw [List.length_eq_zero_iff.1 (Nat.lt_one_iff.1 (Nat.not_le.1 hnil))] at h
  exact absurd h (by decide)

/-! ## What a certificate names -/

/-- **A certificate that names what was ordered**, for a key and the random
bytes that were drawn for the serial number. -/
structure Certificate.Names (c : Certificate) (o : Order) (k : KeyPair) (drawn : Bytes) : Prop where
  /-- The subject has the texts of the order as they were given. -/
  subject : c.subject = "CN=" ++ o.subject ++ ", OU=" ++ o.scmId ++ ", O=" ++ o.clusterId
  /-- So has the issuer. -/
  issuer : c.issuer = "CN=" ++ o.subject ++ ", OU=" ++ o.scmId ++ ", O=" ++ o.clusterId
  /-- The common name is the subject of the order. -/
  commonName : c.commonName? = some o.subject
  /-- The subject is the issuer. -/
  isSelfIssued : c.isSelfIssued = true
  /-- The subject is an authority if it was ordered to be one. -/
  isCa : c.isCa = o.isCa
  /-- The key may be used accordingly. -/
  keyUses : c.keyUses? = some (if o.isCa then [.digitalSignature, .keyCertSign, .crlSign]
    else [.digitalSignature, .keyEncipherment])
  /-- The public key is the encoding of the key's. -/
  publicKey : c.publicKey = Plan.publicKeyInfo k.algorithm k.publicKey
  /-- It ends with the key itself. -/
  publicKey_suffix : k.publicKey <:+ c.publicKey
  /-- It is for the key's algorithm, and for no other. -/
  keyAlgorithm : ∀ a, c.facts.contents.statement.publicKey.algorithm = Plan.keyAlgorithmId a
    ↔ a = k.algorithm
  /-- The serial number is the one that was assigned. -/
  serialNumber : c.serialNumber = Order.serialOfEntropy drawn
  /-- It is made of the random bits. -/
  serialNumber_value : Bytes.toNat c.serialNumber.bytes = max 1 (Bytes.toNat drawn % 2 ^ 64 / 2)
  /-- It is positive and has no more than sixty-three bits. -/
  serialNumber_bounds : 1 ≤ Bytes.toNat c.serialNumber.bytes
    ∧ Bytes.toNat c.serialNumber.bytes ≤ 2 ^ 63 - 1
  /-- It has between one and eight bytes. -/
  serialNumber_length : 1 ≤ c.serialNumber.bytes.length ∧ c.serialNumber.bytes.length ≤ 8
  /-- The first of them is not zero. -/
  serialNumber_head : c.serialNumber.bytes.head? ≠ some 0

/-- **A certificate that was built for an order names what was ordered.** -/
theorem Order.Built.names {o : Order} {h : Host} {k : KeyPair} {c : Certificate}
    (hbuilt : o.Built h k c) : c.Names o k (o.drawn h) := by
  obtain ⟨signature, hfacts⟩ := hbuilt.facts
  generalize hplan : o.plan (serialOfEntropy (o.drawn h)) = p at hfacts
  have hname : c.subjectName = p.nameValue ∧ c.issuerName = p.nameValue := by
    unfold Certificate.subjectName Certificate.issuerName
    rw [hfacts]
    exact ⟨rfl, rfl⟩
  have htext : p.nameValue.text
      = "CN=" ++ o.subject ++ ", OU=" ++ o.scmId ++ ", O=" ++ o.clusterId := by
    rw [p.text_nameValue, ← hplan]
    rfl
  have hsubject : c.subject = p.nameValue.text := congrArg Name.text hname.1
  have hissuer : c.issuer = p.nameValue.text := congrArg Name.text hname.2
  have hserial : c.serialNumber = serialOfEntropy (o.drawn h) := by
    unfold Certificate.serialNumber
    rw [hfacts, ← hplan]
    rfl
  have hpublicKey : c.publicKey = Plan.publicKeyInfo k.algorithm k.publicKey := by
    unfold Certificate.publicKey
    rw [hfacts]
    rfl
  have hbounds := serialOfEntropy_bounds (o.drawn h)
  refine ⟨hsubject.trans htext, hissuer.trans htext, ?_, ?_, ?_, ?_, hpublicKey, ?_, ?_, hserial,
    ?_, ?_, ⟨?_, ?_⟩, c.serialNumber.head_ne_zero⟩
  · unfold Certificate.commonName?
    rw [hname.1, p.commonName?_nameValue, ← hplan]
    rfl
  · unfold Certificate.isSelfIssued
    rw [hsubject, hissuer, beq_self_eq_true]
  · unfold Certificate.isCa
    rw [hfacts, ← hplan]
    rfl
  · -- no two extensions are of one kind, so that this is the one that is found
    have husage : ⟨Extension.keyUsage, true, Plan.keyUsage p.isCa⟩
        ∈ p.extensionList (Plan.publicKeyInfo k.algorithm k.publicKey) :=
      List.mem_append_right _ (by simp)
    have hunique := Plan.unique?_eq_some (p.nodup_extensionList _) husage
    have hextensions : c.facts.contents.statement.extensions
        = p.extensionList (Plan.publicKeyInfo k.algorithm k.publicKey) := by
      rw [hfacts]
      rfl
    unfold Certificate.keyUses?
    rw [hextensions, hunique]
    dsimp only
    rw [Plan.ofBits_keyUsage, ← hplan]
    rfl
  · rw [hpublicKey]
    exact Plan.isSuffix_publicKeyInfo _ _
  · intro a
    rw [hfacts, eq_comm (a := a)]
    exact Plan.keyAlgorithmId_inj
  · rw [hserial, toNat_serialOfEntropy]
  · rw [hserial]
    exact hbounds
  · rw [hserial]
    exact SerialNumber.length_pos hbounds.1
  · rw [hserial]
    exact length_serialOfEntropy _

/-- **Whatever certificate is built names what was asked for.** Its draft is
that of an order; the subject, who is the issuer, has the texts of the order
character by character, the key is the one that was obtained, with the uses
that the subject has for it, and the serial number is made of the bytes that
were drawn, whichever they are. -/
theorem Draft.names_of_build {d : Draft} {h : Host} {c : Certificate}
    (hdates : ∀ date, d.beginDate = some date ∨ d.endDate = some date → date.Valid)
    (hbuild : (d.build.runOn h).1 = .ok c) :
    ∃ (o : Order) (k : KeyPair), d = o.toDraft ∧ (o.supply.obtain.runOn h).1 = .ok k
      ∧ c.Names o k (o.drawn h) := by
  obtain ⟨o, k, hd, hbuilt⟩ := built_of_build hdates hbuild
  exact ⟨o, k, hd, hbuilt.obtained, hbuilt.names⟩

/-- The names in the certificate of a year's order, as anyone would read them.
-/
theorem Draft.names_yearOrder :
    ∃ c, ((yearOrder (.generator .ed25519)).toDraft.build.runOn bareHost).1 = .ok c
      ∧ c.subject = "CN=scm-1, OU=storage, O=cluster" ∧ c.commonName? = some "scm-1"
      ∧ c.keyUses? = some [.digitalSignature, .keyCertSign, .crlSign] := by
  obtain ⟨c, hc⟩ := exists_build_yearOrder
  obtain ⟨o, k, ho, -, hnames⟩ := names_of_build (fun date hdate => (dates_yearOrder _ date hdate).1) hc
  obtain rfl := toDraft_inj.1 ho
  exact ⟨c, hc, hnames.subject, hnames.commonName, hnames.keyUses⟩

end CertAuthority
