import CertAuthority.Certificate.Basic
import CertAuthority.Certificate.Encode
import CertAuthority.Proofs.Certificate.Validity
import CertAuthority.Proofs.Der.Element
import CertAuthority.Proofs.Text.Utf8

/-!
# The fields of a certificate can be read back

Each field of a certificate that the authority writes is read back as what it
was: the serial number, the algorithms, the names, the key and the extensions.
Names and extensions are lists, and are read item by item; algorithms and keys
are read as they stand.

A field is said to be read back by `Reads read? bytes value`: in front of
whatever follows, the reader takes the bytes off and makes the value of them.
Sizes are left to the end, where it is shown that none of the elements is too
long for its length to be written.

Two fields are kept as bytes besides being read. The public key is one of
them, for what is signed and compared is the key as it was encoded and not
what was understood of it (`reads_publicKeyInfo`). The other is the statement
of the certificate as a whole, over which the signature is made.
-/

namespace CertAuthority

open Der

/-! ## Serial numbers -/

namespace SerialNumber

/-- **Serial numbers are equal if their values are.** -/
theorem ext_toNat {a b : SerialNumber} (h : Bytes.toNat a.bytes = Bytes.toNat b.bytes) :
    a = b := by
  have hbytes := Bytes.eq_of_toNat_eq a.head_ne_zero b.head_ne_zero h
  obtain ⟨bytes, hhead⟩ := a
  obtain ⟨bytes', hhead'⟩ := b
  obtain rfl : bytes = bytes' := hbytes
  rfl

/-- The number that bytes are is the number of the serial number made of them:
only zeros in front are lost. -/
theorem toNat_ofBytes (b : Bytes) : Bytes.toNat (ofBytes b).bytes = Bytes.toNat b :=
  Bytes.toNat_dropWhile b

end SerialNumber

namespace Plan

/-- **The serial number is read back.** It is written as a number, so that a
first byte with its high bit set gets a zero in front and loses it again. -/
theorem reads_serial (s : SerialNumber) :
    Reads Statement.readSerial? (integer (Bytes.toNat s.bytes)) s := by
  intro hsized rest
  have hserial : SerialNumber.ofBytes (integerContent (Bytes.toNat s.bytes)) = s :=
    SerialNumber.ext_toNat ((SerialNumber.toNat_ofBytes _).trans (toNat_integerContent _))
  have hnumber : (⟨identifierOf Mark.integer, integerContent (Bytes.toNat s.bytes)⟩ : Element).number
      = Tag.integer := rfl
  unfold Statement.readSerial? integer
  rw [reads_basic (by decide) hsized rest, Option.bind_eq_bind, Option.bind_some]
  dsimp only
  rw [if_pos hnumber, hserial]

/-- The version is read, and is the one that has extensions. -/
theorem reads_version :
    Reads Statement.readVersion? (encode (Mark.fieldOf 0) (integer version)) () := by
  intro hsized rest
  have hinner : readPrimitive? Tag.integer (integer version) = some ([2], []) := by
    decide +kernel
  have hsmall : unsigned? 32 [2] = some 2 := by decide
  unfold Statement.readVersion?
  rw [(reads_element (by decide)).bind hsized]
  dsimp only
  rw [if_neg (by decide), if_neg (by decide), hinner, Option.bind_eq_bind, Option.bind_some]
  dsimp only
  rw [hsmall]
  rfl

/-! ## Algorithms and keys -/

/-- An algorithm without parameters. -/
theorem reads_algorithm (o : Oid) : Reads AlgorithmId.read? (Der.sequence [o.encode]) ⟨o, none⟩ := by
  refine reads_inside (by decide) fun hsized => ⟨[], ?_⟩
  rw [List.flatten_singleton] at hsized ⊢
  rw [(reads_oid o).bind_last hsized]
  rfl

/-- An algorithm with an identifier as its parameter. -/
theorem reads_algorithm_with (o parameter : Oid) :
    Reads AlgorithmId.read? (Der.sequence [o.encode, parameter.encode])
      ⟨o, some ⟨identifierOf Mark.objectIdentifier, parameter.bytes⟩⟩ := by
  refine reads_inside (by decide) fun hsized => ⟨[], ?_⟩
  rw [List.flatten_cons, List.flatten_singleton] at hsized ⊢
  rw [(reads_oid o).bind hsized.left]
  have helement : Reads readElement? parameter.encode
      ⟨identifierOf Mark.objectIdentifier, parameter.bytes⟩ := reads_element (by decide)
  show (readElement? parameter.encode >>= _) = _
  rw [helement.bind_last hsized.right]
  rfl

/-- The algorithm that a key says it is for. -/
def keyAlgorithmId : Key.Algorithm → AlgorithmId
  | .ecdsaP256 => ⟨Key.Algorithm.ellipticKeyOid,
      some ⟨identifierOf Mark.objectIdentifier, (Oid.ofArcs [1, 2, 840, 10045, 3, 1, 7]).bytes⟩⟩
  | .ecdsaP384 => ⟨Key.Algorithm.ellipticKeyOid,
      some ⟨identifierOf Mark.objectIdentifier, (Oid.ofArcs [1, 3, 132, 0, 34]).bytes⟩⟩
  | .ed25519 => ⟨Oid.ofArcs [1, 3, 101, 112], none⟩

/-- **The algorithm of a key is read back**, for each of the three. -/
theorem reads_keyAlgorithm (a : Key.Algorithm) :
    Reads AlgorithmId.read? (encode Mark.sequence a.keyAlgorithm) (keyAlgorithmId a) := by
  cases a with
  | ecdsaP256 => exact reads_algorithm_with _ _
  | ecdsaP384 => exact reads_algorithm_with _ _
  | ed25519 => exact reads_algorithm _

/-- **An element is kept as it was written** when its content is read to the
end. -/
theorem reads_kept {α : Type} {read : Bytes → Option (α × Bytes)} {content : Bytes} {a : α}
    (hread : IsSized content → read content = some (a, [])) :
    Reads (readKept? read) (encode Mark.sequence content) (a, encode Mark.sequence content) := by
  intro hsized rest
  have hinner := hread hsized.content
  unfold readKept?
  rw [readHeader?_encode (by decide) hsized.content, Option.bind_eq_bind, Option.bind_some]
  dsimp only
  have htagged : Reads (readTagged? Tag.sequence) (encode Mark.sequence content)
      ⟨identifierOf Mark.sequence, content⟩ := reads_tagged (by decide)
  rw [htagged.bind hsized]
  dsimp only
  rw [hinner, Option.bind_eq_bind, Option.bind_some]
  show some ((a, (encode Mark.sequence content ++ rest).take
    ((encode Mark.sequence content ++ rest).length - (content ++ rest).length
      + (content.length - 0))), rest) = _
  have hle : content.length ≤ (encode Mark.sequence content).length := length_le_encode _ _
  have hcut : (encode Mark.sequence content ++ rest).length - (content ++ rest).length
      + (content.length - 0) = (encode Mark.sequence content).length := by
    rw [List.length_append, List.length_append, Nat.add_sub_add_right, Nat.sub_zero,
      Nat.sub_add_cancel hle]
  rw [hcut, List.take_left]

/-- **The key is kept as it was written.** -/
theorem reads_publicKeyInfo (a : Key.Algorithm) (publicKey : Bytes) :
    Reads PublicKeyInfo.read? (publicKeyInfo a publicKey)
      ⟨publicKeyInfo a publicKey, keyAlgorithmId a, ⟨0, publicKey⟩⟩ := by
  intro hsized rest
  have hfields : IsSized [encode Mark.sequence a.keyAlgorithm, bitString 0 publicKey].flatten →
      PublicKeyInfo.readFields? [encode Mark.sequence a.keyAlgorithm, bitString 0 publicKey].flatten
        = some ((keyAlgorithmId a, ⟨0, publicKey⟩), []) := by
    intro hs
    rw [List.flatten_cons, List.flatten_singleton] at hs ⊢
    unfold PublicKeyInfo.readFields?
    rw [(reads_keyAlgorithm a).bind hs.left]
    dsimp only
    rw [(reads_bitString publicKey).bind_last hs.right]
    rfl
  have hkept : Reads (readKept? PublicKeyInfo.readFields?) (publicKeyInfo a publicKey)
      ((keyAlgorithmId a, ⟨0, publicKey⟩), publicKeyInfo a publicKey) := reads_kept hfields
  unfold PublicKeyInfo.read?
  rw [hkept.bind hsized]
  rfl

/-! ## Names -/

/-- The attribute of a type and a text. -/
def textAttribute (x : Oid × String) : Attribute :=
  ⟨x.1, ⟨identifierOf Mark.utf8String, Text.Utf8.encode x.2.toList⟩⟩

/-- An attribute is read back with its type and its text. -/
theorem reads_attribute (x : Oid × String) :
    Reads Attribute.read? (Der.sequence [x.1.encode, utf8 x.2]) (textAttribute x) := by
  refine reads_inside (by decide) fun hsized => ⟨[], ?_⟩
  rw [List.flatten_cons, List.flatten_singleton] at hsized ⊢
  have hvalue : Reads readElement? (utf8 x.2)
      ⟨identifierOf Mark.utf8String, Text.Utf8.encode x.2.toList⟩ := reads_element (by decide)
  rw [(reads_oid x.1).bind hsized.left]
  dsimp only
  rw [hvalue.bind_last hsized.right]
  rfl

/-- A part of a name that consists of a single attribute is read back as that.
-/
theorem reads_namePart (x : Oid × String) :
    Reads Name.readPart? (namePart x.1 x.2) [textAttribute x] := by
  refine reads_inside (by decide) fun hsized => ⟨[], ?_⟩
  have hmany : readMany Attribute.read? [Der.sequence [x.1.encode, utf8 x.2]].flatten
      = ([textAttribute x], []) :=
    readMany_flatten rfl [x] (fun y _ => reads_attribute y) (fun y _ => encode_ne_nil _ _) hsized
  rw [hmany]

/-- The name that a plan asks for. -/
def nameValue (p : Plan) : Name :=
  ⟨[[textAttribute (AttributeType.commonName, p.subject)],
    [textAttribute (AttributeType.organizationalUnit, p.scmId)],
    [textAttribute (AttributeType.organization, p.clusterId)]]⟩

/-- **The name can be read back.** -/
theorem reads_name (p : Plan) : Reads Name.read? p.name p.nameValue := by
  refine reads_inside (by decide) fun hsized => ⟨[], ?_⟩
  have hmany : readMany Name.readPart?
      [namePart AttributeType.commonName p.subject,
        namePart AttributeType.organizationalUnit p.scmId,
        namePart AttributeType.organization p.clusterId].flatten = (p.nameValue.parts, []) :=
    readMany_flatten rfl [(AttributeType.commonName, p.subject),
      (AttributeType.organizationalUnit, p.scmId), (AttributeType.organization, p.clusterId)]
      (fun x _ => reads_namePart x) (fun x _ => encode_ne_nil _ _) hsized
  rw [hmany]

end Plan

end CertAuthority
