import CertAuthority.Proofs.Certificate.ReadBack

/-!
# Sizes of certificates

An element is at most about twice as long as its content, and a certificate
nests elements to a fixed depth. So a certificate is no longer than a fixed
multiple of what goes into it, and its length can be counted unless the texts
are longer than any that a machine can hold (`Plan.isSized_signed`).

That is what readers ask of an encoding (`Der.IsSized`), and it is shown once
for certificates as they are planned, from the parts to the whole. The bounds
are generous. With a tighter one for the header of an element they would be
close to what is really needed, but then they would have to be followed
through every nesting, while any multiple will do here.
-/

namespace CertAuthority

open Der

namespace Der

/-- **An element is at most about twice as long as its content.** For a short
content it is the header that takes the two bytes more. -/
theorem length_encode_le (mark : UInt8) (content : Bytes) :
    (encode mark content).length ≤ 2 * content.length + 2 := by
  have hlength : (encodeLength content.length).length ≤ content.length + 1 := by
    unfold encodeLength
    split_ifs
    · exact Nat.succ_le_succ (Nat.zero_le _)
    · exact Nat.succ_le_succ (Bytes.length_ofNat_le (Nat.lt_pow_self (by decide)))
  unfold encode
  rw [List.cons_append, List.length_cons, List.length_append]
  omega

variable {n : Nat} {mark : UInt8} {content : Bytes}

/-- In the form in which bounds are handed up from a content to its element. -/
theorem length_encode_le_of (h : content.length ≤ n) : (encode mark content).length ≤ 2 * n + 2 :=
  (length_encode_le mark content).trans (by omega)

/-- A number is written with no more bytes than it was given in, but for a zero
before them. -/
theorem length_integer_le {b : Bytes} (h : b.length ≤ n) :
    (integer (Bytes.toNat b)).length ≤ 2 * n + 4 := by
  have hdigits : (Bytes.ofNat (Bytes.toNat b)).length ≤ n :=
    (Bytes.length_ofNat_le (Bytes.toNat_lt b)).trans h
  have hcontent : (integerContent (Bytes.toNat b)).length ≤ n + 1 := by
    unfold integerContent
    cases hb : Bytes.ofNat (Bytes.toNat b) with
    | nil => exact Nat.succ_le_succ (Nat.zero_le n)
    | cons x rest =>
      rw [hb] at hdigits
      dsimp only
      split_ifs
      · exact hdigits.trans (Nat.le_succ n)
      · exact Nat.succ_le_succ hdigits
  exact (length_encode_le_of hcontent).trans (by omega)

end Der

namespace Plan

/-- **A plan with parts of at most `n` bytes.** The parts are those that a
caller decides on; the rest is of a fixed size. -/
structure HasSize (p : Plan) (n : Nat) : Prop where
  /-- The common name. -/
  subject : (Text.Utf8.encode p.subject.toList).length ≤ n
  /-- The cluster. -/
  clusterId : (Text.Utf8.encode p.clusterId.toList).length ≤ n
  /-- The storage manager. -/
  scmId : (Text.Utf8.encode p.scmId.toList).length ≤ n
  /-- The alternative names, all together. -/
  san : (p.san.map generalName).flatten.length ≤ n
  /-- The serial number. -/
  serialNumber : p.serialNumber.bytes.length ≤ n

variable {p : Plan} {n : Nat}

/-- The types that a plan names are short. -/
theorem length_type_le : ∀ type ∈ [AttributeType.commonName, AttributeType.organizationalUnit,
    AttributeType.organization, Extension.subjectAltName, Extension.keyUsage,
    Extension.subjectKeyIdentifier, Extension.basicConstraints], type.encode.length ≤ 16 := by
  decide +kernel

theorem length_signatureAlgorithm_le (algorithm : Key.Algorithm) :
    (signatureAlgorithm algorithm).length ≤ 32 := by
  cases algorithm <;> decide +kernel

/-- A part of a name is its type and its text, two elements deep. -/
theorem length_namePart_le (type : Oid) {value : String} (htype : type.encode.length ≤ 16)
    (hvalue : (Text.Utf8.encode value.toList).length ≤ n) :
    (namePart type value).length ≤ 8 * n + 78 := by
  have hutf8 : (utf8 value).length ≤ 2 * n + 2 := length_encode_le_of hvalue
  have hpair : [type.encode, utf8 value].flatten.length ≤ 2 * n + 18 := by
    simp only [List.flatten_cons, List.flatten_nil, List.length_append, List.length_nil]
    omega
  have hsequence : [Der.sequence [type.encode, utf8 value]].flatten.length ≤ 2 * (2 * n + 18) + 2 := by
    rw [List.flatten_singleton]
    exact length_encode_le_of hpair
  exact (length_encode_le_of hsequence).trans (by omega)

theorem length_name_le (hp : p.HasSize n) : p.name.length ≤ 48 * n + 470 := by
  have hsubject := length_namePart_le AttributeType.commonName (length_type_le _ (by simp)) hp.subject
  have hscm :=
    length_namePart_le AttributeType.organizationalUnit (length_type_le _ (by simp)) hp.scmId
  have hcluster :=
    length_namePart_le AttributeType.organization (length_type_le _ (by simp)) hp.clusterId
  have hparts : [namePart AttributeType.commonName p.subject,
      namePart AttributeType.organizationalUnit p.scmId,
      namePart AttributeType.organization p.clusterId].flatten.length ≤ 24 * n + 234 := by
    simp only [List.flatten_cons, List.flatten_nil, List.length_append, List.length_nil]
    omega
  exact (length_encode_le_of hparts).trans (by omega)

/-- A day in the years that can be written has a text of fixed length. -/
theorem length_midnight_le {d : Calendar.Date} (h : d.Valid) (hyear : d.year ≤ 9999) :
    (midnight d).length ≤ 32 := by
  have hmonth := Calendar.Date.month_bounds h
  have hday := Calendar.Date.day_le h
  have hrest : asciiBytes "000000Z" = [48, 48, 48, 48, 48, 48, 90] := by decide
  unfold midnight
  dsimp only
  split_ifs with hshort
  · refine (length_encode_le_of (n := 13) ?_).trans (by decide)
    rw [asciiBytes_append, asciiBytes_append, asciiBytes_append,
      asciiBytes_padded_two (Nat.mod_lt _ (by decide)), asciiBytes_padded_two (by omega),
      asciiBytes_padded_two (by omega), hrest]
    exact Nat.le_refl 13
  · refine (length_encode_le_of (n := 15) ?_).trans (by decide)
    rw [asciiBytes_append, asciiBytes_append, asciiBytes_append,
      asciiBytes_padded_four (by omega), asciiBytes_padded_two (by omega),
      asciiBytes_padded_two (by omega), asciiBytes_padded_two (by omega),
      asciiBytes_padded_two (by omega), hrest]
    exact Nat.le_refl 15

theorem length_validity_le (hp : p.IsWritable) : p.validity.length ≤ 130 := by
  have hbegin := length_midnight_le hp.begin_valid hp.begin_year.2
  have hend := length_midnight_le hp.end_valid hp.end_year.2
  have hdays : [midnight p.beginDate, midnight p.endDate].flatten.length ≤ 64 := by
    simp only [List.flatten_cons, List.flatten_nil, List.length_append, List.length_nil]
    omega
  exact length_encode_le_of hdays

/-- What says a public key is the key and the name of its algorithm. -/
theorem length_publicKeyInfo_le {algorithm : Key.Algorithm} {publicKey : Bytes}
    (h : publicKey.length ≤ n) : (publicKeyInfo algorithm publicKey).length ≤ 4 * n + 82 := by
  have halgorithm : (encode Mark.sequence algorithm.keyAlgorithm).length ≤ 32 := by
    cases algorithm <;> decide +kernel
  have hkey : (bitString 0 publicKey).length ≤ 2 * (n + 1) + 2 :=
    length_encode_le_of (Nat.succ_le_succ h)
  have hparts : [encode Mark.sequence algorithm.keyAlgorithm,
      bitString 0 publicKey].flatten.length ≤ 2 * n + 40 := by
    simp only [List.flatten_cons, List.flatten_nil, List.length_append, List.length_nil]
    omega
  exact (length_encode_le_of hparts).trans (by omega)

/-- An extension is its type and its value. -/
theorem length_extension_le {type : Oid} {critical : Bool} {value : Bytes}
    (htype : type.encode.length ≤ 16) (hvalue : value.length ≤ n) :
    (extension type critical value).length ≤ 4 * n + 46 := by
  have hcritical : (if critical then [boolean true] else []).flatten.length ≤ 4 := by
    cases critical <;> decide
  have hoctets : (octetString value).length ≤ 2 * n + 2 := length_encode_le_of hvalue
  have hparts : ([type.encode] ++ (if critical then [boolean true] else [])
      ++ [octetString value]).flatten.length ≤ 2 * n + 22 := by
    rw [List.flatten_append, List.flatten_append, List.flatten_singleton, List.flatten_singleton,
      List.length_append, List.length_append]
    omega
  exact (length_encode_le_of hparts).trans (by omega)

/-- The extensions are as long as the alternative names, all together, and a
fixed part. -/
theorem length_extensions_le (hp : p.HasSize n) (info : Bytes) :
    (p.extensions info).flatten.length ≤ 8 * n + 500 := by
  have hnames : (if p.san = [] then []
      else [extension Extension.subjectAltName false
        (Der.sequence (p.san.map generalName))]).flatten.length ≤ 8 * n + 54 := by
    split_ifs
    · exact Nat.zero_le _
    · rw [List.flatten_singleton]
      exact (length_extension_le (length_type_le _ (by simp)) (length_encode_le_of hp.san)).trans
        (by omega)
  have husage : (extension Extension.keyUsage true (keyUsage p.isCa)).length ≤ 4 * 8 + 46 :=
    length_extension_le (length_type_le _ (by simp)) (by cases p.isCa <;> decide)
  have hidentifier : (keyIdentifier info).length ≤ 20 := List.length_take_le _ _
  have hkey : (extension Extension.subjectKeyIdentifier false
      (octetString (keyIdentifier info))).length ≤ 4 * (2 * 20 + 2) + 46 :=
    length_extension_le (length_type_le _ (by simp)) (length_encode_le_of hidentifier)
  have hconstraints : (extension Extension.basicConstraints true
      (basicConstraints p.isCa)).length ≤ 4 * 8 + 46 :=
    length_extension_le (length_type_le _ (by simp)) (by cases p.isCa <;> decide)
  unfold extensions
  rw [List.flatten_append, List.length_append]
  simp only [List.flatten_cons, List.flatten_nil, List.length_append, List.length_nil]
  omega

variable {algorithm : Key.Algorithm} {publicKey signature : Bytes}

/-- So what is signed is bounded by its parts. -/
theorem length_statement_le (hp : p.IsWritable) (hsize : p.HasSize n) (hkey : publicKey.length ≤ n) :
    (p.statement algorithm publicKey).length ≤ 300 * n + 8000 := by
  have hversion : (encode (Mark.fieldOf 0) (integer version)).length ≤ 8 := by decide
  have hserial : (integer (Bytes.toNat p.serialNumber.bytes)).length ≤ 2 * n + 4 :=
    length_integer_le hsize.serialNumber
  have halgorithm := length_signatureAlgorithm_le algorithm
  have hname := length_name_le hsize
  have hvalidity := length_validity_le hp
  have hinfo : (publicKeyInfo algorithm publicKey).length ≤ 4 * n + 82 :=
    length_publicKeyInfo_le hkey
  have hextensions : (encode (Mark.fieldOf 3)
      (Der.sequence (p.extensions (publicKeyInfo algorithm publicKey)))).length
      ≤ 2 * (2 * (8 * n + 500) + 2) + 2 :=
    length_encode_le_of (length_encode_le_of (length_extensions_le hsize _))
  have helements : (p.elements algorithm publicKey).flatten.length ≤ 140 * n + 3500 := by
    unfold elements
    simp only [List.flatten_cons, List.flatten_nil, List.length_append, List.length_nil]
    omega
  exact (length_encode_le_of helements).trans (by omega)

/-- **A certificate of short parts is short.** Parts of 2⁴⁸ bytes are more than
any host holds in memory. -/
theorem isSized_signed (hp : p.IsWritable) (hsize : p.HasSize n) (hkey : publicKey.length ≤ n)
    (hsignature : signature.length ≤ n) (hn : n ≤ 2 ^ 48) :
    IsSized (signed (p.statement algorithm publicKey) algorithm signature) := by
  have hstatement : (p.statement algorithm publicKey).length ≤ 300 * n + 8000 :=
    length_statement_le hp hsize hkey
  have halgorithm := length_signatureAlgorithm_le algorithm
  have hbits : (bitString 0 signature).length ≤ 2 * (n + 1) + 2 :=
    length_encode_le_of (Nat.succ_le_succ hsignature)
  have hparts : [p.statement algorithm publicKey, signatureAlgorithm algorithm,
      bitString 0 signature].flatten.length ≤ 302 * n + 8036 := by
    simp only [List.flatten_cons, List.flatten_nil, List.length_append, List.length_nil]
    omega
  have hall : (signed (p.statement algorithm publicKey) algorithm signature).length
      ≤ 2 * (302 * n + 8036) + 2 := length_encode_le_of hparts
  unfold IsSized
  omega

end Plan

end CertAuthority
