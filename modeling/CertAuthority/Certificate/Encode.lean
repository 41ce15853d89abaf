import CertAuthority.Certificate.Basic
import CertAuthority.Crypto.Sha2
import CertAuthority.Der.Encode
import CertAuthority.Key.Pair

/-!
# Writing certificates

A plan says everything that a self-signed certificate is to say but for the
key: whom it names, when it holds, whether its subject is an authority, by
which other names the subject is known, and the serial number.
`Plan.statement` is the encoding of that for a key, and `Plan.sign?` puts
the key's signature under it.

A certificate carries four extensions, in this order: the alternative names
if there are any, what the key may be used for, a digest that identifies
the key, and whether the subject is an authority. A reader that does not
understand the second or the last has to refuse the certificate.
-/

namespace CertAuthority

open Der

/-- **What a self-signed certificate is to say.** -/
structure Plan where
  /-- The common name of the subject. -/
  subject : String
  /-- The organization: the cluster. -/
  clusterId : String
  /-- The organizational unit: the storage manager. -/
  scmId : String
  /-- The day at whose first instant the certificate begins to hold. -/
  beginDate : Calendar.Date
  /-- The day at whose first instant it ceases to. -/
  endDate : Calendar.Date
  /-- Whether the subject may sign certificates. -/
  isCa : Bool
  /-- The alternative names of the subject. -/
  san : List AltName
  /-- The serial number. -/
  serialNumber : SerialNumber

namespace Plan

/-! ## Parts of the signed statement -/

/-- The encoding of a text. -/
def utf8 (s : String) : Bytes := encode Mark.utf8String (Text.Utf8.encode s.toList)

/-- The encoding of one part of a name, a set with a single attribute. -/
def namePart (type : Oid) (value : String) : Bytes :=
  set [sequence [type.encode, utf8 value]]

/-- **The name of the subject**, who is the issuer too. -/
def name (p : Plan) : Bytes :=
  sequence
    [namePart AttributeType.commonName p.subject,
      namePart AttributeType.organizationalUnit p.scmId,
      namePart AttributeType.organization p.clusterId]

/-- The bytes of a text of the basic alphabet. -/
def asciiBytes (s : String) : Bytes := s.toList.map fun c => UInt8.ofNat c.toNat

/-- The encoding of the first instant of a day. Two digits are enough for
the years from 1950 to 2049. -/
def midnight (d : Calendar.Date) : Bytes :=
  let year := d.year.toNat
  let rest := Calendar.padded 2 d.month ++ Calendar.padded 2 d.day ++ "000000Z"
  if 1950 ≤ year ∧ year < 2050 then
    encode Mark.utcTime (asciiBytes (Calendar.padded 2 (year % 100) ++ rest))
  else encode Mark.generalizedTime (asciiBytes (Calendar.padded 4 year ++ rest))

/-- The encoding of the window in which the certificate holds. -/
def validity (p : Plan) : Bytes := sequence [midnight p.beginDate, midnight p.endDate]

/-- **The encoding of a public key** with its algorithm. -/
def publicKeyInfo (algorithm : Key.Algorithm) (publicKey : Bytes) : Bytes :=
  sequence [encode Mark.sequence algorithm.keyAlgorithm, bitString 0 publicKey]

/-- The encoding of the algorithm of a signature. -/
def signatureAlgorithm (algorithm : Key.Algorithm) : Bytes :=
  sequence [algorithm.signatureOid.encode]

/-! ## Extensions -/

/-- The encoding of an extension. -/
def extension (type : Oid) (critical : Bool) (value : Bytes) : Bytes :=
  sequence ([type.encode] ++ (if critical then [boolean true] else []) ++ [octetString value])

/-- The encoding of an alternative name. -/
def generalName : AltName → Bytes
  | .dns name => encode (Mark.plainField 2) (Text.Utf8.encode name.toList)
  | .ip address => encode (Mark.plainField 7) address.bytes

/-- **What the key may be used for**: by an authority, to sign certificates,
revocation lists and messages; by anybody else, to sign messages and to
encipher keys. There are nine uses, a bit each, counted from the highest of
the first byte. -/
def keyUsage (isCa : Bool) : Bytes := bitString 7 [if isCa then 0x86 else 0xa0, 0]

/-- The encoding of whether the subject is an authority. -/
def basicConstraints (isCa : Bool) : Bytes := sequence [boolean isCa]

/-- The number of bytes of a key's identifier. -/
def keyIdentifierSize : Nat := 20

/-- **What identifies a key**: the beginning of its digest. -/
def keyIdentifier (info : Bytes) : Bytes := (Crypto.sha256 info).take keyIdentifierSize

/-- **The extensions of the certificate**, encoded one by one. -/
def extensions (p : Plan) (info : Bytes) : List Bytes :=
  (if p.san = [] then []
    else [extension Extension.subjectAltName false (sequence (p.san.map generalName))]) ++
  [extension Extension.keyUsage true (keyUsage p.isCa),
    extension Extension.subjectKeyIdentifier false (octetString (keyIdentifier info)),
    extension Extension.basicConstraints true (basicConstraints p.isCa)]

/-! ## The certificate -/

/-- The version of certificates that have extensions, counted from zero. -/
def version : Nat := 2

/-- The elements of the statement that a key is to sign. -/
def elements (p : Plan) (algorithm : Key.Algorithm) (publicKey : Bytes) : List Bytes :=
  let info := publicKeyInfo algorithm publicKey
  [encode (Mark.fieldOf 0) (integer version),
    integer (Bytes.toNat p.serialNumber.bytes),
    signatureAlgorithm algorithm, p.name, p.validity, p.name, info,
    encode (Mark.fieldOf 3) (sequence (p.extensions info))]

/-- **The statement that a key is to sign**, encoded. -/
def statement (p : Plan) (algorithm : Key.Algorithm) (publicKey : Bytes) : Bytes :=
  sequence (p.elements algorithm publicKey)

/-- A statement with a signature under it. -/
def signed (statement : Bytes) (algorithm : Key.Algorithm) (signature : Bytes) : Bytes :=
  sequence [statement, signatureAlgorithm algorithm, bitString 0 signature]

/-- **The encoding of the certificate**, signed by its own key. -/
def sign? (p : Plan) (key : KeyPair) : Option Bytes :=
  let statement := p.statement key.algorithm key.publicKey
  (key.sign? statement).map (signed statement key.algorithm)

end Plan

end CertAuthority
