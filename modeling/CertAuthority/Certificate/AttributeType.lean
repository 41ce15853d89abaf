import CertAuthority.Der.Oid

/-!
# Types of name attributes

A distinguished name says what each of its values is by an object
identifier. `label` is what a reader of the name sees: the usual
abbreviation where there is one, the registered name of the identifier
otherwise, and the identifier itself if nobody registered it.
-/

namespace CertAuthority

open Der (Oid)

namespace AttributeType

/-- `commonName`. -/
def commonName : Oid := Oid.ofArcs [2, 5, 4, 3]
/-- `organizationName`. -/
def organization : Oid := Oid.ofArcs [2, 5, 4, 10]
/-- `organizationalUnitName`. -/
def organizationalUnit : Oid := Oid.ofArcs [2, 5, 4, 11]

/-- The types with an abbreviation of their own. -/
def abbreviations : List (Oid × String) :=
  [(commonName, "CN"),
   (Oid.ofArcs [2, 5, 4, 6], "C"),
   (Oid.ofArcs [2, 5, 4, 7], "L"),
   (Oid.ofArcs [2, 5, 4, 8], "ST"),
   (organization, "O"),
   (organizationalUnit, "OU"),
   (Oid.ofArcs [0, 9, 2342, 19200300, 100, 1, 25], "DC"),
   (Oid.ofArcs [1, 2, 840, 113549, 1, 9, 1], "Email")]

/-- The registered names of identifiers, by the last arcs below a common
root. -/
def registered : List (List Nat × List (List Nat × String)) :=
  [([2, 5, 4],
    [([0], "objectClass"), ([1], "aliasedEntryName"), ([2], "knowledgeInformation"),
     ([4], "surname"), ([5], "serialNumber"), ([9], "streetAddress"), ([12], "title"),
     ([13], "description"), ([14], "searchGuide"), ([15], "businessCategory"),
     ([16], "postalAddress"), ([17], "postalCode"), ([41], "name"), ([42], "givenName"),
     ([43], "initials"), ([44], "generationQualifier"), ([45], "uniqueIdentifier"),
     ([46], "dnQualifier")]),
   ([2, 5, 29],
    [([1], "oldAuthorityKeyIdentifier"), ([2], "oldPrimaryKeyAttributes"),
     ([3], "oldCertificatePolicies"), ([4], "oldPrimaryKeyUsageRestriction"),
     ([9], "subjectDirectoryAttributes"), ([14], "subjectKeyIdentifier"), ([15], "keyUsage"),
     ([16], "privateKeyUsagePeriod"), ([17], "subjectAltName"), ([18], "issuerAltName"),
     ([19], "basicConstraints"), ([20], "crlNumber"), ([21], "reasonCode"),
     ([24], "invalidityDate"), ([27], "deltaCRLIndicator"), ([28], "issuingDistributionPoint"),
     ([29], "certificateIssuer"), ([30], "nameConstraints"), ([31], "crlDistributionPoints"),
     ([32], "certificatePolicies"), ([33], "policyMappings"), ([35], "authorityKeyIdentifier"),
     ([36], "policyConstraints"), ([37], "extendedKeyUsage"), ([46], "freshestCRL"),
     ([54], "inhibitAnyPolicy")]),
   ([0, 9, 2342, 19200300, 100, 1], [([1], "uid")]),
   ([1, 2, 840, 113549, 1, 1],
    [([1], "rsaEncryption"), ([2], "md2WithRSAEncryption"), ([3], "md4WithRSAEncryption"),
     ([4], "md5WithRSAEncryption"), ([5], "sha1WithRSAEncryption"), ([7], "rsaesOaep"),
     ([10], "rsassa-pss"), ([11], "sha256WithRSAEncryption"), ([12], "sha384WithRSAEncryption"),
     ([13], "sha512WithRSAEncryption"), ([14], "sha224WithRSAEncryption")]),
   ([1, 2, 840, 113549, 1, 9],
    [([2], "unstructuredName"), ([3], "contentType"), ([4], "id-messageDigest"),
     ([5], "signingTime"), ([7], "challengePassword"), ([14], "extensionRequest"),
     ([15], "smimeCapabilities"), ([20], "friendlyName")]),
   ([1, 2, 840, 10045],
    [([2, 1], "id-ecPublicKey"), ([3, 1, 7], "prime256v1"), ([4, 3, 1], "ecdsa-with-SHA224"),
     ([4, 3, 2], "ecdsa-with-SHA256"), ([4, 3, 3], "ecdsa-with-SHA384"),
     ([4, 3, 4], "ecdsa-with-SHA512")]),
   ([1, 3, 132, 0], [([10], "secp256k1"), ([34], "secp384r1"), ([35], "secp521r1")]),
   ([1, 3, 101], [([110], "X25519"), ([111], "X448"), ([112], "Ed25519"), ([113], "Ed448")]),
   ([1, 3, 6, 1, 4, 1, 311, 60, 2, 1],
    [([1], "msJurisdictionLocality"), ([2], "msJurisdictionStateOrProvince"),
     ([3], "msJurisdictionCountry")]),
   ([1, 3, 6, 1, 4, 1, 11129, 2, 4], [([2], "ctSCTList")]),
   ([1, 3, 6, 1, 5, 5, 7, 1], [([1], "authorityInfoAccess"), ([11], "subjectInfoAccess")]),
   ([2, 16, 840, 1, 113730, 1], [([1], "nsCertType"), ([13], "nsComment")])]

/-- All identifiers with a name, abbreviations first. -/
def names : List (Oid × String) :=
  abbreviations ++ registered.flatMap fun (root, entries) =>
    entries.map fun (arcs, name) => (Oid.ofArcs (root ++ arcs), name)

/-- **What a type is called in the text of a name.** -/
def label (o : Oid) : String :=
  (names.lookup o).getD ("OID(" ++ o.text ++ ")")

end AttributeType

end CertAuthority
