import CertAuthority.Calendar.Date
import CertAuthority.Files.Fault
import CertAuthority.Files.Path
import CertAuthority.Json.Fault
import CertAuthority.Key.Algorithm
import CertAuthority.Text.Base64
import CertAuthority.Text.Utf8

/-!
# Errors

Everything that can go wrong between a request and a stored certificate,
as a cause. The causes fall into the seven kinds an operator tells apart:
what was asked for cannot be (`configuration`, `validity`), what was read
is not what it should be (`encoding`), a file is in the way or missing
(`fileAlreadyExists`, `fileNotFound`), no key could be made
(`keyGeneration`), or the file system refused (`files`).

`Error.message` is the one place where causes become words.
-/

namespace CertAuthority

/-- A value that every certificate needs before it can be built. -/
inductive Requirement where
  /-- The common name of the subject. -/
  | subject
  /-- The identifier of the cluster. -/
  | clusterId
  /-- The identifier of the storage manager. -/
  | scmId
  /-- The first day of validity. -/
  | beginDate
  /-- The day on which validity ends. -/
  | endDate
  /-- The security configuration. -/
  | config
  /-- The key to sign with. -/
  | key
  deriving DecidableEq, Repr

/-- The name of a requirement. -/
def Requirement.name : Requirement → String
  | .subject => "subject"
  | .clusterId => "cluster_id"
  | .scmId => "scm_id"
  | .beginDate => "begin_date"
  | .endDate => "end_date"
  | .config => "config"
  | .key => "key"

/-- What a name is used for on the way to a file. -/
inductive SegmentKind where
  /-- The directory that holds all security material. -/
  | securityDirectory
  /-- The directory of one component in it. -/
  | component
  /-- A file in that. -/
  | fileName
  deriving DecidableEq, Repr

/-- What a segment is called. -/
def SegmentKind.name : SegmentKind → String
  | .securityDirectory => "security directory name"
  | .component => "component label"
  | .fileName => "file name"

/-- **Why a request cannot be met as it stands.** -/
inductive ConfigurationCause where
  /-- Values that were never given. -/
  | missing (fields : List Requirement)
  /-- A value of blanks only. -/
  | blank (field : Requirement)
  /-- A key for another algorithm than the configured one. -/
  | algorithmMismatch (key configured : Key.Algorithm)
  /-- A host name with characters outside ASCII. -/
  | dnsName (name : String)
  /-- No algorithm has this name. -/
  | unsupportedAlgorithm (name : String)
  /-- A name that would lead out of its directory. -/
  | notPlainSegment (kind : SegmentKind) (value : String)
  /-- A configuration file that cannot be used. -/
  | json (fault : Json.Fault)
  /-- A cause in somebody else's words. -/
  | stated (text : String)
  deriving DecidableEq, Repr

/-- The wording of a configuration cause. -/
def ConfigurationCause.text : ConfigurationCause → String
  | .missing fields =>
    "missing required field(s): " ++ ", ".intercalate (fields.map Requirement.name)
  | .blank field => field.name ++ " cannot be empty"
  | .algorithmMismatch key configured =>
    "key algorithm " ++ key.name ++ " does not match configured " ++ configured.name
  | .dnsName name => "invalid DNS name '" ++ name ++ "': Invalid IA5String: '" ++ name ++ "'"
  | .unsupportedAlgorithm name => "unsupported key algorithm '" ++ name ++ "'"
  | .notPlainSegment kind value =>
    kind.name ++ " '" ++ value ++ "' must be a single plain path segment"
  | .json fault => "invalid security configuration: " ++ fault.message
  | .stated text => text

/-- **Why a validity window is refused.** -/
inductive ValidityCause where
  /-- The end does not come after the beginning. -/
  | notAfter (endDate beginDate : Calendar.Date)
  /-- More days than the configuration allows. -/
  | tooLong (days : Int) (maximum : Nat)
  /-- A date that certificates cannot carry. -/
  | outOfRange (date : Calendar.Date)
  /-- A cause in somebody else's words. -/
  | stated (text : String)
  deriving DecidableEq, Repr

/-- The wording of a validity cause. -/
def ValidityCause.text : ValidityCause → String
  | .notAfter endDate beginDate =>
    "end date " ++ endDate.text ++ " must be after begin date " ++ beginDate.text
  | .tooLong days maximum =>
    "validity of " ++ toString days ++ " days exceeds the maximum of " ++ toString maximum
      ++ " days"
  | .outOfRange date => "invalid date " ++ date.text ++ ": timestamp was not in range"
  | .stated text => text

/-- Why a block of a bundle cannot be read. -/
inductive BlockFault where
  /-- A line that begins like a first line and is not one. -/
  | header
  /-- The text ends before the last line of the block. -/
  | incomplete
  /-- The lines between are not base64. -/
  | base64
  deriving DecidableEq, Repr

/-- The wording of a block fault. -/
def BlockFault.text : BlockFault → String
  | .header => "invalid header"
  | .incomplete => "incomplete PEM"
  | .base64 => "base64 decode error"

/-- What is wrong with an extension. -/
inductive ExtensionFault where
  /-- There are two of the kind. -/
  | duplicate
  /-- Its value is not of its type. -/
  | invalid
  deriving DecidableEq, Repr

/-- The wording of an extension fault. -/
def ExtensionFault.text : ExtensionFault → String
  | .duplicate => "duplicate extensions"
  | .invalid => "invalid extensions"

/-- Why a signature does not hold. -/
inductive SignatureFault where
  /-- The key did not make this signature. -/
  | mismatch
  /-- Signatures of this kind cannot be checked. -/
  | unsupported
  deriving DecidableEq, Repr

/-- The wording of a signature fault. -/
def SignatureFault.text : SignatureFault → String
  | .mismatch => "SignatureVerificationError"
  | .unsupported => "SignatureUnsupportedAlgorithm"

/-- The first line of a certificate in text form. -/
def beginCertificate : String := "-----BEGIN CERTIFICATE-----"

/-- The last line of a certificate in text form. -/
def endCertificate : String := "-----END CERTIFICATE-----"

/-- **Why something that was read is not what it should be.** -/
inductive EncodingCause where
  /-- The bytes are no certificate. -/
  | notACertificate
  /-- Bytes after the certificate. -/
  | trailingBytes (count : Nat)
  /-- The basic constraints cannot be used. -/
  | basicConstraints (fault : ExtensionFault)
  /-- The alternative names cannot be used. -/
  | subjectAltName (fault : ExtensionFault)
  /-- Issuer and subject are different names. -/
  | notSelfIssued (subject issuer : String)
  /-- The signature does not hold. -/
  | signature (subject : String) (fault : SignatureFault)
  /-- The first line is missing. -/
  | noBegin
  /-- The last line is missing. -/
  | noEnd
  /-- A marker inside the block. -/
  | notOneBlock
  /-- The lines between the markers are not base64. -/
  | base64 (fault : Text.Base64.Fault)
  /-- A block of a bundle that cannot be read. -/
  | block (fault : BlockFault)
  /-- A block of a bundle that is not a certificate. -/
  | foreignLabel (label : String)
  /-- A bundle without a block. -/
  | emptyBundle
  /-- A file that is not text. -/
  | notUtf8 (path : Path) (fault : Text.Utf8.Fault)
  /-- The text is no private key. -/
  | notAKey
  /-- A private key for an algorithm that is not supported. -/
  | unsupportedKey
  /-- A key that cannot sign the certificate. -/
  | notSigned
  /-- A cause in somebody else's words. -/
  | stated (text : String)
  deriving DecidableEq, Repr

/-- The wording of an encoding cause. -/
def EncodingCause.text : EncodingCause → String
  | .notACertificate => "failed to parse certificate"
  | .trailingBytes count => toString count ++ " trailing bytes after certificate"
  | .basicConstraints fault => "invalid basic constraints: " ++ fault.text
  | .subjectAltName fault => "invalid subject alternative name: " ++ fault.text
  | .notSelfIssued subject issuer =>
    "certificate '" ++ subject ++ "' is not self-issued (issuer '" ++ issuer ++ "')"
  | .signature subject fault =>
    "signature verification failed for '" ++ subject ++ "': " ++ fault.text
  | .noBegin => "PEM must start with " ++ beginCertificate
  | .noEnd => "PEM must end with " ++ endCertificate
  | .notOneBlock => "expected exactly one CERTIFICATE block"
  | .base64 fault => "invalid base64 payload: " ++ fault.message
  | .block fault => "invalid PEM block: " ++ fault.text
  | .foreignLabel label => "expected CERTIFICATE block, got " ++ label
  | .emptyBundle => "no CERTIFICATE block found"
  | .notUtf8 path fault => path.text ++ " is not valid UTF-8: " ++ fault.message
  | .notAKey => "failed to parse private key"
  | .unsupportedKey => "private key uses an unsupported algorithm"
  | .notSigned => "failed to self-sign certificate"
  | .stated text => text

/-- **What can go wrong.** -/
inductive Error where
  /-- The request cannot be met as it stands. -/
  | configuration (cause : ConfigurationCause)
  /-- The validity window is refused. -/
  | validity (cause : ValidityCause)
  /-- Something that was read is not what it should be. -/
  | encoding (cause : EncodingCause)
  /-- There is a file where one was to be created. -/
  | fileAlreadyExists (path : Path)
  /-- There is no file where one was to be read. -/
  | fileNotFound (path : Path)
  /-- A source of keys gave none, for a reason in its own words. -/
  | keyGeneration (text : String)
  /-- The file system refused. -/
  | files (path : Path) (fault : Files.Fault)
  deriving DecidableEq, Repr

namespace Error

/-- **The wording of an error.** -/
def message : Error → String
  | .configuration cause => "configuration error: " ++ cause.text
  | .validity cause => "invalid validity window: " ++ cause.text
  | .encoding cause => "encoding error: " ++ cause.text
  | .fileAlreadyExists path => "file already exists: " ++ path.text
  | .fileNotFound path => "file not found: " ++ path.text
  | .keyGeneration text => "key generation failed: " ++ text
  | .files path fault => "I/O error at " ++ path.text ++ ": " ++ fault.message

/-- The fault behind an error, if it is the file system's. -/
def underlying? : Error → Option Files.Fault
  | .files _ fault => some fault
  | _ => none

/-- **The error of a refused operation on a path.** A missing entry and one
in the way are errors of their own. -/
def ofFault (path : Path) (fault : Files.Fault) : Error :=
  if fault = .notFound then .fileNotFound path
  else if fault = .alreadyExists then .fileAlreadyExists path
  else .files path fault

end Error

end CertAuthority
