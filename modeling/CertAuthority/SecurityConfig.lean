import CertAuthority.Error
import CertAuthority.Json.Decode
import CertAuthority.Json.Write
import CertAuthority.Text.Quoted

/-!
# The security configuration

Where an authority keeps its files, what it calls them, which algorithm it
signs with, and for how long its certificates hold, by default and at
most.

A configuration is written as a JSON object. Every field may be left out
and then has its default; fields that are not known are skipped.
-/

namespace CertAuthority

/-- **A security configuration.** -/
structure SecurityConfig where
  /-- The directory that holds the security directory. -/
  metadataDir : Path
  /-- The name of the security directory. -/
  securityDirName : String
  /-- What a component's certificate is called. -/
  certificateFileName : String
  /-- What a component's private key is called. -/
  privateKeyFileName : String
  /-- The algorithm to sign with. -/
  keyAlgorithm : Key.Algorithm
  /-- For how many days a certificate holds if nothing else is asked for. -/
  defaultDays : Nat
  /-- For how many days a certificate may hold. -/
  maxDays : Nat
  deriving DecidableEq, Repr

namespace SecurityConfig

/-- **The configuration of an authority that asks for nothing in
particular.** -/
def default : SecurityConfig where
  metadataDir := ⟨"."⟩
  securityDirName := "security"
  certificateFileName := "certificate.crt"
  privateKeyFileName := "private.pem"
  keyAlgorithm := .default
  defaultDays := 365
  maxDays := 1865

/-- The default configuration with its files in the given directory. -/
def inDirectory (metadataDir : Path) : SecurityConfig :=
  { default with metadataDir := metadataDir }

/-- **Whether two configurations are the same**, however their metadata
directory is spelled. -/
def SameAs (c d : SecurityConfig) : Prop :=
  c.metadataDir.SameAs d.metadataDir ∧ c = { d with metadataDir := c.metadataDir }

instance (c d : SecurityConfig) : Decidable (c.SameAs d) :=
  inferInstanceAs (Decidable (_ ∧ _))

/-! ## As JSON -/

/-- Reads an algorithm by its name. The name may also be a key with a null
for its value. -/
def readAlgorithm : Json.Reader Key.Algorithm :=
  Json.Reader.choice (Key.Algorithm.all.map fun a => (a.name, a)) pure
    fun a => do
      Json.Reader.unit
      return a

/-- **The fields of a configuration**, by the names they have in a file. -/
def fields : List (Json.Reader.Field SecurityConfig) :=
  [⟨"metadata_dir", fun c => do
      return { c with metadataDir := ⟨← Json.Reader.text "path string"⟩ }⟩,
    ⟨"security_dir_name", fun c => do
      return { c with securityDirName := ← Json.Reader.text "a string" }⟩,
    ⟨"certificate_file_name", fun c => do
      return { c with certificateFileName := ← Json.Reader.text "a string" }⟩,
    ⟨"private_key_file_name", fun c => do
      return { c with privateKeyFileName := ← Json.Reader.text "a string" }⟩,
    ⟨"key_algorithm", fun c => do return { c with keyAlgorithm := ← readAlgorithm }⟩,
    ⟨"default_certificate_duration_days", fun c => do
      return { c with defaultDays := ← Json.Reader.nat32 }⟩,
    ⟨"max_certificate_duration_days", fun c => do
      return { c with maxDays := ← Json.Reader.nat32 }⟩]

/-- **The configuration that a JSON text describes.** -/
def ofJson (text : String) : Except Error SecurityConfig :=
  match Json.decode (Json.Reader.record "struct SecurityConfig" fields default) text with
  | .ok c => .ok c
  | .error fault => .error (.configuration (.json fault))

/-- **The JSON text of a configuration.** -/
def json (c : SecurityConfig) : String :=
  Json.compact
    [("metadata_dir", .string c.metadataDir.text),
      ("security_dir_name", .string c.securityDirName),
      ("certificate_file_name", .string c.certificateFileName),
      ("private_key_file_name", .string c.privateKeyFileName),
      ("key_algorithm", .string c.keyAlgorithm.name),
      ("default_certificate_duration_days", .nat c.defaultDays),
      ("max_certificate_duration_days", .nat c.maxDays)]

/-- How a configuration shows in diagnostic texts. -/
def diagnostic (c : SecurityConfig) : String :=
  "SecurityConfig \x7b metadata_dir: " ++ Text.quoted c.metadataDir.text
    ++ ", security_dir_name: " ++ Text.quoted c.securityDirName
    ++ ", certificate_file_name: " ++ Text.quoted c.certificateFileName
    ++ ", private_key_file_name: " ++ Text.quoted c.privateKeyFileName
    ++ ", key_algorithm: " ++ c.keyAlgorithm.diagnosticName
    ++ ", default_certificate_duration_days: " ++ toString c.defaultDays
    ++ ", max_certificate_duration_days: " ++ toString c.maxDays ++ " \x7d"

end SecurityConfig

end CertAuthority
