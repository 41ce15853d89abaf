import CertAuthority.Certificate.Basic
import CertAuthority.Command.Failure
import CertAuthority.Json.Write

/-!
# Reports

What a command prints when it has succeeded: a summary of a certificate and
where its files are, or a line about an export. Both are printed in one of
two formats: a table for people and a JSON object for programs.

The formats differ in how they write the ends of the validity window: a
table gives the offset of universal time in figures, an object as a letter.
-/

namespace CertAuthority.Command

/-- **The format of a report.** -/
inductive Format where
  /-- For people. -/
  | table
  /-- For programs. -/
  | json
  deriving DecidableEq, Repr

namespace Format

/-- The format of reports that nobody has said anything about. -/
def default : Format := table

/-- All formats. -/
def all : List Format := [table, json]

/-- The name of a format. -/
def name : Format → String
  | table => "table"
  | json => "json"

/-- The format with a name. -/
def ofName? (s : String) : Option Format := all.find? fun f => f.name == s

end Format

/-- **Something to report**, in both formats. -/
class Report (α : Type) where
  /-- The lines of the table. -/
  lines : α → List String
  /-- The object. -/
  object : α → Json.Object

/-- **Prints a report.** -/
def report {α : Type} [Report α] (format : Format) (a : α) : Command Unit :=
  match format with
  | .table => print (String.join ((Report.lines a).map (· ++ "\n"))) .output
  | .json => do
    print (Json.pretty (Report.object a)) fun fault => .format (.unwritten fault)
    print "\n" .output

/-! ## Certificates -/

/-- **A summary of a certificate.** -/
structure CertificateSummary where
  /-- The serial number. -/
  serialNumber : String
  /-- The name of the subject. -/
  subject : String
  /-- The name of the issuer. -/
  issuer : String
  /-- The first instant of validity. -/
  notBefore : Calendar.Instant
  /-- The last instant of validity. -/
  notAfter : Calendar.Instant
  /-- Whether the subject may sign certificates. -/
  isCa : Bool
  /-- The alternative names of the subject. -/
  san : List String
  /-- Where the certificate is. -/
  path : Path
  /-- Where its private key is, if that is known. -/
  keyPath : Option Path
  /-- The algorithm of its key, if that is known. -/
  algorithm : Option String
  deriving DecidableEq

namespace CertificateSummary

/-- The summary of a certificate at a path. -/
def ofCertificate (c : Certificate) (path : Path) : CertificateSummary where
  serialNumber := c.serialNumber.text
  subject := c.subject
  issuer := c.issuer
  notBefore := c.notBefore
  notAfter := c.notAfter
  isCa := c.isCa
  san := c.san.map AltName.text
  path := path
  keyPath := none
  algorithm := none

/-- The summary with the key and its algorithm. -/
def withKey (s : CertificateSummary) (keyPath : Path) (algorithm : String) : CertificateSummary :=
  { s with keyPath := some keyPath, algorithm := some algorithm }

/-- The line under the title of the table. -/
def rule : String := String.ofList (List.replicate 34 '═')

/-- The lines of the table. -/
def lines (s : CertificateSummary) : List String :=
  ["Certificate", rule,
    "Serial:       " ++ s.serialNumber,
    "Subject:      " ++ s.subject,
    "Issuer:       " ++ s.issuer,
    "Not Before:   " ++ s.notBefore.text,
    "Not After:    " ++ s.notAfter.text,
    "CA:           " ++ (if s.isCa then "yes" else "no")] ++
  (if s.san = [] then [] else ["SAN:          " ++ ", ".intercalate s.san]) ++
  ["Path:         " ++ s.path.text] ++
  (s.keyPath.map fun path => "Key Path:     " ++ path.text).toList ++
  (s.algorithm.map fun name => "Algorithm:    " ++ name).toList

/-- The fields of the object. What is not known is left out. -/
def object (s : CertificateSummary) : Json.Object :=
  [("serial_number", .string s.serialNumber), ("subject", .string s.subject),
    ("issuer", .string s.issuer), ("not_before", .string s.notBefore.zuluText),
    ("not_after", .string s.notAfter.zuluText), ("is_ca", .bool s.isCa), ("san", .strings s.san),
    ("path", .string s.path.text)] ++
  (s.keyPath.map fun path => ("key_path", Json.Item.string path.text)).toList ++
  (s.algorithm.map fun name => ("algorithm", Json.Item.string name)).toList

instance : Report CertificateSummary := ⟨lines, object⟩

end CertificateSummary

/-! ## Exports -/

/-- **A summary of an export.** -/
structure ExportSummary where
  /-- The serial number of the certificate. -/
  serialNumber : String
  /-- Where it was written. -/
  path : Path
  /-- How many bytes were written. -/
  bytes : Nat
  deriving DecidableEq

namespace ExportSummary

/-- The line of the table. -/
def lines (s : ExportSummary) : List String :=
  ["Exported certificate " ++ s.serialNumber ++ " (" ++ toString s.bytes ++ " bytes DER) to "
    ++ s.path.text]

/-- The fields of the object. -/
def object (s : ExportSummary) : Json.Object :=
  [("serial_number", .string s.serialNumber), ("path", .string s.path.text),
    ("bytes", .nat s.bytes)]

instance : Report ExportSummary := ⟨lines, object⟩

end ExportSummary

end CertAuthority.Command
