import CertAuthority.Certificate.Basic
import CertAuthority.Files.WriteMode
import CertAuthority.Text.Quoted

/-!
# The event log

What the authority does leaves a trace: one event for every file that is
written or read, every key that is made and every certificate that is
parsed, built or stored. An event names what happened and what it happened
to; nothing in it is secret, since no event holds a key.

`Event.line` is the line that operators read: how grave the event is, the
part of the program it comes from, what happened, and the particulars as
fields. `Event.level` and `Event.origin` are what a log filter goes by.
-/

namespace CertAuthority

/-- **How grave an event is**, the gravest first. -/
inductive Level where
  /-- Something failed. -/
  | error
  /-- Something is not as it should be. -/
  | warn
  /-- Something was done. -/
  | info
  /-- Something happened on the way. -/
  | debug
  /-- Anything else. -/
  | trace
  deriving DecidableEq, Repr

namespace Level

/-- All levels, the gravest first. -/
def all : List Level := [error, warn, info, debug, trace]

/-- The name of a level. -/
def name : Level → String
  | error => "ERROR"
  | warn => "WARN"
  | info => "INFO"
  | debug => "DEBUG"
  | trace => "TRACE"

/-- How much a log of this level holds: the number of levels in it. -/
def verbosity : Level → Nat
  | error => 1
  | warn => 2
  | info => 3
  | debug => 4
  | trace => 5

end Level

/-- **Something that happened.** -/
inductive Event where
  /-- A configuration file was read. -/
  | configurationLoaded (path : Path)
  /-- It is settled which configuration a command works with. -/
  | configurationResolved (metadataDir : Path)
  /-- It is settled where the files of a component are. -/
  | componentResolved (component : String) (dir : Path)
  /-- A key was made. -/
  | keyGenerated (algorithm : Key.Algorithm)
  /-- An encoding turned out to be a certificate. -/
  | certificateParsed (serial : SerialNumber) (subject : String)
  /-- The blocks of a text turned out to be certificates. -/
  | bundleDecoded (count : Nat)
  /-- A certificate was signed. -/
  | certificateBuilt (subject : String) (serial : SerialNumber) (isCa : Bool)
      (notAfter : Calendar.Instant)
  /-- A directory was made. -/
  | directoryCreated (dir : Path)
  /-- There is a file where one was to be created. -/
  | overwriteRefused (path : Path)
  /-- An entry came up where a file was to be created. -/
  | createRaceLost (path : Path)
  /-- A file was written. -/
  | fileWritten (path : Path) (size : Nat) (mode : Files.WriteMode)
  /-- A file was read. -/
  | fileRead (path : Path) (size : Nat)
  /-- A certificate was stored. -/
  | certificateStored (component : String) (serial : SerialNumber) (path : Path)
  /-- A private key was stored. -/
  | keyStored (component : String) (path : Path)
  /-- A certificate was read from where it is stored. -/
  | certificateLoaded (component : String) (serial : SerialNumber) (path : Path)
  /-- A component has a new certificate. -/
  | certificateGenerated (component : String) (serial : SerialNumber) (days : Nat)
  deriving DecidableEq

namespace Event

/-- How grave an event is. -/
def level : Event → Level
  | overwriteRefused .. | createRaceLost .. => .warn
  | certificateBuilt .. | fileWritten .. | certificateStored .. | keyStored ..
  | certificateGenerated .. => .info
  | configurationLoaded .. | configurationResolved .. | componentResolved .. | keyGenerated ..
  | certificateParsed .. | bundleDecoded .. | directoryCreated .. | fileRead ..
  | certificateLoaded .. => .debug

/-- **The part of the program an event comes from.** -/
def origin : Event → String
  | configurationLoaded .. => "scm_pki::config"
  | configurationResolved .. => "scm_pki_cli::commands"
  | componentResolved .. => "scm_pki::paths"
  | keyGenerated .. => "scm_pki::keys"
  | certificateParsed .. => "scm_pki::certificate"
  | bundleDecoded .. | certificateStored .. | keyStored .. | certificateLoaded .. =>
    "scm_pki::codec"
  | certificateBuilt .. => "scm_pki::builder"
  | directoryCreated .. | overwriteRefused .. | createRaceLost .. | fileWritten .. | fileRead .. =>
    "scm_pki::persist"
  | certificateGenerated .. => "scm_pki_cli::commands::generate"

/-- What happened. -/
def message : Event → String
  | configurationLoaded .. => "loaded security configuration"
  | configurationResolved .. => "resolved security configuration"
  | componentResolved .. => "resolved component directory"
  | keyGenerated .. => "generated key pair"
  | certificateParsed .. => "parsed certificate"
  | bundleDecoded .. => "decoded certificate bundle"
  | certificateBuilt .. => "built self-signed certificate"
  | directoryCreated .. => "created directory"
  | overwriteRefused .. => "refusing to overwrite existing file"
  | createRaceLost .. => "lost create race for file"
  | fileWritten .. => "wrote file"
  | fileRead .. => "read file"
  | certificateStored .. => "stored certificate"
  | keyStored .. => "stored private key"
  | certificateLoaded .. => "loaded certificate"
  | certificateGenerated .. => "generated certificate"

/-- **What it happened to**, as fields with their texts. -/
def fields : Event → List (String × String)
  | configurationLoaded path => [("path", path.text)]
  | configurationResolved dir => [("metadata_dir", dir.text)]
  | componentResolved component dir => [("component", Text.quoted component), ("dir", dir.text)]
  | keyGenerated algorithm => [("algorithm", algorithm.name)]
  | certificateParsed serial subject => [("serial", serial.text), ("subject", subject)]
  | bundleDecoded count => [("count", toString count)]
  | certificateBuilt subject serial isCa notAfter =>
    [("subject", subject), ("serial", serial.text), ("ca", if isCa then "true" else "false"),
      ("not_after", notAfter.spacedText)]
  | directoryCreated dir => [("dir", dir.text)]
  | overwriteRefused path | createRaceLost path => [("path", path.text)]
  | fileWritten path size mode =>
    [("path", path.text), ("bytes", toString size), ("mode", mode.name)]
  | fileRead path size => [("path", path.text), ("bytes", toString size)]
  | certificateStored component serial path | certificateLoaded component serial path =>
    [("component", component), ("serial", serial.text), ("path", path.text)]
  | keyStored component path => [("component", component), ("path", path.text)]
  | certificateGenerated component serial days =>
    [("component", component), ("serial", serial.text), ("days", toString days)]

/-- The line of an event after its level. -/
def tail (e : Event) : String :=
  e.origin ++ ": " ++ e.message ++ String.join (e.fields.map fun (name, value) =>
    " " ++ name ++ "=" ++ value)

/-- **The line of an event** in the log, without the time. -/
def line (e : Event) : String := e.level.name ++ " " ++ e.tail

end Event

end CertAuthority
