import CertAuthority.Command.Generate
import CertAuthority.Command.Line
import CertAuthority.Command.Show
import CertAuthority.Store.ConfigFile
import CertAuthority.Text.Decimal

/-!
# Invocations

What the program can be called with. On the first level of its command line
stand the configuration file, the metadata directory, the component and the
format of the report; then comes one of three subcommands with switches of
its own. The first two may also be set in the environment.

`Invocation.parse` reads a command line, and `Invocation.perform` does what
it asks for.
-/

namespace CertAuthority.Command

/-! ## Values -/

/-- A value, or the fault of a value that cannot be read. -/
def readable {α : Type} (a : Option α) : Except UsageFault α :=
  match a with
  | some a => .ok a
  | none => .error .unreadableValue

/-- Reads a path, which is never empty. -/
def readPath (s : String) : Except UsageFault Path :=
  if s = "" then .error .invalidValue else .ok ⟨s⟩

/-- Reads the name of a format. -/
def readFormat (s : String) : Except UsageFault Format :=
  match Format.ofName? s with
  | some f => .ok f
  | none => .error .invalidValue

/-- The greatest number of days that can be asked for. -/
def mostDays : Nat := Nat.pow 2 32 - 1

/-- Reads a number of days, perhaps with a plus sign before it. Nought may
have a minus sign. -/
def readDays (s : String) : Except UsageFault Nat :=
  readable <| match s.toList with
    | '-' :: digits => (Text.decimal? digits).filter (· = 0)
    | digits => (Text.plusDecimal? digits).filter (· ≤ mostDays)

/-- Reads an internet address. -/
def readAddress (s : String) : Except UsageFault IpAddress := readable (IpAddress.parse? s)

/-- Reads the name of an algorithm. -/
def readAlgorithm (s : String) : Except UsageFault Key.Algorithm :=
  readable (Key.Algorithm.parse? s)

/-- The operand that is read by the given function. -/
def operandOf {α : Type} (read : String → Except UsageFault α) : Operand :=
  .value fun s =>
    match read s with
    | .ok _ => none
    | .error fault => some fault

/-- An operand that may be any text. -/
def textOperand : Operand := operandOf fun s => Except.ok s

/-! ## Levels -/

/-- The switch that asks for help. -/
def helpSwitch : Switch := ⟨"help", some 'h', .instead .help, false⟩

/-- The first level. -/
def topLevel : Level where
  switches :=
    [⟨"config", some 'c', operandOf readPath, false⟩,
      ⟨"metadata-dir", some 'm', operandOf readPath, false⟩,
      ⟨"component", none, textOperand, false⟩,
      ⟨"format", some 'f', operandOf readFormat, false⟩,
      helpSwitch,
      ⟨"version", some 'V', .instead .version, false⟩]
  subcommands := ["generate", "show", "export-der"]

/-- The level of `generate`. -/
def generateLevel : Level where
  switches :=
    [⟨"subject", none, textOperand, false⟩,
      ⟨"cluster-id", none, textOperand, false⟩,
      ⟨"scm-id", none, textOperand, false⟩,
      ⟨"days", none, operandOf readDays, false⟩,
      ⟨"ca", none, .none, false⟩,
      ⟨"dns", none, textOperand, true⟩,
      ⟨"ip", none, operandOf readAddress, true⟩,
      ⟨"algorithm", none, operandOf readAlgorithm, false⟩,
      ⟨"file-name", none, textOperand, false⟩,
      ⟨"force", none, .none, false⟩,
      helpSwitch]
  subcommands := []

/-- The level of `show`. -/
def showLevel : Level where
  switches := [⟨"file-name", none, textOperand, false⟩, helpSwitch]
  subcommands := []

/-- The level of `export-der`. -/
def exportLevel : Level where
  switches :=
    [⟨"out", some 'o', operandOf readPath, false⟩,
      ⟨"file-name", none, textOperand, false⟩,
      ⟨"force", none, .none, false⟩,
      helpSwitch]
  subcommands := []

/-! ## Invocations -/

/-- **What a subcommand asks for.** -/
inductive Task where
  /-- To generate a certificate. -/
  | generate (r : GenerateRequest)
  /-- To show one. -/
  | showCertificate (fileName : Option String)
  /-- To export one. -/
  | exportDer (out : Path) (fileName : Option String) (force : Bool)
  deriving DecidableEq

/-- **What the program is called with.** -/
structure Invocation where
  /-- The configuration file. -/
  config : Option Path
  /-- The metadata directory, if not the configured one. -/
  metadataDir : Option Path
  /-- The component. -/
  component : String
  /-- The format of the report. -/
  format : Format
  /-- What is to be done. -/
  task : Task
  deriving DecidableEq

/-- The environment of the program: names and values. -/
abbrev Environment := List (String × String)

namespace Scan

/-- The value of a switch, read. -/
def optional {α : Type} (s : Scan) (name : String) (read : String → Except UsageFault α) :
    Except UsageFault (Option α) :=
  match s.value? name with
  | none => .ok none
  | some value => (read value).map some

/-- The value of a switch that has to be there. -/
def required {α : Type} (s : Scan) (name : String) (read : String → Except UsageFault α) :
    Except UsageFault α :=
  match s.value? name with
  | none => .error .missingArgument
  | some value => read value

/-- Takes the value of a switch from the environment, unless it was given. -/
def fromEnvironment (l : Level) (env : Environment) (name word : String) (s : Scan) :
    Except UsageFault Scan :=
  match l.long? name.toList, env.lookup word with
  | some switch, some value => if s.has name then .ok s else s.take switch value
  | _, _ => .ok s

end Scan

namespace Task

/-- Reads the words of a level to their end. -/
def readLevel (l : Level) (words : List String) : Except UsageFault Scan := do
  let (s, _) ← scan l {} words
  s.settle

/-- Reads the words after `generate`. -/
def parseGenerate (words : List String) : Except UsageFault GenerateRequest := do
  let s ← readLevel generateLevel words
  return {
    subject := ← s.required "subject" .ok
    clusterId := ← s.required "cluster-id" .ok
    scmId := ← s.required "scm-id" .ok
    days := ← s.optional "days" readDays
    ca := s.has "ca"
    dnsNames := s.values "dns"
    ipAddresses := ← (s.values "ip").mapM readAddress
    algorithm := ← s.optional "algorithm" readAlgorithm
    fileName := s.value? "file-name"
    force := s.has "force" }

/-- Reads the words after `show`. -/
def parseShow (words : List String) : Except UsageFault Task := do
  let s ← readLevel showLevel words
  return .showCertificate (s.value? "file-name")

/-- Reads the words after `export-der`. -/
def parseExport (words : List String) : Except UsageFault Task := do
  let s ← readLevel exportLevel words
  return .exportDer (← s.required "out" readPath) (s.value? "file-name") (s.has "force")

/-- Reads a subcommand and the words after it. -/
def parse (name : String) (words : List String) : Except UsageFault Task :=
  match name with
  | "generate" => (parseGenerate words).map .generate
  | "show" => parseShow words
  | "export-der" => parseExport words
  | _ => .error .unknownSubcommand

end Task

namespace Invocation

/-- The component if none is given. -/
def defaultComponent : String := "scm"

/-- The variables of the environment that stand for switches. -/
def fallbacks : List (String × String) :=
  [("config", "SCM_CA_CONFIG"), ("metadata-dir", "SCM_CA_METADATA_DIR")]

/-- **Reads a command line.** The words after a subcommand are read before
the values on the first level are looked at. -/
def parse (words : List String) (env : Environment) : Except UsageFault Invocation := do
  let (s, rest) ← scan topLevel {} words
  let task ← match rest with
    | none => pure none
    | some (name, words) => (Task.parse name words).map some
  let s ← s.settle
  let s ← fallbacks.foldlM (fun s (name, word) =>
    s.fromEnvironment topLevel env name word) s
  match task with
  | none => throw (if s.given = [] then .nothingGiven else .noSubcommand)
  | some task =>
    return {
      config := ← s.optional "config" readPath
      metadataDir := ← s.optional "metadata-dir" readPath
      component := (s.value? "component").getD defaultComponent
      format := (← s.optional "format" readFormat).getD .default
      task := task }

/-- **The configuration to work with**: the one in the configuration file,
or the default one, with the metadata directory that was given. -/
def resolveConfig (file : Option Path) (metadataDir : Option Path) : Action SecurityConfig := do
  let config ← match file with
    | some path => SecurityConfig.load path
    | none => pure .default
  let config := { config with metadataDir := metadataDir.getD config.metadataDir }
  Action.note (.configurationResolved config.metadataDir)
  return config

/-- **Does what is asked for.** -/
def perform (i : Invocation) : Command Unit := do
  let config ← ofAction (resolveConfig i.config i.metadataDir)
  match i.task with
  | .generate r => generate config i.component i.format r
  | .showCertificate fileName => showCertificate config i.component i.format fileName
  | .exportDer out fileName force => exportDer config i.component i.format out fileName force

end Invocation

end CertAuthority.Command
