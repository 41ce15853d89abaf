import CertAuthority.Command.Invocation
import CertAuthority.Command.LogFilter

/-!
# Running the program

`Command.run` is the whole program: it reads the command line, does what it
asks for, and returns the exit code. A failure is complained about in one
line.
-/

namespace CertAuthority.Command

/-- The name and version of the program. -/
def versionLine : String := "scm-ca 0.1.0\n"

/-- The lines that say how the program is called. -/
def usageLines : List String :=
  ["Usage: scm-ca [OPTIONS] <COMMAND>",
    "",
    "Commands:",
    "  generate    Generate a key pair and a self-signed certificate",
    "  show        Show a stored certificate",
    "  export-der  Write a stored certificate as DER",
    "  help        Print this message",
    "",
    "Options:",
    "  -c, --config <CONFIG>              JSON security configuration file",
    "  -m, --metadata-dir <METADATA_DIR>  Metadata directory",
    "      --component <COMPONENT>        Component label",
    "  -f, --format <FORMAT>              table or json",
    "  -h, --help                         Print help",
    "  -V, --version                      Print version"]

/-- How the program is called. -/
def usageText : String := String.join (usageLines.map (· ++ "\n"))

/-- What is wrong with a command line, in words. -/
def usageProblem : UsageFault → String
  | .help | .version | .nothingGiven => ""
  | .noSubcommand => "error: a subcommand is required\n\n"
  | .unknownSubcommand => "error: unrecognized subcommand\n\n"
  | .unknownArgument => "error: unexpected argument\n\n"
  | .missingArgument => "error: a required argument was not provided\n\n"
  | .repeatedArgument => "error: an argument cannot be used multiple times\n\n"
  | .invalidValue => "error: a value is required or not one of the possible values\n\n"
  | .unreadableValue => "error: invalid value for an argument\n\n"
  | .unwantedValue => "error: unexpected value for an argument\n\n"

/-- Answers a command line that asks for no command. -/
def answerUsage (fault : UsageFault) : Program Unit := do
  match fault with
  | .version => discard (Program.request (.print versionLine))
  | .help => discard (Program.request (.print usageText))
  | _ => Program.request (.complain (usageProblem fault ++ usageText))

/-- The exit code of a failure. -/
def failureCode : Nat := 1

/-- **Does what an invocation asks for**, and returns the exit code. -/
def perform (i : Invocation) : Program Nat := do
  match ← ExceptT.run i.perform with
  | .ok () => return 0
  | .error failure =>
    Program.request (.complain ("Error: " ++ failure.message ++ "\n"))
    return failureCode

/-- The variable of the environment that holds the log filter. -/
def logVariable : String := "RUST_LOG"

/-- The text of the log filter. -/
def logText (env : Environment) : String := (env.lookup logVariable).getD ""

/-- **The program**: from its command line and environment to its exit
code. -/
def run (words : List String) (env : Environment) : Program Nat := do
  (LogFilter.complaints (logText env)).forM fun text => Program.request (.complain text)
  match Invocation.parse words env with
  | .error fault =>
    answerUsage fault
    return fault.exitCode
  | .ok i => perform i

end CertAuthority.Command
