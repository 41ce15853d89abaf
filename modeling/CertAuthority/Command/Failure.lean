import CertAuthority.Host

/-!
# Failures of commands

A command fails because the authority does, because an argument makes no
sense, or because its output cannot be written. `Failure.message` is the
wording that the operator sees.
-/

namespace CertAuthority

namespace Command

/-- **Why an argument makes no sense.** -/
inductive ArgumentCause where
  /-- A destination that is no file. -/
  | noFileName (path : Path)
  /-- A certificate that would be stored in the key's file. -/
  | keyFileName (name : String)
  /-- A period that ends after the last day of the calendar. -/
  | daysOutOfRange (days : Nat)
  /-- A cause in somebody else's words. -/
  | stated (text : String)
  deriving DecidableEq, Repr

/-- The wording of an argument cause. -/
def ArgumentCause.text : ArgumentCause → String
  | .noFileName path => path.text ++ " has no file name"
  | .keyFileName name =>
    "certificate file name '" ++ name ++ "' is also the private key file name"
  | .daysOutOfRange days => "--days " ++ toString days ++ " is out of range"
  | .stated text => text

/-- **Why output cannot be laid out.** -/
inductive FormatCause where
  /-- There is nowhere to put the object. -/
  | unwritten (fault : Files.Fault)
  /-- A cause in somebody else's words. -/
  | stated (text : String)
  deriving DecidableEq, Repr

/-- The wording of a format cause. -/
def FormatCause.text : FormatCause → String
  | .unwritten fault => "JSON serialization failed: " ++ fault.message
  | .stated text => text

/-- **Why a command failed.** -/
inductive Failure where
  /-- The authority failed. -/
  | authority (e : Error)
  /-- An argument makes no sense. -/
  | argument (cause : ArgumentCause)
  /-- The output cannot be laid out. -/
  | format (cause : FormatCause)
  /-- The output cannot be written. -/
  | output (fault : Files.Fault)
  deriving DecidableEq

namespace Failure

/-- **The wording of a failure.** -/
def message : Failure → String
  | authority e => e.message
  | argument cause => "invalid argument: " ++ cause.text
  | format cause => "format error: " ++ cause.text
  | output fault => "IO error: " ++ fault.message

/-- The fault behind a failure, if it is the file system's. -/
def underlying? : Failure → Option Files.Fault
  | authority e => e.underlying?
  | output fault => some fault
  | argument _ | format _ => none

end Failure

end Command

/-- **A command**: a program that may fail for the reasons commands do. -/
abbrev Command := ExceptT Command.Failure Program

namespace Command

/-- What the authority does, as part of a command. -/
def ofAction {α : Type} (p : Action α) : Command α :=
  ExceptT.mk do
    match ← ExceptT.run p with
    | .ok a => return .ok a
    | .error e => return .error (.authority e)

/-- A result of the authority that is there already, as part of a
command. -/
def ofExcept {α : Type} (r : Except Error α) : Command α := ofAction (Action.ofExcept r)

/-- Prints a text; if that is refused, the failure is the given one. -/
def print (text : String) (failure : Files.Fault → Failure) : Command Unit :=
  ExceptT.mk do
    match ← Program.request (.print text) with
    | .ok () => return .ok ()
    | .error fault => return .error (failure fault)

/-- **Runs a command on a host.** -/
def runOn {α : Type} (c : Command α) (h : Host) : Except Failure α × Host :=
  Program.runOn (ExceptT.run c) h

end Command

end CertAuthority
