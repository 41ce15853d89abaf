import CertAuthority.Command.Run
import Std.Time.DateTime.Timestamp

/-!
# The program on a machine

The outer layer of the program: it answers the requests of `Command.run`
with what the machine offers. Everything is decided elsewhere.
-/

namespace CertAuthority.Machine

/-! ## Faults -/

/-- The number of a fault, which some operations give as a word below
zero. -/
def numberOf (code : UInt32) : Nat := code.toInt32.toInt.natAbs

/-- The fault behind an error of the machine. -/
def faultOf : IO.Error → Files.Fault
  | .alreadyExists _ code _ | .otherError code _ | .resourceBusy code _
  | .resourceVanished code _ | .unsupportedOperation code _ | .hardwareFault code _
  | .unsatisfiedConstraints code _ | .illegalOperation code _ | .protocolError code _
  | .timeExpired code _ | .interrupted _ code _ | .noFileOrDirectory _ code _
  | .invalidArgument _ code _ | .permissionDenied _ code _ | .resourceExhausted _ code _
  | .inappropriateType _ code _ | .noSuchThing _ code _ => .system (numberOf code)
  | .unexpectedEof => .stated "unexpected end of file"
  | .userError text => .stated text

/-- What an operation does, or its fault. -/
def attempt {α : Type} (operation : IO α) : IO (Except Files.Fault α) := do
  try return .ok (← operation)
  catch e => return .error (faultOf e)

/-- An operation on paths, none of which may have a NUL character. -/
def onPaths {α : Type} (paths : List Path) (operation : IO α) : IO (Except Files.Fault α) :=
  if paths.any Files.Tree.hasNul then return .error .nulInPath else attempt operation

/-! ## Time -/

/-- The current instant, to the microsecond. -/
def now : IO Calendar.Instant := do
  let nanos := (← Std.Time.Timestamp.now).toNanosecondsSinceUnixEpoch.val
  return ⟨nanos / 1000000000, (nanos % 1000000000).toNat / 1000 * 1000⟩

/-! ## Files -/

/-- Whether something stands at the place that a text names. -/
def resolves (text : String) : IO Bool := do
  match ← attempt (IO.FS.realPath text) with
  | .ok _ => return true
  | .error _ => return false

/-- What a path leads to: only a directory has an entry for itself. The
empty path leads nowhere. -/
def kind (path : Path) : IO (Option Files.Kind) := do
  if path.text = "" || Files.Tree.hasNul path then return none
  if ← resolves (path.join ⟨"."⟩).text then return some .directory
  if ← resolves path.text then return some .file
  return none

/-- Makes a directory. -/
def makeDirectory (path : Path) (mode : Nat) : IO Unit := do
  IO.FS.createDir path.text
  IO.Prim.setAccessRights path.text mode.toUInt32

/-- The number of random bytes in the name of a temporary file. -/
def nameSize : USize := 3

/-- How many names are tried for a temporary file. -/
def nameAttempts : Nat := 100

/-- Makes an empty file of a random name other than the target's, with the
given number of attempts. -/
def createTemporary (dir target : Path) : (attempts : Nat) → IO (Except Files.Fault Path)
  | 0 => return .error .alreadyExists
  | attempts + 1 => do
    let name := ".tmp" ++ Bytes.hex (← IO.getRandomBytes nameSize).toList
    if target.fileName? = some name then createTemporary dir target attempts
    else
      let path := dir.join ⟨name⟩
      match ← onPaths [dir] (IO.FS.Handle.mk path.text .writeNew) with
      | .ok _ =>
        IO.Prim.setAccessRights path.text Files.Tree.temporaryMode.toUInt32
        return .ok path
      | .error fault =>
        if fault = .alreadyExists then createTemporary dir target attempts
        else return .error fault

/-- Gives a file another name that no entry has. `Host.answer` does this in one
step; here the file first gets the other name, which fails if there is such an
entry, and then loses its own. A machine that refuses the second of these is not
asked again: the file has its name by then, and a second one. -/
def moveNew (source target : Path) : IO Unit := do
  IO.FS.hardLink source.text target.text
  let _ ← attempt (IO.FS.removeFile source.text)

/-! ## Requests -/

/-- Writes a text at once. -/
def writeTo (stream : IO.FS.Stream) (text : String) : IO Unit := do
  stream.putStr text
  stream.flush

/-- Takes note of an event, if the filter lets operators see it. -/
def note (filter : LogFilter) (event : Event) : IO Unit := do
  if filter.admits event then
    let time := (← now).zuluText
    writeTo (← IO.getStderr) (LogFilter.stampedLine time event)

/-- **Answers a request.** -/
def answer (filter : LogFilter) : (r : Request) → IO r.Answer
  | .note event => note filter event
  | .random count => return (← IO.getRandomBytes count.toUSize).toList
  | .today => return (← now).date
  | .externalKey => return .error (.keyGeneration "no key source")
  | .kind path => kind path
  | .makeDirectory path mode => onPaths [path] (makeDirectory path mode)
  | .createTemporary dir target => createTemporary dir target nameAttempts
  | .fill path content => onPaths [path] (IO.FS.writeBinFile path.text ⟨content.toArray⟩)
  | .restrict path mode => onPaths [path] (IO.Prim.setAccessRights path.text mode.toUInt32)
  | .replace source target =>
    if Files.Tree.hasNul target then return .error .invalidArgument
    else onPaths [source] (IO.FS.rename source.text target.text)
  | .moveNew source target => onPaths [source, target] (moveNew source target)
  | .remove path => onPaths [path] (IO.FS.removeFile path.text)
  | .read path => onPaths [path] do return (← IO.FS.readBinFile path.text).toList
  | .print text => attempt do writeTo (← IO.getStdout) text
  | .complain text => do writeTo (← IO.getStderr) text

/-- The variables of the environment that the program looks at. -/
def watched : List String :=
  Command.logVariable :: Command.Invocation.fallbacks.map Prod.snd

/-- The environment of the program. -/
def environment : IO Command.Environment :=
  watched.filterMapM fun name => do
    return (← IO.getEnv name).map fun value => (name, value)

end CertAuthority.Machine

open CertAuthority in
/-- **The program.** -/
def main (words : List String) : IO UInt32 := do
  let env ← Machine.environment
  let filter := LogFilter.ofText (Command.logText env)
  let code ← (Command.run words env).run (Machine.answer filter)
  return code.toUInt32
