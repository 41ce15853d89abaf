import CertAuthority.Program
import CertAuthority.Text.Utf8

/-!
# Writing files in one piece

A file appears with its whole content or not at all. The content goes into
a temporary file in the directory of the target, which only its owner may
read, and the temporary file is then given the target's name. Whoever reads
the target in the meantime finds the file that was there before, or none.
If any step is refused the temporary file is removed again, unless that is
refused, too: a write that has failed says why, and not what has become of the
clean-up.

Directories that are missing on the way to the target are made, and stay
even if the file cannot be written.
-/

namespace CertAuthority

namespace Path

/-- **The directory a path is in**; a bare name is in the current one. -/
def directory (p : Path) : Path :=
  match p.parent? with
  | none => ⟨"."⟩
  | some d => if d.text = "" then ⟨"."⟩ else d

/-- The paths above a path, the nearest first, at most as many as the given
number. -/
def above : (limit : Nat) → Path → List Path
  | 0, _ => []
  | limit + 1, p =>
    match p.parent? with
    | none => []
    | some d => d :: above limit d

/-- **A path and all paths above it.** Every one is shorter than the one
below it, so there are no more than the text has characters. -/
def ancestors (p : Path) : List Path := p :: above p.text.length p

end Path

namespace Files

open Program (request)

/-- The permissions of the directories that hold security material. -/
def privateDirectoryMode : Nat := 0o700

/-- The permissions of the files that hold it. -/
def privateFileMode : Nat := 0o600

/-- Whether a path leads to a directory. -/
def isDirectory (p : Path) : Program Bool := do
  return (← request (.kind p)) = some .directory

/-- Makes one directory. That there is one already is as good. -/
def makeOne (p : Path) : Program (Except Fault Unit) := do
  match ← request (.makeDirectory p privateDirectoryMode) with
  | .ok () => return .ok ()
  | .error fault => return if ← isDirectory p then .ok () else .error fault

/-- **Makes a directory and those above it**, as far as they are missing.
The list holds the path itself and the paths above it. -/
def makeAll : List Path → Program (Except Fault Unit)
  | [] => return .error (.stated "failed to create whole tree")
  | p :: above =>
    if p.text = "" then return .ok ()
    else do
      match ← request (.makeDirectory p privateDirectoryMode) with
      | .ok () => return .ok ()
      | .error fault =>
        if fault = .notFound then
          match ← makeAll above with
          | .ok () => makeOne p
          | .error fault => return .error fault
        else return if ← isDirectory p then .ok () else .error fault

/-- **Sees to it that a directory is there.** -/
def ensureDirectory (dir : Path) : Action Unit := do
  if ← isDirectory dir then return
  Action.orFault dir (makeAll dir.ancestors)
  Action.note (.directoryCreated dir)

/-- Gives a temporary file its name. -/
def settle (temporary path : Path) : WriteMode → Action Unit
  | .overwrite => Action.orFault path (request (.replace temporary path))
  | .createNew => do
    match ← request (.moveNew temporary path) with
    | .ok () => return
    | .error fault =>
      if fault = .alreadyExists then Action.note (.createRaceLost path)
      throw (.ofFault path fault)

/-- Fills a temporary file and gives it its name. -/
def fillAndSettle (temporary path : Path) (content : Bytes) (mode : WriteMode) : Action Unit := do
  Action.orFault temporary (request (.fill temporary content))
  Action.orFault temporary (request (.restrict temporary privateFileMode))
  settle temporary path mode

/-- Removes a temporary file whose purpose has failed. Nobody looks at the
answer, so a file that cannot be removed stays without a word. -/
def discard (temporary : Path) : Action Unit := do
  let _ ← request (.remove temporary)

/-- **Writes a file in one piece.** -/
def write (path : Path) (content : Bytes) (mode : WriteMode) : Action Unit := do
  if mode = .createNew then
    if (← request (.kind path)).isSome then
      Action.note (.overwriteRefused path)
      throw (.fileAlreadyExists path)
  let dir := path.directory
  ensureDirectory dir
  let temporary ← Action.orFault dir (request (.createTemporary dir path))
  try fillAndSettle temporary path content mode
  catch e =>
    discard temporary
    throw e
  Action.note (.fileWritten path content.length mode)

/-- **Writes a text as a file in one piece.** -/
def writeText (path : Path) (text : String) (mode : WriteMode) : Action Unit :=
  write path (Text.Utf8.encode text.toList) mode

/-- **Reads a file as text.** -/
def readText (path : Path) : Action String := do
  let content ← Action.orFault path (request (.read path))
  Action.note (.fileRead path content.length)
  match Text.Utf8.decode content with
  | .ok chars => return String.ofList chars
  | .error fault => throw (.encoding (.notUtf8 path fault))

end Files

end CertAuthority
