import CertAuthority.Error
import CertAuthority.Pem.Lines
import CertAuthority.Text.Blank

/-!
# Bundles

A bundle is a text with blocks in it, one after another, and anything
around them: comments, blank lines, the output of other tools. A block
begins at a line that starts with its marker and ends at the next line that
starts with the end marker, whatever label that one carries.

`readBlock` finds the first block of a text given by lines; `readBlocks`
goes on to the end and stops at the first block that cannot be read.
-/

namespace CertAuthority.Pem

/-- **A block**: its label and its bytes. -/
structure Block where
  /-- What the block says it holds. -/
  label : String
  /-- The bytes it holds. -/
  contents : Bytes
  deriving DecidableEq, Repr

/-- Five dashes. -/
def dashes : List Char := "-----".toList

/-- The text up to the first five dashes, and what follows them, if there
are any. -/
def cutAtDashes : List Char → Option (List Char × List Char)
  | [] => none
  | c :: rest =>
    match dropExpected? dashes (c :: rest) with
    | some after => some ([], after)
    | none => (cutAtDashes rest).map fun (before, after) => (c :: before, after)

/-- **The label in the first line of a block**: what follows the marker up
to the next dash. The line has to have five dashes in a row again. -/
def labelOf? (line : List Char) : Option (List Char) := do
  let rest ← dropExpected? dashes line
  let _ ← cutAtDashes rest
  let label ← dropExpected? "BEGIN ".toList rest
  return label.takeWhile (· != '-')

/-- Reads the lines of a block up to its last one: the digits in them, and
the lines after the block. -/
def readBody : List (List Char) → Option (List Char × List (List Char))
  | [] => none
  | line :: lines =>
    if startsWith "-----END ".toList line then some ([], lines)
    else (readBody lines).map fun (body, rest) => (Text.stripEnd line ++ body, rest)

theorem length_readBody_le {lines : List (List Char)} {body : List Char}
    {rest : List (List Char)} (h : readBody lines = some (body, rest)) :
    rest.length ≤ lines.length := by
  induction lines generalizing body with
  | nil => simp [readBody] at h
  | cons line lines ih =>
    rw [readBody] at h
    split at h
    · cases h; simp
    · obtain ⟨⟨body', rest'⟩, h', e⟩ := Option.map_eq_some_iff.1 h
      cases e
      exact Nat.le_succ_of_le (ih h')

/-- **Reads the first block of a text**: nothing if there is none, else the
block and the lines after it, or why it cannot be read. -/
def readBlock : List (List Char) → Except BlockFault (Option (Block × List (List Char)))
  | [] => .ok none
  | line :: lines =>
    if startsWith "-----BEGIN ".toList line then
      match labelOf? line with
      | none => .error .header
      | some label =>
        match readBody lines with
        | none => .error .incomplete
        | some (body, rest) =>
          match Text.Base64.decodeJoined? (Text.Utf8.encode body) with
          | none => .error .base64
          | some contents => .ok (some (⟨String.ofList label, contents⟩, rest))
    else readBlock lines

theorem length_readBlock_lt {lines : List (List Char)} {block : Block}
    {rest : List (List Char)} (h : readBlock lines = .ok (some (block, rest))) :
    rest.length < lines.length := by
  induction lines with
  | nil => simp [readBlock] at h
  | cons line lines ih =>
    rw [readBlock] at h
    split at h
    · split at h
      · simp at h
      · split at h
        · simp at h
        · rename_i hbody
          split at h
          · simp at h
          · simp only [Except.ok.injEq, Option.some.injEq, Prod.mk.injEq] at h
            obtain ⟨-, rfl⟩ := h
            exact Nat.lt_succ_of_le (length_readBody_le hbody)
    · exact Nat.lt_succ_of_lt (ih h)

/-- **Reads the blocks of a text**, each through `use`, in order, up to the
first that cannot be read or used. -/
def readBlocks {ε α : Type} (fault : BlockFault → ε) (use : Block → Except ε α)
    (lines : List (List Char)) : Except ε (List α) :=
  match _h : readBlock lines with
  | .error e => .error (fault e)
  | .ok none => .ok []
  | .ok (some (block, rest)) =>
    match use block with
    | .error e => .error e
    | .ok a =>
      match readBlocks fault use rest with
      | .error e => .error e
      | .ok as => .ok (a :: as)
  termination_by lines.length
  decreasing_by exact length_readBlock_lt _h

end CertAuthority.Pem
