import CertAuthority.Text.Base64
import CertAuthority.Text.Utf8

/-!
# Blocks of text

Bytes that travel through mail and terminals are wrapped in a block: a
first line that names what they are, their base64 text in lines of
sixty-four digits, and a last line with the same name. `encodeBlock` writes
such a block, every line of it ended.
-/

namespace CertAuthority.Pem

/-- The number of digits in a full line. -/
def lineWidth : Nat := 64

/-- Cuts a list into pieces of the given size; the last one may be
shorter. -/
def chunks {α : Type} (size : Nat) (l : List α) : List (List α) :=
  if _h : l = [] ∨ size = 0 then []
  else l.take size :: chunks size (l.drop size)
  termination_by l.length
  decreasing_by
    have : l.length ≠ 0 := by simp_all
    simp only [List.length_drop]
    omega

/-- The text of a line of digits. Bytes that are no text leave the line
empty. -/
def lineText (line : Bytes) : String := (Text.Utf8.decode? line).getD ""

/-- The first line of a block. -/
def beginLine (label : String) : String := "-----BEGIN " ++ label ++ "-----"

/-- The last line of a block. -/
def endLine (label : String) : String := "-----END " ++ label ++ "-----"

/-- The lines of a block. -/
def blockLines (label : String) (der : Bytes) : List String :=
  beginLine label :: (chunks lineWidth (Text.Base64.encode der)).map lineText ++ [endLine label]

/-- **The block of a byte string.** -/
def encodeBlock (label : String) (der : Bytes) : String :=
  String.join ((blockLines label der).map (· ++ "\n"))

end CertAuthority.Pem
