import CertAuthority.Text.Base64
import CertAuthority.Text.Blank
import CertAuthority.Text.Utf8

/-!
# Envelopes

Private keys are taken from texts in a looser form than certificates. An
*envelope* is the first thing in a text that looks like a block: a first
mark with any label, anywhere in a line, and the last mark with the same
label. Between them there may be header lines, ended by an empty line, and
blanks anywhere among the base64 digits.

Marks are looked for by a scanner that does not go back: when a character
breaks a partial match, the scan for the mark starts anew after that
character. A mark with an extra dash before it is therefore not seen.
-/

namespace CertAuthority.Pem

/-- Goes on looking for a mark of which `left` is still to come. The result
is what was passed over, the mark included, and what follows. -/
def scanFor (mark : List Char) : (left text : List Char) → Option (List Char × List Char)
  | [], rest => some ([], rest)
  | _ :: _, [] => none
  | m :: left, c :: rest =>
    (scanFor mark (if c = m then left else mark) rest).map
      fun (passed, rest) => (c :: passed, rest)
  termination_by _ text => text

/-- **The text before the first mark that is seen, and the text after
it.** -/
def cutAt? (mark : String) (text : List Char) : Option (List Char × List Char) :=
  (scanFor mark.toList mark.toList text).map fun (passed, rest) =>
    (passed.take (passed.length - mark.length), rest)

/-- Skips the blanks that may follow a first mark. -/
def skipSpace (text : List Char) : List Char :=
  text.dropWhile fun c => c == ' ' || c == '\t' || c == '\n' || c == '\r'

/-- The header lines and the rest of what an envelope holds. -/
def cutHeaders (body : List Char) : List Char × List Char :=
  match cutAt? "\n\n" body with
  | some parts => parts
  | none =>
    match cutAt? "\r\n\r\n" body with
    | some parts => parts
    | none => ([], body)

/-- Whether every line of a text has a colon in it, as header lines do. -/
def areHeaders (text : List Char) : Bool :=
  text.isEmpty || (text.splitOn '\n').all fun line => line.contains ':'

/-- **The bytes in the first envelope of a text**, if it is in order. -/
def openEnvelope? (text : List Char) : Option Bytes := do
  let (_, text) ← cutAt? "-----BEGIN " text
  let (label, text) ← cutAt? "-----" text
  let (body, text) ← cutAt? "-----END " (skipSpace text)
  let (endLabel, _) ← cutAt? "-----" text
  let (headers, payload) := cutHeaders body
  if label = [] ∨ label ≠ endLabel ∨ !areHeaders headers then none
  else (Text.Base64.decode (Text.Utf8.encode (Text.squeeze payload))).toOption

end CertAuthority.Pem
