import CertAuthority.Certificate.Basic
import CertAuthority.Pem.Block
import CertAuthority.Pem.Bundle

/-!
# Certificates as text

The text form of a certificate is a block labelled `CERTIFICATE`. There are
two readers, for two situations. `Certificate.decodePem` reads a text that
is one certificate: blanks may surround and divide it, and nothing else.
`Certificate.decodePemBundle` reads every block of a longer text, all of
which have to be certificates.
-/

namespace CertAuthority

namespace Certificate

/-- The label of a certificate's block. -/
def pemLabel : String := "CERTIFICATE"

/-- **The text form of a certificate.** -/
def encodePem (c : Certificate) : String := Pem.encodeBlock pemLabel c.der

/-- What stands before `ending`, when `text` ends with it. -/
def dropEnding? (ending text : List Char) : Option (List Char) :=
  (dropExpected? ending.reverse text.reverse).map List.reverse

/-- Whether a text has five dashes in a row. -/
def hasMarker (s : List Char) : Bool := (Pem.cutAtDashes s).isSome

/-- What stands between the markers of a text that is one block. -/
def pemBody (text : String) : Except Error (List Char) :=
  match dropExpected? beginCertificate.toList (Text.strip text.toList) with
  | none => .error (.encoding .noBegin)
  | some rest =>
    match dropEnding? endCertificate.toList rest with
    | none => .error (.encoding .noEnd)
    | some body => if hasMarker body then .error (.encoding .notOneBlock) else .ok body

/-- **Reads a text that is one certificate.** -/
def decodePem (text : String) : Except Error Certificate := do
  let body ← pemBody text
  match Text.Base64.decode (Text.Utf8.encode (Text.squeeze body)) with
  | .error fault => .error (.encoding (.base64 fault))
  | .ok der => ofDer der

/-- The text form of several certificates: their blocks, one after
another. -/
def encodePemBundle (cs : List Certificate) : String :=
  String.join (cs.map encodePem)

/-- The certificate in a block of a bundle. -/
def ofBlock (b : Pem.Block) : Except Error Certificate :=
  if b.label ≠ pemLabel then .error (.encoding (.foreignLabel b.label)) else ofDer b.contents

/-- **Reads every certificate of a bundle**; there has to be one. -/
def decodePemBundle (text : String) : Except Error (List Certificate) :=
  match Pem.readBlocks (fun fault => .encoding (.block fault)) ofBlock
      (Pem.linesOf text.toList) with
  | .error e => .error e
  | .ok [] => .error (.encoding .emptyBundle)
  | .ok cs => .ok cs

/-- An encoded certificate, in either form. -/
inductive Encoded where
  /-- As text. -/
  | pem (text : String)
  /-- As bytes. -/
  | der (bytes : Bytes)

/-- Reads an encoded certificate. -/
def Encoded.decode : Encoded → Except Error Certificate
  | .pem text => decodePem text
  | .der bytes => ofDer bytes

end Certificate

end CertAuthority
