import CertAuthority.Der.Oid

/-!
# Extensions

An extension is an identifier, a flag that says whether whoever does not
know it must refuse the certificate, and a value whose meaning depends on
the identifier. `Extension.unique?` finds the one with a given identifier
and refuses a certificate that has two.

The basic constraints say whether the subject may sign other certificates.
`Extension.authority?` reads them: a flag, a limit on the length of chains,
both or neither.
-/

namespace CertAuthority

open Der

/-- **An extension of a certificate.** -/
structure Extension where
  /-- What the extension is about. -/
  type : Oid
  /-- Whether it must not be ignored. -/
  critical : Bool
  /-- Its value, encoded as its type asks. -/
  value : Bytes
  deriving DecidableEq, Repr

namespace Extension

/-- `subjectKeyIdentifier`. -/
def subjectKeyIdentifier : Oid := Oid.ofArcs [2, 5, 29, 14]
/-- `keyUsage`. -/
def keyUsage : Oid := Oid.ofArcs [2, 5, 29, 15]
/-- `subjectAltName`. -/
def subjectAltName : Oid := Oid.ofArcs [2, 5, 29, 17]
/-- `basicConstraints`. -/
def basicConstraints : Oid := Oid.ofArcs [2, 5, 29, 19]

/-- Reads the flag, which is absent from an extension that may be ignored.
Any byte but zero sets it. -/
def readCritical (b : Bytes) : Bool × Bytes :=
  match readBasic? b with
  | some (e, rest) =>
    match e.content with
    | [flag] => if e.number = Tag.boolean then (flag != 0, rest) else (false, b)
    | _ => (false, b)
  | none => (false, b)

/-- Reads an extension. -/
def read? : Bytes → Option (Extension × Bytes) :=
  readInside? Tag.sequence fun b => do
    let (type, rest) ← Oid.read? b
    let (critical, rest) := readCritical rest
    let (value, rest) ← readPrimitive? Tag.octetString rest
    return (⟨type, critical, value⟩, rest)

/-- **Reads the extensions of a certificate** at the end of its signed
part: a field numbered three with a sequence of them, and nothing
after. -/
def readList? (b : Bytes) : Option (List Extension) :=
  if b = [] then some []
  else do
    let ((identifier, _), rest) ← readHeader? b
    if identifier.number ≠ 3 then none
    else
      match ← readInside? Tag.sequence (fun b => (readAll? read? b).map (·, [])) rest with
      | (extensions, []) => some extensions
      | (_, _ :: _) => none

/-- **The extension with a given identifier**: none, the one, or an error
if there are two. -/
def unique? (type : Oid) (extensions : List Extension) : Except Unit (Option Extension) :=
  match extensions.filter fun e => e.type == type with
  | [] => .ok none
  | [e] => .ok (some e)
  | _ => .error ()

/-- The flag in a boolean element. -/
def flag? (e : Element) : Option Bool :=
  match e.identifier.tagClass, e.content with
  | .universal, [b] => if e.number = Tag.boolean then some (b != 0) else none
  | _, _ => none

/-- Whether an element is a number that fits thirty-two bits. -/
def isLimit (e : Element) : Bool :=
  e.identifier.tagClass == .universal && e.number == Tag.integer
    && decide (Bytes.toNat e.content < Nat.pow 2 32)

/-- **Whether a value of `basicConstraints` makes an authority**, if it is
one. -/
def authority? (value : Bytes) : Option Bool := do
  let (sequence, _) ← readTagged? Tag.sequence value
  if !sequence.constructed then none
  else
    match ← readAll? readElement? sequence.content with
    | [] => some false
    | [e] =>
      match flag? e with
      | some flag => some flag
      | none => if isLimit e then some false else none
    | [e, limit] => if isLimit limit then flag? e else none
    | _ => none

end Extension

end CertAuthority
