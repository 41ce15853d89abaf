import CertAuthority.Certificate.AttributeType
import CertAuthority.Text.Utf8
import CertAuthority.Text.Utf16

/-!
# Distinguished names

A name is a sequence of sets of attributes, almost always with one
attribute in each set. `Name.read?` keeps every value as the element it
was, so that two names are the same exactly when they were written the same
way; `Name.text` is the one line that people read.

The text is not a faithful form of the name. A value may itself hold the
marks that separate attributes, values of different string types print
alike, and a name with an undecodable value has one fixed text whatever
else it holds.
-/

namespace CertAuthority

open Der

/-- **An attribute of a name**: what it is and its value. -/
structure Attribute where
  /-- What the value is, for instance a common name. -/
  type : Oid
  /-- The value, of any type. -/
  value : Element
  deriving DecidableEq, Repr

/-- **A distinguished name**: its sets of attributes, in order. -/
structure Name where
  /-- The sets of attributes. -/
  parts : List (List Attribute)
  deriving DecidableEq, Repr

namespace Attribute

/-- Reads an attribute. -/
def read? : Bytes → Option (Attribute × Bytes) :=
  readInside? Tag.sequence fun b => do
    let (type, rest) ← Oid.read? b
    let (value, rest) ← readElement? rest
    return (⟨type, value⟩, rest)

/-- **The text of a value.** Values of the string types are decoded; the
content of any other is printed in hexadecimal. -/
def valueText? (a : Attribute) : Option String :=
  let content := a.value.content
  let number := a.value.number
  if number ∈ [Tag.utf8String, Tag.printableString, Tag.ia5String, Tag.numericString,
      Tag.visibleString, Tag.generalString, Tag.objectDescriptor, Tag.graphicString,
      Tag.teletexString, Tag.videotexString] then Text.Utf8.decode? content
  else if number = Tag.bmpString then (Text.decodeUtf16? content).map String.ofList
  else if number = Tag.universalString then (Text.decodeUtf32? content).map String.ofList
  else some (Bytes.hex content).toUpper

/-- The value as plain text, if it is of one of the four types that
carry it today. -/
def plainText? (a : Attribute) : Option String :=
  if a.value.number ∈ [Tag.numericString, Tag.printableString, Tag.utf8String, Tag.ia5String] then
    Text.Utf8.decode? a.value.content
  else none

/-- The text of an attribute: `CN=scm`. -/
def text? (a : Attribute) : Option String :=
  a.valueText?.map fun value => AttributeType.label a.type ++ "=" ++ value

end Attribute

namespace Name

/-- Reads one set of attributes; there is at least one in it. -/
def readPart? : Bytes → Option (List Attribute × Bytes) :=
  readInside? Tag.set fun b =>
    match readMany Attribute.read? b with
    | ([], _) => none
    | (attributes, rest) => some (attributes, rest)

/-- **Reads a name.** What follows the last set that can be read is not
part of the name. -/
def read? : Bytes → Option (Name × Bytes) :=
  readInside? Tag.sequence fun b =>
    let (parts, rest) := readMany readPart? b
    some (⟨parts⟩, rest)

/-- The text that stands for a name with a value that cannot be decoded. -/
def unreadable : String := "<X509Error: Invalid X.509 name>"

/-- **The text of a name**: `CN=scm, OU=scm-1, O=cluster-1`. -/
def text (n : Name) : String :=
  match n.parts.mapM fun part => (part.mapM Attribute.text?).map (" + ".intercalate ·) with
  | some parts => ", ".intercalate parts
  | none => unreadable

/-- The attributes of a name, in order. -/
def attributes (n : Name) : List Attribute := n.parts.flatten

/-- **The common name**: the value of the first attribute of that type, if
it is plain text. -/
def commonName? (n : Name) : Option String :=
  match n.attributes.find? fun a => a.type == AttributeType.commonName with
  | some a => a.plainText?
  | none => none

end Name

end CertAuthority
