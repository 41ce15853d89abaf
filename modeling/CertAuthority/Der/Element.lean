import CertAuthority.Bytes

/-!
# Elements of the distinguished encoding

An element is an identifier, a length and that many bytes of content.
`readElement?` takes the first element off a byte string and returns it
with what follows; everything that reads a certificate or a key is built
from it, and a constructed element is read by reading its content.

The readers are as strict as the certificates in circulation allow. The
length must be definite, but may be written with more bytes than it needs.
The content of a `SEQUENCE` may hold more elements than are asked for; the
extra ones are skipped. Which elements have to be of the primitive form is
said where they are read.

Two values are also found in the older, *basic* encoding and read with
`readBasic?`, where a constructed element may have no length and run up to
an end mark.
-/

namespace CertAuthority.Der

/-- The class of an identifier. -/
inductive TagClass where
  /-- Types of the notation itself. -/
  | universal
  /-- Types of one application. -/
  | application
  /-- Fields told apart by their position in a structure. -/
  | contextSpecific
  /-- Types of one organisation. -/
  | privateUse
  deriving DecidableEq, Repr

/-- The two high bits of an identifier. -/
def TagClass.ofBits : Nat → TagClass
  | 0 => .universal
  | 1 => .application
  | 2 => .contextSpecific
  | _ => .privateUse

/-- **An identifier**: the class, the form and the number of a tag. -/
structure Identifier where
  /-- The class of the tag. -/
  tagClass : TagClass
  /-- Whether the content is itself a series of elements. -/
  constructed : Bool
  /-- The number of the tag. -/
  number : Nat
  deriving DecidableEq, Repr

/-- **An element**: an identifier and its content. -/
structure Element where
  /-- The identifier. -/
  identifier : Identifier
  /-- The bytes of the content. -/
  content : Bytes
  deriving DecidableEq, Repr

/-- The number of an element's tag. -/
abbrev Element.number (e : Element) : Nat := e.identifier.number

/-- Whether an element is of the constructed form. -/
abbrev Element.constructed (e : Element) : Bool := e.identifier.constructed

/-! ## Tag numbers of the universal class -/

namespace Tag

/-- `BOOLEAN`. -/
abbrev boolean : Nat := 1
/-- `INTEGER`. -/
abbrev integer : Nat := 2
/-- `BIT STRING`. -/
abbrev bitString : Nat := 3
/-- `OCTET STRING`. -/
abbrev octetString : Nat := 4
/-- `OBJECT IDENTIFIER`. -/
abbrev objectIdentifier : Nat := 6
/-- `ObjectDescriptor`. -/
abbrev objectDescriptor : Nat := 7
/-- `UTF8String`. -/
abbrev utf8String : Nat := 12
/-- `SEQUENCE`. -/
abbrev sequence : Nat := 16
/-- `SET`. -/
abbrev set : Nat := 17
/-- `NumericString`. -/
abbrev numericString : Nat := 18
/-- `PrintableString`. -/
abbrev printableString : Nat := 19
/-- `TeletexString`. -/
abbrev teletexString : Nat := 20
/-- `VideotexString`. -/
abbrev videotexString : Nat := 21
/-- `IA5String`. -/
abbrev ia5String : Nat := 22
/-- `UTCTime`. -/
abbrev utcTime : Nat := 23
/-- `GeneralizedTime`. -/
abbrev generalizedTime : Nat := 24
/-- `GraphicString`. -/
abbrev graphicString : Nat := 25
/-- `VisibleString`. -/
abbrev visibleString : Nat := 26
/-- `GeneralString`. -/
abbrev generalString : Nat := 27
/-- `UniversalString`. -/
abbrev universalString : Nat := 28
/-- `BMPString`. -/
abbrev bmpString : Nat := 30

end Tag

/-! ## Reading -/

/-- The number of a tag that does not fit the first byte: seven bits a
byte, at most five of them, of which thirty-two bits count. -/
def readLongTag? : (left acc : Nat) → Bytes → Option (Nat × Bytes)
  | 0, _, _ => none
  | _ + 1, _, [] => none
  | left + 1, acc, b :: rest =>
    let acc := (acc * 128 + b.toNat % 128) % Nat.pow 2 32
    if b.toNat < 128 then some (acc, rest) else readLongTag? left acc rest

/-- Reads an identifier. -/
def readIdentifier? : Bytes → Option (Identifier × Bytes)
  | [] => none
  | b :: rest =>
    let tagClass := TagClass.ofBits (b.toNat / 64)
    let constructed := b.toNat / 32 % 2 = 1
    let number := b.toNat % 32
    if number = 31 then
      (readLongTag? 5 0 rest).map fun (number, rest) => (⟨tagClass, constructed, number⟩, rest)
    else some (⟨tagClass, constructed, number⟩, rest)

/-- Reads a length; the result has none if the element is to run up to an
end mark. -/
def readLength? : Bytes → Option (Option Nat × Bytes)
  | [] => none
  | b :: rest =>
    let n := b.toNat
    if n < 128 then some (some n, rest)
    else if n = 128 then some (none, rest)
    else if n = 255 then none
    else do
      let (digits, rest) ← Bytes.splitAt? (n - 128) rest
      let length := Bytes.toNat digits
      if length < Nat.pow 2 64 then some (some length, rest) else none

/-- Reads an identifier and a definite length. -/
def readHeader? (b : Bytes) : Option ((Identifier × Nat) × Bytes) := do
  let (identifier, rest) ← readIdentifier? b
  match ← readLength? rest with
  | (some length, rest) => some ((identifier, length), rest)
  | (none, _) => none

/-- **Takes the first element off a byte string.** -/
def readElement? (b : Bytes) : Option (Element × Bytes) := do
  let ((identifier, length), rest) ← readHeader? b
  let (content, rest) ← Bytes.splitAt? length rest
  return (⟨identifier, content⟩, rest)

/-- Takes an element with the given tag number off a byte string. The
class of the tag is not looked at: the position of the element decides
what it is. -/
def readTagged? (number : Nat) (b : Bytes) : Option (Element × Bytes) := do
  let (e, rest) ← readElement? b
  if e.number = number then some (e, rest) else none

/-- **Reads the content of a tagged element** with a reader of its own,
whose leftover is skipped, and returns what follows the element. -/
def readInside? {α : Type} (number : Nat) (read : Bytes → Option (α × Bytes)) (b : Bytes) :
    Option (α × Bytes) := do
  let (e, rest) ← readTagged? number b
  let (a, _) ← read e.content
  return (a, rest)

/-- Reads an element of the primitive form with the given tag number and
returns its content. -/
def readPrimitive? (number : Nat) (b : Bytes) : Option (Bytes × Bytes) := do
  let (e, rest) ← readTagged? number b
  if e.constructed then none else some (e.content, rest)

/-- **Reads as many items as there are**: stops at the first that cannot
be read, and returns the items with the bytes from there on. -/
def readMany {α : Type} (read : Bytes → Option (α × Bytes)) (b : Bytes) : List α × Bytes :=
  match read b with
  | none => ([], b)
  | some (a, rest) =>
    if _h : rest.length < b.length then
      let (as, last) := readMany read rest
      (a :: as, last)
    else ([], b)
  termination_by b.length

/-- Reads items until none of the bytes is left. -/
def readAll? {α : Type} (read : Bytes → Option (α × Bytes)) (b : Bytes) : Option (List α) :=
  match readMany read b with
  | (as, []) => some as
  | (_, _ :: _) => none

/-! ## Values -/

/-- **A bit string**: its bytes, the last of which has bits to spare. -/
structure BitString where
  /-- How many bits of the last byte are not part of the string. -/
  unused : Nat
  /-- The bytes of the string. -/
  bytes : Bytes
  deriving DecidableEq, Repr

/-- The bit string in the content of an element. Its first byte counts the
unused bits. -/
def BitString.ofContent? : Bytes → Option BitString
  | [] => none
  | unused :: bytes => some ⟨unused.toNat, bytes⟩

/-- Whether the unused bits of a bit string are all zero, and fewer than a
byte. -/
def BitString.isExact (s : BitString) : Bool :=
  match s.bytes.getLast? with
  | none => s.unused == 0
  | some last => s.unused < 8 && last.toNat % Nat.pow 2 s.unused == 0

/-- Reads a bit string of the primitive form, with its unused bits zero. -/
def BitString.read? (b : Bytes) : Option (BitString × Bytes) := do
  let (content, rest) ← readPrimitive? Tag.bitString b
  let s ← BitString.ofContent? content
  if s.isExact then some (s, rest) else none

/-- Whether the content of an `INTEGER` is not longer than it needs to
be. -/
def isMinimalInteger : Bytes → Bool
  | [] => false
  | [_] => true
  | a :: b :: _ => !(a == 0 && b.toNat < 128) && !(a == 255 && 128 ≤ b.toNat)

/-- **The number in the content of an `INTEGER`** that has to be minimal,
not negative, and of at most `bits` bits. -/
def unsigned? (bits : Nat) (content : Bytes) : Option Nat :=
  let n := Bytes.toNat content
  if isMinimalInteger content ∧ (content.headD 0).toNat < 128 ∧ n < Nat.pow 2 bits then some n else none

/-! ## The basic encoding -/

/-- Skips elements up to the end mark of the innermost of `depth` open
elements, and so on up to that of the outermost. `fuel` bounds the number
of elements; fifty elements are the most that may be open. -/
def skipToEnd? : (fuel depth : Nat) → Bytes → Option Bytes
  | 0, _, _ => none
  | fuel + 1, depth, b =>
    if depth ≥ 50 then none
    else do
      let (identifier, rest) ← readIdentifier? b
      match ← readLength? rest with
      | (none, rest) =>
        if identifier.constructed then skipToEnd? fuel (depth + 1) rest else none
      | (some 0, rest) =>
        if identifier.number ≠ 0 then skipToEnd? fuel depth rest
        else if depth ≤ 1 then some rest
        else skipToEnd? fuel (depth - 1) rest
      | (some length, rest) =>
        let (_, rest) ← Bytes.splitAt? length rest
        skipToEnd? fuel depth rest

/-- **Takes an element of the basic encoding off a byte string.** The
content of an element without a length is what comes before its end
mark. -/
def readBasic? (b : Bytes) : Option (Element × Bytes) := do
  let (identifier, rest) ← readIdentifier? b
  match ← readLength? rest with
  | (some length, rest) =>
    let (content, rest) ← Bytes.splitAt? length rest
    return (⟨identifier, content⟩, rest)
  | (none, rest) =>
    if identifier.constructed then
      let after ← skipToEnd? (rest.length + 1) 1 rest
      return (⟨identifier, rest.take (rest.length - after.length - 2)⟩, after)
    else none

end CertAuthority.Der
