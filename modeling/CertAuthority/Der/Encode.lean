import CertAuthority.Der.Oid

/-!
# Writing the distinguished encoding

An element is written as one identifier byte, the shortest form of the
length, and the content. `encode` does this; the functions after it write
the types that certificates and keys are made of, each from the value it
holds.

Identifiers of one byte are enough, since no tag number in these
structures exceeds thirty.
-/

namespace CertAuthority.Der

/-! ## Identifier bytes -/

namespace Mark

/-- `BOOLEAN`. -/
def boolean : UInt8 := 0x01
/-- `INTEGER`. -/
def integer : UInt8 := 0x02
/-- `BIT STRING`. -/
def bitString : UInt8 := 0x03
/-- `OCTET STRING`. -/
def octetString : UInt8 := 0x04
/-- `NULL`. -/
def null : UInt8 := 0x05
/-- `OBJECT IDENTIFIER`. -/
def objectIdentifier : UInt8 := 0x06
/-- `UTF8String`. -/
def utf8String : UInt8 := 0x0c
/-- `UTCTime`. -/
def utcTime : UInt8 := 0x17
/-- `GeneralizedTime`. -/
def generalizedTime : UInt8 := 0x18
/-- `SEQUENCE`. -/
def sequence : UInt8 := 0x30
/-- `SET`. -/
def set : UInt8 := 0x31
/-- A field told apart by its position, made of elements. -/
def fieldOf (number : Nat) : UInt8 := UInt8.ofNat (0xa0 + number)
/-- A field told apart by its position, holding a value itself. -/
def plainField (number : Nat) : UInt8 := UInt8.ofNat (0x80 + number)

end Mark

/-! ## Elements -/

/-- The length of an element, in as few bytes as possible. -/
def encodeLength (n : Nat) : Bytes :=
  if n < 128 then [UInt8.ofNat n]
  else
    let digits := Bytes.ofNat n
    UInt8.ofNat (128 + digits.length) :: digits

/-- **The encoding of an element** with the given identifier byte. -/
def encode (mark : UInt8) (content : Bytes) : Bytes :=
  mark :: encodeLength content.length ++ content

/-- The encoding of a `SEQUENCE` of encoded elements. -/
def sequence (elements : List Bytes) : Bytes := encode Mark.sequence elements.flatten

/-- The encoding of a `SET` of encoded elements. -/
def set (elements : List Bytes) : Bytes := encode Mark.set elements.flatten

/-- The content of an `INTEGER` that is not negative: the shortest byte
string that denotes it, after a zero byte where the first bit would read as
a sign. -/
def integerContent (n : Nat) : Bytes :=
  match Bytes.ofNat n with
  | [] => [0]
  | b :: rest => if b.toNat < 128 then b :: rest else 0 :: b :: rest

/-- The encoding of an `INTEGER` that is not negative. -/
def integer (n : Nat) : Bytes := encode Mark.integer (integerContent n)

/-- The encoding of a `BOOLEAN`. -/
def boolean (b : Bool) : Bytes := encode Mark.boolean [if b then 0xff else 0]

/-- The encoding of `NULL`. -/
def null : Bytes := encode Mark.null []

/-- The encoding of an `OCTET STRING`. -/
def octetString (b : Bytes) : Bytes := encode Mark.octetString b

/-- The encoding of a `BIT STRING` whose bytes are all in use but for the
given number of bits of the last. -/
def bitString (unused : Nat) (b : Bytes) : Bytes :=
  encode Mark.bitString (UInt8.ofNat unused :: b)

/-- The encoding of an object identifier. -/
def Oid.encode (o : Oid) : Bytes := Der.encode Mark.objectIdentifier o.bytes

end CertAuthority.Der
