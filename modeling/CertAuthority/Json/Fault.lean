import CertAuthority.Text.Quoted

/-!
# Faults in a JSON text

A text is refused at a place, given by line and column, for a cause: it
breaks the grammar, or it is well formed and says something that cannot be
used there. Columns count bytes; lines count from one. One cause has no
place of its own, a name standing alone where it should have a value.
-/

namespace CertAuthority.Json

/-- **What stood where something else was expected**, as it is shown to
the author of the text. -/
inductive Found where
  /-- A null. -/
  | null
  /-- A truth value. -/
  | bool (b : Bool)
  /-- A whole number. -/
  | int (n : Int)
  /-- A number with a fraction or an exponent, or one too large to be whole;
  by its text. -/
  | float (text : String)
  /-- A string. -/
  | string (s : String)
  /-- An array. -/
  | array
  /-- An object. -/
  | object
  /-- The name of a choice without a value. -/
  | bareName
  deriving DecidableEq, Repr

/-- The wording of what was found. -/
def Found.text : Found → String
  | .null => "null"
  | .bool b => "boolean `" ++ (if b then "true" else "false") ++ "`"
  | .int n => "integer `" ++ toString n ++ "`"
  | .float text => "floating point `" ++ text ++ "`"
  | .string s => "string " ++ Text.quoted s
  | .array => "sequence"
  | .object => "map"
  | .bareName => "unit variant"

/-- **Why a text is refused.** -/
inductive Cause where
  /-- The text ends inside an array. -/
  | endInArray
  /-- The text ends inside an object. -/
  | endInObject
  /-- The text ends inside a string. -/
  | endInString
  /-- The text ends where a value should be. -/
  | endInValue
  /-- No colon after a key. -/
  | expectedColon
  /-- An element of an array is followed by neither a comma nor the end. -/
  | expectedCommaOrBracket
  /-- A field of an object is followed by neither a comma nor the end. -/
  | expectedCommaOrBrace
  /-- A word that begins like `true`, `false` or `null` and goes on
  differently. -/
  | expectedWord
  /-- Something that no value begins with. -/
  | expectedValue
  /-- An escape the notation does not have. -/
  | invalidEscape
  /-- A number that is not written as one. -/
  | invalidNumber
  /-- A number beyond every float. -/
  | numberOutOfRange
  /-- Bytes that are no character, in a string. -/
  | invalidCodePoint
  /-- A control character in a string. -/
  | controlCharacter
  /-- A key that is not a string. -/
  | keyNotString
  /-- Half a surrogate pair where a whole one is needed. -/
  | loneSurrogate
  /-- A comma before the end of an array or object. -/
  | trailingComma
  /-- Something after the value. -/
  | trailingCharacters
  /-- A surrogate pair that ends after its first half. -/
  | endInEscape
  /-- A value of the wrong type. -/
  | invalidType (found : Found) (expected : String)
  /-- A value of the right type that is not in range. -/
  | invalidValue (found : Found) (expected : String)
  /-- A name that is none of those allowed. -/
  | unknownVariant (name : String) (expected : String)
  /-- A key that occurs twice. -/
  | duplicateField (name : String)
  /-- A string that is not an internet address. -/
  | invalidAddress
  deriving DecidableEq, Repr

/-- The wording of a cause. -/
def Cause.text : Cause → String
  | .endInArray => "EOF while parsing a list"
  | .endInObject => "EOF while parsing an object"
  | .endInString => "EOF while parsing a string"
  | .endInValue => "EOF while parsing a value"
  | .expectedColon => "expected `:`"
  | .expectedCommaOrBracket => "expected `,` or `]`"
  | .expectedCommaOrBrace => "expected `,` or `\x7d`"
  | .expectedWord => "expected ident"
  | .expectedValue => "expected value"
  | .invalidEscape => "invalid escape"
  | .invalidNumber => "invalid number"
  | .numberOutOfRange => "number out of range"
  | .invalidCodePoint => "invalid unicode code point"
  | .controlCharacter =>
    "control character (\\u0000-\\u001F) found while parsing a string"
  | .keyNotString => "key must be a string"
  | .loneSurrogate => "lone leading surrogate in hex escape"
  | .trailingComma => "trailing comma"
  | .trailingCharacters => "trailing characters"
  | .endInEscape => "unexpected end of hex escape"
  | .invalidType found expected => "invalid type: " ++ found.text ++ ", expected " ++ expected
  | .invalidValue found expected => "invalid value: " ++ found.text ++ ", expected " ++ expected
  | .unknownVariant name expected => "unknown variant `" ++ name ++ "`, expected " ++ expected
  | .duplicateField name => "duplicate field `" ++ name ++ "`"
  | .invalidAddress => "invalid IP address syntax"

/-- **A place in a text.** -/
structure Place where
  /-- The line, from one. -/
  line : Nat
  /-- How many bytes of the line come before. -/
  column : Nat
  deriving DecidableEq, Repr

/-- **A fault**: a cause, and its place if it has one. -/
structure Fault where
  /-- The cause. -/
  cause : Cause
  /-- The place. -/
  place : Option Place
  deriving DecidableEq, Repr

/-- The wording of a fault. -/
def Fault.message (f : Fault) : String :=
  match f.place with
  | none => f.cause.text
  | some place =>
    f.cause.text ++ " at line " ++ toString place.line ++ " column " ++ toString place.column

end CertAuthority.Json
