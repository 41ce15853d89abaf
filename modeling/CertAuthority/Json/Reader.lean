import CertAuthority.Bytes
import CertAuthority.Json.Double
import CertAuthority.Json.Fault
import CertAuthority.Text.Utf8

/-!
# Reading a JSON text

A text is read from left to right, as bytes, by a reader that knows its
place. What is wrong is reported at the place the reader has come to
(`refuse`) or just past the byte it looks at (`refuseNext`); the reader
stays there, so that what encloses the value may still go on.

The readers here are those of the notation: blanks, words, strings,
numbers, and values that are skipped. What a text has to say is the concern
of `Json.Decode`.
-/

namespace CertAuthority.Json

/-- **How far a text has been read.** -/
structure Cursor where
  /-- What is left. -/
  rest : Bytes
  /-- The place of it. -/
  place : Place
  deriving DecidableEq, Repr

/-- A reader. -/
abbrev Reader := EStateM Fault Cursor

/-- The beginning of a text. -/
def Cursor.start (text : String) : Cursor := ⟨Text.Utf8.encode text.toList, ⟨1, 0⟩⟩

/-- The place after a byte. -/
def Place.after (p : Place) (b : UInt8) : Place :=
  if b = 10 then ⟨p.line + 1, 0⟩ else ⟨p.line, p.column + 1⟩

/-- The cursor after the next byte, if there is one. -/
def Cursor.advance (c : Cursor) : Cursor :=
  match c.rest with
  | [] => c
  | b :: rest => ⟨rest, c.place.after b⟩

/-- A byte of the basic alphabet. -/
def byte (c : Char) : UInt8 := UInt8.ofNat c.toNat

namespace Reader

/-! ## Bytes -/

/-- The next byte, if there is one. -/
def peek : Reader (Option UInt8) := do return (← get).rest.head?

/-- Skips the next byte. -/
def skip : Reader Unit := modify Cursor.advance

/-- Reads the next byte, if there is one. -/
def next : Reader (Option UInt8) := do
  let b ← peek
  skip
  return b

/-- Refuses the text at the place it has been read up to. -/
def refuse {α : Type} (cause : Cause) : Reader α := do
  throw ⟨cause, some (← get).place⟩

/-- Refuses the text because of the next byte. -/
def refuseNext {α : Type} (cause : Cause) : Reader α := do
  throw ⟨cause, some (← get).advance.place⟩

/-- Gives a fault without a place the place the text has been read up
to. -/
def placing {α : Type} (read : Reader α) : Reader α := fun c =>
  match read c with
  | .error ⟨cause, none⟩ c' => .error ⟨cause, some c'.place⟩ c'
  | result => result

/-- Whether a byte may stand between values. -/
def isSpace (b : UInt8) : Bool := b == 32 || b == 10 || b == 9 || b == 13

/-- Skips the blanks in what is left. -/
def skipSpaces (place : Place) : Bytes → Cursor
  | [] => ⟨[], place⟩
  | b :: rest => if isSpace b then skipSpaces (place.after b) rest else ⟨b :: rest, place⟩

/-- Skips blanks and looks at the next byte. -/
def blanks : Reader (Option UInt8) := do
  modify fun c => skipSpaces c.place c.rest
  peek

/-- The bytes left: a bound on every loop. -/
def left : Reader Nat := do return (← get).rest.length

/-! ## Words and strings -/

/-- Reads the bytes of a word. -/
def word : List Char → Reader Unit
  | [] => return ()
  | c :: rest => do
    match ← next with
    | none => refuse .endInValue
    | some b => if b = byte c then word rest else refuse .expectedWord

/-- Reads four hexadecimal digits. -/
def hexEscape : Reader Nat := do
  let c ← get
  if c.rest.length < 4 then
    set (c.rest.foldl (fun c _ => c.advance) c)
    refuse .endInString
  else
    set c.advance.advance.advance.advance
    let digits := (c.rest.take 4).map fun b => Bytes.hexValue? (Char.ofNat b.toNat)
    match digits with
    | [some a, some b, some c, some d] => return ((a * 16 + b) * 16 + c) * 16 + d
    | _ => refuse .invalidEscape

/-- Reads a byte that has to be there for a pair of escapes to be
complete. -/
def pairByte (expected : Char) : Reader Unit := do
  match ← peek with
  | none => refuse .endInString
  | some b =>
    skip
    if b = byte expected then return () else refuse .endInEscape

/-- Reads what follows `\u`: a character, in one escape or two. -/
def unicodeEscape : Reader Bytes := do
  let high ← hexEscape
  if 0xdc00 ≤ high ∧ high ≤ 0xdfff then refuse .loneSurrogate
  else if high < 0xd800 ∨ 0xdbff < high then return Text.Utf8.encode [Char.ofNat high]
  else
    pairByte '\\'
    pairByte 'u'
    let low ← hexEscape
    if low < 0xdc00 ∨ 0xdfff < low then refuse .loneSurrogate
    else
      return Text.Utf8.encode
        [Char.ofNat (0x10000 + (high - 0xd800) * 0x400 + (low - 0xdc00))]

/-- What a letter stands for after a backslash. -/
def simpleEscape? (b : UInt8) : Option UInt8 :=
  if b = byte '"' ∨ b = byte '\\' ∨ b = byte '/' then some b
  else if b = byte 'b' then some 8
  else if b = byte 'f' then some 12
  else if b = byte 'n' then some 10
  else if b = byte 'r' then some 13
  else if b = byte 't' then some 9
  else none

/-- Reads what follows a backslash. -/
def escape : Reader Bytes := do
  match ← next with
  | none => refuse .endInString
  | some b =>
    match simpleEscape? b with
    | some a => return [a]
    | none => if b = byte 'u' then unicodeEscape else refuse .invalidEscape

/-- Reads a string up to its closing quotation mark. -/
def stringBytes : (fuel : Nat) → Reader Bytes
  | 0 => refuse .endInString
  | fuel + 1 => do
    match ← next with
    | none => refuse .endInString
    | some b =>
      if b = byte '"' then return []
      else if b = byte '\\' then
        let head ← escape
        return head ++ (← stringBytes fuel)
      else if b.toNat < 32 then refuse .controlCharacter
      else return b :: (← stringBytes fuel)

/-- **Reads a string**, whose opening quotation mark comes next. -/
def string : Reader String := do
  skip
  let bytes ← stringBytes ((← left) + 1)
  match Text.Utf8.decode? bytes with
  | some s => return s
  | none => refuse .invalidCodePoint

/-! ## Numbers -/

/-- **A number**, as it is written: whole if it fits sixty-four bits. -/
inductive Number where
  /-- A whole number that is not negative. -/
  | natural (n : Nat)
  /-- A whole number below zero. -/
  | negative (n : Int)
  /-- A number of the binary format, with its sign. -/
  | double (minus : Bool) (x : Double)
  deriving DecidableEq, Repr

/-- How a number is shown. -/
def Number.found : Number → Found
  | .natural n => .int n
  | .negative n => .int n
  | .double minus x => .float (x.text minus)

/-- Whether a byte is a decimal digit. -/
def isDigit (b : UInt8) : Bool := 48 ≤ b.toNat && b.toNat ≤ 57

/-- Reads all digits that come next. -/
def digits : (fuel : Nat) → Reader (List Nat)
  | 0 => return []
  | fuel + 1 => do
    match ← peek with
    | some b =>
      if isDigit b then
        skip
        return (b.toNat - 48) :: (← digits fuel)
      else return []
    | none => return []

/-- As many leading digits as fit sixty-four bits, after `n`, and how many
of the digits they are. -/
def foldDigits (n : Nat) : List Nat → Nat × Nat
  | [] => (n, 0)
  | d :: rest =>
    if n * 10 + d < Nat.pow 2 64 then
      let (m, used) := foldDigits (n * 10 + d) rest
      (m, used + 1)
    else (n, 0)

/-- The number of digits and a power of ten. -/
def decimal (negative : Bool) (significand : Nat) (exponent : Int) : Reader Number := do
  match Double.ofDecimal? significand exponent with
  | some x => return .double negative x
  | none => refuse .numberOutOfRange

/-- Reads the digits of an exponent after the first. The result is the
exponent, or nothing if it is beyond all use. -/
def exponentDigits (significand : Nat) (positive : Bool) : (fuel e : Nat) → Reader (Option Nat)
  | 0, e => return some e
  | fuel + 1, e => do
    match ← peek with
    | some b =>
      if isDigit b then
        skip
        let e' := e * 10 + (b.toNat - 48)
        if e' < Nat.pow 2 31 then exponentDigits significand positive fuel e'
        else if significand ≠ 0 ∧ positive then refuse .numberOutOfRange
        else
          let _ ← digits fuel
          return none
      else return some e
    | none => return some e

/-- Reads an exponent, whose letter comes next. -/
def exponent (negative : Bool) (significand : Nat) (start : Int) : Reader Number := do
  skip
  let sign ← peek
  if sign = some (byte '+') ∨ sign = some (byte '-') then skip
  let positive := sign != some (byte '-')
  match ← next with
  | none => refuse .endInValue
  | some b =>
    if isDigit b then
      match ← exponentDigits significand positive ((← left) + 1) (b.toNat - 48) with
      | none => return .double negative ⟨0, 0⟩
      | some e => decimal negative significand (if positive then start + e else start - e)
    else refuse .invalidNumber

/-- Reads a fraction, whose point comes next. -/
def fraction (negative : Bool) (significand : Nat) (start : Int) : Reader Number := do
  skip
  let ds ← digits ((← left) + 1)
  if ds.isEmpty then
    match ← peek with
    | some _ => refuseNext .invalidNumber
    | none => refuseNext .endInValue
  else
    let (significand, used) := foldDigits significand ds
    let power := start - used
    match ← peek with
    | some b =>
      if b = byte 'e' ∨ b = byte 'E' then exponent negative significand power
      else decimal negative significand power
    | none => decimal negative significand power

/-- The digits of the whole part of a number. Only zero begins with a
zero. -/
def wholeDigits : Reader (List Nat) := do
  match ← next with
  | none => refuse .endInValue
  | some b =>
    if b = byte '0' then
      match ← peek with
      | some c => if isDigit c then refuseNext .invalidNumber else return [0]
      | none => return [0]
    else if isDigit b then return (b.toNat - 48) :: (← digits ((← left) + 1))
    else refuse .invalidNumber

/-- **Reads a number**, after its sign. -/
def number (negative : Bool) : Reader Number := do
  let ds ← wholeDigits
  let (significand, used) := foldDigits 0 ds
  let beyond : Int := ds.length - used
  let b ← peek
  if b = some (byte '.') then fraction negative significand beyond
  else if b = some (byte 'e') ∨ b = some (byte 'E') then exponent negative significand beyond
  else if beyond ≠ 0 then decimal negative significand beyond
  else if !negative then return .natural significand
  else if 0 < significand ∧ significand ≤ Nat.pow 2 63 then return .negative (-significand)
  else decimal true significand 0

/-! ## Skipping values -/

/-- Skips a string, up to its closing quotation mark. Its escapes need not
make characters. -/
def skipString : (fuel : Nat) → Reader Unit
  | 0 => refuse .endInString
  | fuel + 1 => do
    match ← peek with
    | none => refuse .endInString
    | some b =>
      if b = byte '"' then skip
      else if b = byte '\\' then
        skip
        match ← next with
        | none => refuse .endInString
        | some e =>
          if (simpleEscape? e).isSome then skipString fuel
          else if e = byte 'u' then
            let _ ← hexEscape
            skipString fuel
          else refuse .invalidEscape
      else if b.toNat < 32 then refuse .controlCharacter
      else
        skip
        skipString fuel

/-- Skips an exponent, whose letter comes next. -/
def skipExponent : Reader Unit := do
  skip
  let sign ← peek
  if sign = some (byte '+') ∨ sign = some (byte '-') then skip
  match ← next with
  | some b =>
    if isDigit b then
      let _ ← digits ((← left) + 1)
    else refuse .invalidNumber
  | none => refuse .invalidNumber

/-- Skips a fraction, whose point comes next. -/
def skipFraction : Reader Unit := do
  skip
  let ds ← digits ((← left) + 1)
  if ds.isEmpty then refuseNext .invalidNumber
  else
    let b ← peek
    if b = some (byte 'e') ∨ b = some (byte 'E') then skipExponent

/-- Skips a number, after its sign. -/
def skipNumber : Reader Unit := do
  match ← next with
  | none => refuse .invalidNumber
  | some b =>
    if b = byte '0' then
      match ← peek with
      | some c => if isDigit c then refuseNext .invalidNumber
      | none => return ()
    else if isDigit b then
      let _ ← digits ((← left) + 1)
    else refuse .invalidNumber
  let b ← peek
  if b = some (byte '.') then skipFraction
  else if b = some (byte 'e') ∨ b = some (byte 'E') then skipExponent

/-- Skips a key and the colon after it. -/
def skipKey : Reader Unit := do
  match ← blanks with
  | none => refuseNext .endInObject
  | some b =>
    if b = byte '"' then
      skip
      skipString ((← left) + 1)
      match ← blanks with
      | none => refuseNext .endInObject
      | some c => if c = byte ':' then skip else refuseNext .expectedColon
    else refuseNext .keyNotString

mutual

/-- **Skips a value**, of any type and depth. -/
def skipValue : (fuel : Nat) → Reader Unit
  | 0 => refuseNext .endInValue
  | fuel + 1 => do
    match ← blanks with
    | none => refuseNext .endInValue
    | some b =>
      if b = byte 'n' then
        skip
        word "ull".toList
      else if b = byte 't' then
        skip
        word "rue".toList
      else if b = byte 'f' then
        skip
        word "alse".toList
      else if b = byte '-' then
        skip
        skipNumber
      else if isDigit b then skipNumber
      else if b = byte '"' then
        skip
        skipString ((← left) + 1)
      else if b = byte '[' then
        skip
        match ← blanks with
        | none => refuseNext .endInArray
        | some c => if c = byte ']' then skip else skipElements fuel
      else if b = byte '\x7b' then
        skip
        match ← blanks with
        | none => refuseNext .endInObject
        | some c => if c = byte '\x7d' then skip else skipFields fuel
      else refuseNext .expectedValue

/-- Skips the elements of an array and its end. -/
def skipElements : (fuel : Nat) → Reader Unit
  | 0 => refuseNext .endInArray
  | fuel + 1 => do
    skipValue fuel
    match ← blanks with
    | none => refuseNext .endInArray
    | some b =>
      if b = byte ',' then
        skip
        skipElements fuel
      else if b = byte ']' then skip
      else refuseNext .expectedCommaOrBracket

/-- Skips the fields of an object and its end. -/
def skipFields : (fuel : Nat) → Reader Unit
  | 0 => refuseNext .endInObject
  | fuel + 1 => do
    skipKey
    skipValue fuel
    match ← blanks with
    | none => refuseNext .endInObject
    | some b =>
      if b = byte ',' then
        skip
        skipFields fuel
      else if b = byte '\x7d' then skip
      else refuseNext .expectedCommaOrBrace

end

end Reader

end CertAuthority.Json
