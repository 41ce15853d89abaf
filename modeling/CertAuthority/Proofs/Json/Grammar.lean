import CertAuthority.Bytes
import Mathlib.Data.List.Basic

/-!
# The grammar of JSON

What a JSON text is, said without a reader. A text is written from a syntax
tree that keeps everything there is to see in it: the blanks, the escapes in
strings, the leading sign, the fraction and the exponent of a number. A text is
one JSON value if it is the text of some `Document`.

Beside the texts stands what they denote. Of a string that is the characters it
stands for, if there are any: half a surrogate pair by itself is well formed and
denotes nothing (`Literal.chars?`). Of a number it is the whole number, if it is
written as one. Objects keep their fields in order, with repetitions.

Each type comes with its text and no more, and well-formedness is in the
fields of the structures: there is a digit at least, a number has no leading
zero, blanks are blanks. So every tree is that of a text, and what is proved
of readers is a statement about all trees. Some texts have no meaning for a
program although they are well formed, and it is said by partial functions on
trees which ones have one.
-/

namespace CertAuthority.Json

/-! ## Blanks and words -/

/-- Whether a character may stand between values. -/
def isSpaceChar (c : Char) : Bool := c == ' ' || c == '\n' || c == '\t' || c == '\r'

/-- **Blanks**, as they stand between values. -/
structure Blanks where
  /-- The characters. -/
  chars : List Char
  /-- They are blanks. -/
  blank : ∀ c ∈ chars, isSpaceChar c = true

namespace Blanks

/-- No blanks. -/
def none : Blanks := ⟨[], List.forall_mem_nil _⟩

/-- Blanks and more blanks. -/
def append (b b' : Blanks) : Blanks :=
  ⟨b.chars ++ b'.chars, List.forall_mem_append.2 ⟨b.blank, b'.blank⟩⟩

@[simp] theorem chars_none : none.chars = [] := rfl

@[simp] theorem chars_append (b b' : Blanks) : (b.append b').chars = b.chars ++ b'.chars := rfl

end Blanks

/-- **A word** that is a value. -/
inductive Word where
  /-- No value. -/
  | null
  /-- A truth value. -/
  | bool (b : Bool)
  deriving DecidableEq

/-- The text of a word. -/
def Word.text : Word → List Char
  | .null => ['n', 'u', 'l', 'l']
  | .bool true => ['t', 'r', 'u', 'e']
  | .bool false => ['f', 'a', 'l', 's', 'e']

/-! ## Numbers

A number is kept as it is written, with its sign, its digits and its exponent.
What it denotes is asked afterwards and only of whole numbers, because nothing
else is asked for in a document. A zero with a sign is whole, and yet not
natural. -/

/-- A decimal digit. -/
def digitChar (d : Fin 10) : Char := Char.ofNat (48 + d.val)

/-- **The text of digits.** -/
def digitsText (ds : List (Fin 10)) : List Char := ds.map digitChar

/-- **One digit or more**, the first one first. Leading zeros are kept, and
whether they are allowed is said where the digits are used. -/
structure Digits where
  /-- The digits. -/
  list : List (Fin 10)
  /-- There is one. -/
  ne_nil : list ≠ []

/-- **An exponent**, with its letter in either case. It may have leading zeros,
unlike the whole part of a number. -/
structure Exponent where
  /-- Whether its letter is a capital. -/
  capital : Bool
  /-- Its sign, if it has one; whether that is a minus sign. -/
  sign : Option Bool
  /-- Its digits. -/
  digits : Digits

namespace Exponent

/-- The text of a sign. -/
def signText : Option Bool → List Char
  | none => []
  | some false => ['+']
  | some true => ['-']

/-- The text of an exponent. -/
def text (e : Exponent) : List Char :=
  (if e.capital then 'E' else 'e') :: (signText e.sign ++ digitsText e.digits.list)

end Exponent

/-- **A number** as it is written. Every such structure has a text that is a
number, and two of them have the same text only if they are the same. -/
structure Numeral where
  /-- Whether it has a minus sign. -/
  minus : Bool
  /-- The digits of its whole part. -/
  whole : Digits
  /-- Only zero begins with a zero. -/
  shortest : whole.list.head? = some 0 → whole.list = [0]
  /-- The digits of its fraction. -/
  fraction : Option Digits
  /-- Its exponent. -/
  exponent : Option Exponent

namespace Numeral

/-- The text of a number after its sign and whole part. -/
def tailText (fraction : Option Digits) (exponent : Option Exponent) : List Char :=
  (fraction.elim [] fun ds => '.' :: digitsText ds.list) ++ exponent.elim [] Exponent.text

/-- The text of a number after its sign. -/
def unsigned (n : Numeral) : List Char :=
  digitsText n.whole.list ++ tailText n.fraction n.exponent

/-- **The text of a number.** -/
def text (n : Numeral) : List Char := (if n.minus then ['-'] else []) ++ n.unsigned

/-- The number that digits denote. -/
def valueOf (ds : List (Fin 10)) : Nat := ds.foldl (fun n d => n * 10 + d.val) 0

/-- Whether a number is written with neither fraction nor exponent. -/
def isWhole (n : Numeral) : Bool := n.fraction.isNone && n.exponent.isNone

/-- **The whole number** that is written out with its sign, if it has one. -/
def integer? (n : Numeral) : Option Int :=
  if n.isWhole then
    some (if n.minus then -(valueOf n.whole.list : Int) else (valueOf n.whole.list : Int))
  else none

/-- **The natural number** that is written out without a sign. A sign makes a
number none of these, and be it that of a zero. -/
def natural? (n : Numeral) : Option Nat :=
  if n.isWhole ∧ n.minus = false then some (valueOf n.whole.list) else none

end Numeral

/-! ## Strings

A string is a list of pieces, each of which is a plain character or an escape.
Half of a surrogate pair is a piece like any other, and so there are strings
that denote nothing. -/

/-- Whether a character stands for itself in a string: it is neither a control
character nor a quotation mark nor a backslash. -/
def isPlainChar (c : Char) : Bool := 32 ≤ c.toNat && c != '"' && c != '\\'

/-- What a letter stands for after a backslash. -/
def shortEscape? (c : Char) : Option Char :=
  if c = '"' ∨ c = '\\' ∨ c = '/' then some c
  else if c = 'b' then some (Char.ofNat 8)
  else if c = 'f' then some (Char.ofNat 12)
  else if c = 'n' then some '\n'
  else if c = 'r' then some '\r'
  else if c = 't' then some '\t'
  else none

/-- **A hexadecimal digit**, of either case. -/
structure HexDigit where
  /-- The character. -/
  char : Char
  /-- What it counts. -/
  value : Nat
  /-- It is one. -/
  isHex : Bytes.hexValue? char = some value

/-- **A piece of a string**, as it stands there. What it means is not in it, as
the numbers of a pair have a meaning only together. -/
inductive Piece where
  /-- A character that stands for itself. -/
  | plain (c : Char) (isPlain : isPlainChar c = true)
  /-- A letter after a backslash, and what it stands for. -/
  | short (letter c : Char) (isEscape : shortEscape? letter = some c)
  /-- The number of a character, in four digits. -/
  | code (a b c d : HexDigit)

namespace Piece

/-- The text of a piece. -/
def text : Piece → List Char
  | plain c _ => [c]
  | short letter _ _ => ['\\', letter]
  | code a b c d => ['\\', 'u', a.char, b.char, c.char, d.char]

end Piece

/-- The number in four digits. -/
def codeOf (a b c d : HexDigit) : Nat := ((a.value * 16 + b.value) * 16 + c.value) * 16 + d.value

/-- Whether a number is half a surrogate pair. -/
def isSurrogate (n : Nat) : Bool := 0xd800 ≤ n && n ≤ 0xdfff

/-- The character that two numbers make, if they are the first and the second
half of a surrogate pair. -/
def pairChar? (high low : Nat) : Option Char :=
  if high < 0xdc00 ∧ 0xdc00 ≤ low ∧ low ≤ 0xdfff then
    some (Char.ofNat (0x10000 + (high - 0xd800) * 0x400 + (low - 0xdc00)))
  else none

/-- **A string** as it is written: pieces between quotation marks. -/
abbrev Literal := List Piece

namespace Literal

/-- The text between the quotation marks. -/
def inner (l : Literal) : List Char := l.flatMap Piece.text

/-- **The text of a string.** -/
def text (l : Literal) : List Char := '"' :: (l.inner ++ ['"'])

/-- **The characters that a string denotes**, if it denotes any. -/
def chars? : Literal → Option (List Char)
  | [] => some []
  | .plain c _ :: rest => (chars? rest).map (c :: ·)
  | .short _ c _ :: rest => (chars? rest).map (c :: ·)
  | .code a b c d :: rest =>
    if isSurrogate (codeOf a b c d) then
      match rest with
      | .code a' b' c' d' :: rest =>
        (pairChar? (codeOf a b c d) (codeOf a' b' c' d')).bind fun char =>
          (chars? rest).map (char :: ·)
      | _ => none
    else (chars? rest).map (Char.ofNat (codeOf a b c d) :: ·)

theorem chars?_plain_cons {c : Char} (h : isPlainChar c = true) (l : Literal) :
    chars? (.plain c h :: l) = (chars? l).map (c :: ·) := by
  cases l <;> rfl

theorem chars?_short_cons {letter c : Char} (h : shortEscape? letter = some c) (l : Literal) :
    chars? (.short letter c h :: l) = (chars? l).map (c :: ·) := by
  cases l <;> rfl

theorem chars?_code_cons {a b c d : HexDigit} (h : isSurrogate (codeOf a b c d) = false)
    (l : Literal) :
    chars? (.code a b c d :: l) = (chars? l).map (Char.ofNat (codeOf a b c d) :: ·) := by
  rw [chars?.eq_def]
  dsimp only
  rw [h, if_neg Bool.false_ne_true]

/-- **The string that is denoted.** -/
def string? (l : Literal) : Option String := l.chars?.map String.ofList

end Literal

/-! ## Values

Blanks are part of the tree, so that a value has one text. Arrays and objects
come with a type for their items, in which every item has its own blanks, and
an empty one is a case of its own: it may have blanks between its brackets
that belong to no item. -/

/-- **A key of an object**, up to the colon. -/
structure KeyText where
  /-- The blanks before it. -/
  before : Blanks
  /-- The string. -/
  literal : Literal
  /-- The blanks between it and the colon. -/
  after : Blanks

/-- The text of a key. -/
def KeyText.text (k : KeyText) : List Char :=
  k.before.chars ++ (k.literal.text ++ (k.after.chars ++ [':']))

mutual

/-- **A JSON value** as it is written, without the blanks around it. It has all
the blanks inside, so that there is one text for each value. -/
inductive Value where
  /-- A word. -/
  | word (w : Word)
  /-- A number. -/
  | number (n : Numeral)
  /-- A string. -/
  | string (l : Literal)
  /-- An array without elements. -/
  | emptyArray (inside : Blanks)
  /-- An array. -/
  | array (es : Elements)
  /-- An object without fields. -/
  | emptyObject (inside : Blanks)
  /-- An object. -/
  | object (fs : Fields)

/-- **The elements of an array**, of which there is one at least. -/
inductive Elements where
  /-- The last one. -/
  | last (before : Blanks) (v : Value) (after : Blanks)
  /-- One, and more. -/
  | more (before : Blanks) (v : Value) (after : Blanks) (rest : Elements)

/-- **The fields of an object**, of which there is one at least. -/
inductive Fields where
  /-- The last one. -/
  | last (key : KeyText) (before : Blanks) (v : Value) (after : Blanks)
  /-- One, and more. -/
  | more (key : KeyText) (before : Blanks) (v : Value) (after : Blanks) (rest : Fields)

end

mutual

/-- **The text of a value.** -/
def Value.text : Value → List Char
  | .word w => w.text
  | .number n => n.text
  | .string l => Literal.text l
  | .emptyArray inside => '[' :: (inside.chars ++ [']'])
  | .array es => '[' :: (es.text ++ [']'])
  | .emptyObject inside => '\x7b' :: (inside.chars ++ ['\x7d'])
  | .object fs => '\x7b' :: (fs.text ++ ['\x7d'])

/-- The text of elements. -/
def Elements.text : Elements → List Char
  | .last before v after => before.chars ++ (v.text ++ after.chars)
  | .more before v after rest => before.chars ++ (v.text ++ (after.chars ++ ',' :: rest.text))

/-- The text of fields. -/
def Fields.text : Fields → List Char
  | .last key before v after => key.text ++ (before.chars ++ (v.text ++ after.chars))
  | .more key before v after rest =>
    key.text ++ (before.chars ++ (v.text ++ (after.chars ++ ',' :: rest.text)))

end

namespace Elements

/-- Elements with more blanks before them. -/
def pad (b : Blanks) : Elements → Elements
  | last before v after => last (b.append before) v after
  | more before v after rest => more (b.append before) v after rest

theorem text_pad (b : Blanks) (es : Elements) : (es.pad b).text = b.chars ++ es.text := by
  cases es <;> simp only [pad, text, Blanks.chars_append, List.append_assoc]

/-- Elements with more blanks after them. -/
def padEnd (b : Blanks) : Elements → Elements
  | last before v after => last before v (after.append b)
  | more before v after rest => more before v after (rest.padEnd b)

theorem text_padEnd (b : Blanks) : ∀ es : Elements, (es.padEnd b).text = es.text ++ b.chars
  | last _ _ _ => by simp only [padEnd, text, Blanks.chars_append, List.append_assoc]
  | more _ _ _ rest => by
    simp only [padEnd, text, text_padEnd b rest, List.append_assoc, List.cons_append]

end Elements

namespace Fields

/-- Fields with more blanks before them. -/
def pad (b : Blanks) : Fields → Fields
  | last key before v after => last { key with before := b.append key.before } before v after
  | more key before v after rest =>
    more { key with before := b.append key.before } before v after rest

theorem text_pad (b : Blanks) (fs : Fields) : (fs.pad b).text = b.chars ++ fs.text := by
  cases fs <;> simp only [pad, text, KeyText.text, Blanks.chars_append, List.append_assoc]

/-- **The entries that fields make**, in order: each with the string that its key
denotes, if all of them denote one. -/
def entries? : Fields → Option (List (String × Value))
  | last key _ v _ => key.literal.string?.map fun name => [(name, v)]
  | more key _ v _ rest => key.literal.string?.bind fun name => rest.entries?.map ((name, v) :: ·)

end Fields

/-- The string that a value denotes, if it is one. -/
def Value.string? : Value → Option String
  | .string l => l.string?
  | _ => none

/-- The strings that elements denote, in order, if all of them denote one. -/
def Elements.strings? : Elements → Option (List String)
  | last _ v _ => v.string?.map ([·])
  | more _ v _ rest => v.string?.bind fun s => rest.strings?.map (s :: ·)

namespace Value

/-- The natural number that a value is written out as, if it is one. -/
def natural? : Value → Option Nat
  | number n => n.natural?
  | _ => none

/-- The truth value that a value is, if it is one. -/
def bool? : Value → Option Bool
  | word (.bool b) => some b
  | _ => none

/-- The list of strings that a value denotes, if it is one. -/
def strings? : Value → Option (List String)
  | emptyArray _ => some []
  | array es => es.strings?
  | _ => none

/-- Whether a value is a null. -/
def null? : Value → Option Unit
  | word .null => some ()
  | _ => none

/-- Whether a value is an array. -/
def IsArray : Value → Prop
  | emptyArray _ => True
  | array _ => True
  | _ => False

/-- The entries of a value, if it is an object and its keys denote strings. -/
def entries? : Value → Option (List (String × Value))
  | emptyObject _ => some []
  | object fs => fs.entries?
  | _ => none

end Value

/-! ## Texts -/

/-- **A JSON text**: one value, and blanks around it. -/
structure Document where
  /-- The blanks before the value. -/
  before : Blanks
  /-- The value. -/
  value : Value
  /-- The blanks after it. -/
  after : Blanks

namespace Document

/-- **The text.** -/
def text (d : Document) : String :=
  String.ofList (d.before.chars ++ (d.value.text ++ d.after.chars))

end Document

end CertAuthority.Json
