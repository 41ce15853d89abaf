import CertAuthority.Bytes

/-!
# Writing JSON texts

What is written is flat: an object whose fields hold strings, numbers,
truth values or lists of strings. `compact` writes it without a blank, for
machines, and `pretty` with a field a line, for people.

In strings only quotation marks, backslashes and control characters are
escaped; everything else stands as it is.
-/

namespace CertAuthority.Json

/-- **The value of a field.** -/
inductive Item where
  /-- A truth value. -/
  | bool (b : Bool)
  /-- A whole number. -/
  | nat (n : Nat)
  /-- A string. -/
  | string (s : String)
  /-- A list of strings. -/
  | strings (l : List String)
  deriving DecidableEq, Repr

/-- **An object**: fields in order. -/
abbrev Object := List (String × Item)

/-- The four hexadecimal digits of a control character. -/
def controlDigits (n : Nat) : List Char :=
  ['0', '0', Bytes.hexDigit (n / 16), Bytes.hexDigit (n % 16)]

/-- A character as it stands in a string. -/
def stringChar (c : Char) : List Char :=
  if c = '"' then ['\\', '"']
  else if c = '\\' then ['\\', '\\']
  else if c = '\n' then ['\\', 'n']
  else if c = '\r' then ['\\', 'r']
  else if c = '\t' then ['\\', 't']
  else if c.toNat = 8 then ['\\', 'b']
  else if c.toNat = 12 then ['\\', 'f']
  else if c.toNat < 32 then '\\' :: 'u' :: controlDigits c.toNat
  else [c]

/-- **A string between quotation marks.** -/
def quote (s : String) : String :=
  String.ofList ('"' :: s.toList.flatMap stringChar ++ ['"'])

/-- Items between two marks, with commas between them. -/
def list (start finish : String) (items : List String) : String :=
  start ++ ",".intercalate items ++ finish

/-- A value without blanks. -/
def Item.compact : Item → String
  | .bool b => if b then "true" else "false"
  | .nat n => toString n
  | .string s => quote s
  | .strings l => list "[" "]" (l.map quote)

/-- **An object without blanks.** -/
def compact (o : Object) : String :=
  list "\x7b" "\x7d" (o.map fun (name, item) => quote name ++ ":" ++ item.compact)

/-- Items between two marks, a line each, indented by two blanks more than
`indent`. -/
def lines (indent start finish : String) (items : List String) : String :=
  match items with
  | [] => start ++ finish
  | _ =>
    let line (item : String) : String := "\n" ++ indent ++ "  " ++ item
    start ++ ",".intercalate (items.map line) ++ "\n" ++ indent ++ finish

/-- A value within an object of a field a line. -/
def Item.pretty : Item → String
  | .strings l => lines "  " "[" "]" (l.map quote)
  | item => item.compact

/-- **An object of a field a line.** -/
def pretty (o : Object) : String :=
  lines "" "\x7b" "\x7d" (o.map fun (name, item) => quote name ++ ": " ++ item.pretty)

end CertAuthority.Json
