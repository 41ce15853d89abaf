import CertAuthority.Json.Reader

/-!
# Reading values of a type

A reader of a type accepts the values that say one of its elements and
reports any other value by what it is (`Reader.unexpected`). Besides
strings and numbers there are two shapes: a *record*, given as an object of
named fields or as an array of them in order, where fields may be left out
and unknown ones are skipped; and a *choice*, given by a name, alone or
with a value.
-/

namespace CertAuthority.Json

namespace Reader

/-- Refuses the value that comes next, for being of the wrong type. -/
def unexpected {α : Type} (expected : String) : Reader α := placing do
  match ← peek with
  | none => refuseNext .expectedValue
  | some b =>
    if b = byte 'n' then
      skip
      word "ull".toList
      throw ⟨.invalidType .null expected, none⟩
    else if b = byte 't' then
      skip
      word "rue".toList
      throw ⟨.invalidType (.bool true) expected, none⟩
    else if b = byte 'f' then
      skip
      word "alse".toList
      throw ⟨.invalidType (.bool false) expected, none⟩
    else if b = byte '-' then
      skip
      throw ⟨.invalidType (← number true).found expected, none⟩
    else if isDigit b then throw ⟨.invalidType (← number false).found expected, none⟩
    else if b = byte '"' then throw ⟨.invalidType (.string (← string)) expected, none⟩
    else if b = byte '[' then throw ⟨.invalidType .array expected, none⟩
    else if b = byte '\x7b' then throw ⟨.invalidType .object expected, none⟩
    else refuseNext .expectedValue

/-! ## Strings and numbers -/

/-- **Reads a string** and takes from it what `use` finds. -/
def stringAs {α : Type} (expected : String) (use : String → Except Cause α) : Reader α := do
  match ← blanks with
  | none => refuseNext .endInValue
  | some b =>
    if b = byte '"' then
      match use (← string) with
      | .ok a => return a
      | .error cause => refuse cause
    else unexpected expected

/-- Reads a string. -/
def text (expected : String) : Reader String := stringAs expected .ok

/-- **Reads a whole number** of at most thirty-two bits. -/
def nat32 : Reader Nat := do
  match ← blanks with
  | none => refuseNext .endInValue
  | some b =>
    if b = byte '-' ∨ isDigit b then
      if b = byte '-' then skip
      match ← number (b == byte '-') with
      | .natural n => if n < Nat.pow 2 32 then return n else refuse (.invalidValue (.int n) "u32")
      | .negative n => refuse (.invalidValue (.int n) "u32")
      | .double minus x => refuse (.invalidType (.float (x.text minus)) "u32")
    else unexpected "u32"

/-- Reads a null. -/
def unit : Reader Unit := do
  match ← blanks with
  | none => refuseNext .endInValue
  | some b =>
    if b = byte 'n' then
      skip
      word "ull".toList
    else unexpected "unit"

/-! ## Records -/

/-- **A field of a record**: its name, and how the record changes when it
is read. -/
structure Field (σ : Type) where
  /-- The name. -/
  name : String
  /-- Reads the value into a record. -/
  read : σ → Reader σ

/-- Reads a colon. -/
def colon : Reader Unit := do
  match ← blanks with
  | none => refuseNext .endInObject
  | some b => if b = byte ':' then skip else refuseNext .expectedColon

/-- Looks for the next key of an object; the result is whether there is
one. -/
def nextKey (first : Bool) : Reader Bool := do
  match ← blanks with
  | none => refuseNext .endInObject
  | some b =>
    if b = byte '\x7d' then return false
    else if first then
      if b = byte '"' then return true else refuseNext .keyNotString
    else if b = byte ',' then
      skip
      match ← blanks with
      | none => refuseNext .endInValue
      | some c =>
        if c = byte '"' then return true
        else if c = byte '\x7d' then refuseNext .trailingComma
        else refuseNext .keyNotString
    else refuseNext .expectedCommaOrBrace

/-- Looks for the next element of an array; the result is whether there is
one. -/
def nextElement (first : Bool) : Reader Bool := do
  match ← blanks with
  | none => refuseNext .endInArray
  | some b =>
    if b = byte ']' then return false
    else if first then return true
    else if b = byte ',' then
      skip
      match ← blanks with
      | none => refuseNext .endInValue
      | some c => if c = byte ']' then refuseNext .trailingComma else return true
    else refuseNext .expectedCommaOrBracket

/-- Reads the fields of an object. `seen` are the names that have
occurred. -/
def objectFields {σ : Type} (fields : List (Field σ)) :
    (fuel : Nat) → (first : Bool) → (seen : List String) → σ → Reader σ
  | 0, _, _, _ => refuseNext .endInObject
  | fuel + 1, first, seen, a => do
    if ← nextKey first then
      let key ← string
      match fields.find? fun f => f.name == key with
      | none =>
        colon
        skipValue ((← left) + 1)
        objectFields fields fuel false seen a
      | some f =>
        if seen.contains key then throw ⟨.duplicateField key, none⟩
        else
          colon
          let a ← f.read a
          objectFields fields fuel false (key :: seen) a
    else return a

/-- Reads the elements of an array into the fields, in order. -/
def arrayFields {σ : Type} : (first : Bool) → List (Field σ) → σ → Reader σ
  | _, [], a => return a
  | first, f :: fields, a => do
    if ← nextElement first then
      let a ← f.read a
      arrayFields false fields a
    else return a

/-- Reads the end of an object. -/
def endObject : Reader Unit := do
  match ← blanks with
  | none => refuseNext .endInObject
  | some b =>
    if b = byte '\x7d' then skip
    else if b = byte ',' then refuseNext .trailingComma
    else refuseNext .trailingCharacters

/-- Reads the end of an array. -/
def endArray : Reader Unit := do
  match ← blanks with
  | none => refuseNext .endInArray
  | some b =>
    if b = byte ']' then skip
    else if b = byte ',' then
      skip
      if (← blanks) = some (byte ']') then refuseNext .trailingComma
      else refuseNext .trailingCharacters
    else refuseNext .trailingCharacters

/-- Reads a value and then its end, which is looked for even if the value
is refused. -/
def closedBy {α : Type} (read : Reader α) (close : Reader Unit) : Reader α := fun c =>
  match read c with
  | .ok a c' =>
    match close c' with
    | .ok () c'' => .ok a c''
    | .error e c'' => .error e c''
  | .error e c' =>
    match close c' with
    | .ok () c'' => .error e c''
    | .error _ c'' => .error e c''

/-- **Reads a record**, starting from one in which every field has a
value. -/
def record {σ : Type} (expected : String) (fields : List (Field σ)) (start : σ) : Reader σ :=
  placing do
    match ← blanks with
    | none => refuseNext .endInValue
    | some b =>
      if b = byte '[' then
        skip
        closedBy (arrayFields true fields start) endArray
      else if b = byte '\x7b' then
        skip
        closedBy (objectFields fields ((← left) + 1) true [] start) endObject
      else unexpected expected

/-! ## Choices -/

/-- A list of names as alternatives. -/
def alternatives (names : List String) : String :=
  let ticked (s : String) : String := "`" ++ s ++ "`"
  match names with
  | [a] => ticked a
  | [a, b] => ticked a ++ " or " ++ ticked b
  | _ => "one of " ++ ", ".intercalate (names.map ticked)

/-- Reads the name of a choice. -/
def choiceName {κ : Type} (choices : List (String × κ)) : Reader κ :=
  stringAs "variant identifier" fun s =>
    match choices.lookup s with
    | some k => .ok k
    | none => .error (.unknownVariant s (alternatives (choices.map (·.1))))

/-- **Reads a choice**: a name alone, or an object with the name as its
only key. -/
def choice {κ α : Type} (choices : List (String × κ)) (alone withValue : κ → Reader α) :
    Reader α := do
  match ← blanks with
  | none => refuseNext .endInValue
  | some b =>
    if b = byte '"' then
      alone (← choiceName choices)
    else if b = byte '\x7b' then
      skip
      let k ← choiceName choices
      colon
      let a ← withValue k
      match ← blanks with
      | none => refuse .endInObject
      | some c =>
        if c = byte '\x7d' then
          skip
          return a
        else refuse .expectedValue
    else refuseNext .expectedValue

end Reader

/-- **Reads a whole text** with a reader. -/
def decode {α : Type} (read : Reader α) (text : String) : Except Fault α :=
  let whole : Reader α := do
    let a ← read
    match ← Reader.blanks with
    | none => return a
    | some _ => Reader.refuseNext .trailingCharacters
  match whole (Cursor.start text) with
  | .ok a _ => .ok a
  | .error e _ => .error e

end CertAuthority.Json
