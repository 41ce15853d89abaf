import CertAuthority.Json.Write
import CertAuthority.Proofs.Json.Grammar

/-!
# What is written is JSON

The text of an object as it is written is the text of a syntax tree, and the
entries of the tree are the fields that were written
(`Document.entries?_laidOut`). A string is written so that it denotes itself,
whatever its characters (`Literal.string?_ofString`), and a number so that it
is the natural number that it is (`Numeral.natural?_ofNat`). Neither is said
about a reader: what a text says is a matter of the grammar, and which of
these texts the readers of this library take is a question of its own, as it
is for the readers of anyone else.

The two ways of writing an object differ in their blanks only, which a
`Layout` says: there are none in what is written for machines
(`Document.text_ofObject`), and a field a line in what is written for people
(`Document.text_pretty`). So the tree is built once, for any layout, and what
the object denotes is proved once for both.

The functions that write join texts with commas, whereas the tree of an object
has its first field apart from the others, because an object without fields is
something else in the grammar. Hence the statements about elements and fields
are about a first one and the rest, and go by induction on the rest.
-/

namespace CertAuthority.Json

/-! ## Strings

A writer has a choice for every character, and its choices are all among those
of the grammar. Characters with a letter of their own are written with it,
other control characters by number, and the rest as they are. -/

/-- The hexadecimal digit of a number, as it is written: with small letters. -/
def HexDigit.ofFin (n : Fin 16) : HexDigit where
  char := Bytes.hexDigit n.val
  value := n.val
  isHex := by
    revert n
    decide

/-- **A character as a piece of a string**, as it is written: by a letter where
there is one for it, by its number where it is some other control character, and
as itself otherwise. -/
def Piece.ofChar (c : Char) : Piece :=
  if hquote : c = '"' then .short '"' '"' (by decide)
  else if hbackslash : c = '\\' then .short '\\' '\\' (by decide)
  else if c = '\n' then .short 'n' '\n' (by decide)
  else if c = '\r' then .short 'r' '\r' (by decide)
  else if c = '\t' then .short 't' '\t' (by decide)
  else if c.toNat = 8 then .short 'b' (Char.ofNat 8) (by decide)
  else if c.toNat = 12 then .short 'f' (Char.ofNat 12) (by decide)
  else if hcontrol : c.toNat < 32 then
    .code (.ofFin 0) (.ofFin 0) (.ofFin ⟨c.toNat / 16, by omega⟩) (.ofFin ⟨c.toNat % 16, by omega⟩)
  else .plain c (by
    simp only [isPlainChar, Bool.and_eq_true, decide_eq_true_eq, bne_iff_ne]
    exact ⟨⟨Nat.not_lt.1 hcontrol, hquote⟩, hbackslash⟩)

theorem Piece.text_ofChar (c : Char) : (ofChar c).text = stringChar c := by
  unfold ofChar stringChar
  by_cases hquote : c = '"'
  · rw [dif_pos hquote, if_pos hquote, text]
  rw [dif_neg hquote, if_neg hquote]
  by_cases hbackslash : c = '\\'
  · rw [dif_pos hbackslash, if_pos hbackslash, text]
  rw [dif_neg hbackslash, if_neg hbackslash]
  by_cases hn : c = '\n'
  · rw [if_pos hn, if_pos hn, text]
  rw [if_neg hn, if_neg hn]
  by_cases hr : c = '\r'
  · rw [if_pos hr, if_pos hr, text]
  rw [if_neg hr, if_neg hr]
  by_cases ht : c = '\t'
  · rw [if_pos ht, if_pos ht, text]
  rw [if_neg ht, if_neg ht]
  by_cases hb : c.toNat = 8
  · rw [if_pos hb, if_pos hb, text]
  rw [if_neg hb, if_neg hb]
  by_cases hf : c.toNat = 12
  · rw [if_pos hf, if_pos hf, text]
  rw [if_neg hf, if_neg hf]
  by_cases hcontrol : c.toNat < 32
  · rw [dif_pos hcontrol, if_pos hcontrol]
    rfl
  · rw [dif_neg hcontrol, if_neg hcontrol, text]

theorem eq_ofNat {c : Char} {n : Nat} (h : c.toNat = n) : c = Char.ofNat n := by
  rw [← h, Char.ofNat_toNat]

/-- A character is written so that it stands for itself: in front of any other
pieces it adds itself to what they denote, for no number that is written is half
of a pair. -/
theorem chars?_ofChar_cons (c : Char) (l : Literal) :
    Literal.chars? (Piece.ofChar c :: l) = l.chars?.map (c :: ·) := by
  -- First the characters with a letter of their own, then the other control characters.
  unfold Piece.ofChar
  split
  · rename_i hquote
    rw [Literal.chars?_short_cons, hquote]
  split
  · rename_i hbackslash
    rw [Literal.chars?_short_cons, hbackslash]
  split
  · rename_i hn
    rw [Literal.chars?_short_cons, hn]
  split
  · rename_i hr
    rw [Literal.chars?_short_cons, hr]
  split
  · rename_i ht
    rw [Literal.chars?_short_cons, ht]
  split
  · rename_i hb
    rw [Literal.chars?_short_cons, eq_ofNat hb]
  split
  · rename_i hf
    rw [Literal.chars?_short_cons, eq_ofNat hf]
  split
  · rename_i hcontrol
    have hcode : codeOf (.ofFin 0) (.ofFin 0) (.ofFin ⟨c.toNat / 16, by omega⟩)
        (.ofFin ⟨c.toNat % 16, by omega⟩) = c.toNat := by
      show ((0 * 16 + 0) * 16 + c.toNat / 16) * 16 + c.toNat % 16 = c.toNat
      omega
    have hpair : isSurrogate c.toNat = false := by
      rw [isSurrogate, Bool.and_eq_false_iff, decide_eq_false_iff_not]
      omega
    rw [Literal.chars?_code_cons (by rw [hcode]; exact hpair), hcode, Char.ofNat_toNat]
  · exact Literal.chars?_plain_cons _ l

/-- **A string as it is written.** -/
def Literal.ofString (s : String) : Literal := s.toList.map Piece.ofChar

/-- Its text is the string in quotation marks, as it is written. -/
theorem Literal.text_ofString (s : String) : (ofString s).text = (quote s).toList := by
  rw [quote, String.toList_ofList, text, inner, ofString, List.flatMap_map]
  simp only [Piece.text_ofChar, List.cons_append]

/-- **A string denotes itself** as it is written. -/
theorem Literal.string?_ofString (s : String) : (ofString s).string? = some s := by
  have hchars : ∀ cs : List Char, chars? (cs.map Piece.ofChar) = some cs := by
    intro cs
    induction cs with
    | nil => rfl
    | cons c cs ih => rw [List.map_cons, chars?_ofChar_cons, ih, Option.map_some]
  rw [string?, ofString, hchars, Option.map_some, String.ofList_toList]

/-! ## Numbers

The digits of a number are written by the library. The grammar asks for a
first digit that is not zero, unless it is the only one, and the digits of the
library are so. -/

/-- The decimal digits of a number, the first one first. Zero has one of its
own. -/
def decimalDigits (n : Nat) : List (Fin 10) :=
  if h : n < 10 then [⟨n, h⟩]
  else decimalDigits (n / 10) ++ [⟨n % 10, Nat.mod_lt n (by decide)⟩]

theorem decimalDigits_of_lt {n : Nat} (h : n < 10) : decimalDigits n = [⟨n, h⟩] := by
  rw [decimalDigits, dif_pos h]

/-- A larger one is written as its tens and a last digit. -/
theorem decimalDigits_of_le {n : Nat} (h : 10 ≤ n) :
    decimalDigits n = decimalDigits (n / 10) ++ [⟨n % 10, Nat.mod_lt n (by decide)⟩] := by
  rw [decimalDigits, dif_neg (Nat.not_lt.2 h)]

/-- **The digits of a number denote it.** -/
theorem valueOf_decimalDigits (n : Nat) : Numeral.valueOf (decimalDigits n) = n := by
  induction n using Nat.strongRecOn with
  | ind n ih =>
    rcases Nat.lt_or_ge n 10 with h | h
    · rw [decimalDigits_of_lt h]
      exact Nat.zero_add n
    · have hdiv := ih (n / 10) (by omega)
      rw [Numeral.valueOf] at hdiv
      rw [decimalDigits_of_le h, Numeral.valueOf, List.foldl_append, hdiv]
      show n / 10 * 10 + n % 10 = n
      omega

/-- The grammar has the characters of digits that the library has. -/
theorem digitChar_eq (d : Fin 10) : digitChar d = Nat.digitChar d.val := by
  revert d
  decide

/-- The digits are those by which the library prints numbers. -/
theorem digitsText_decimalDigits (n : Nat) :
    digitsText (decimalDigits n) = Nat.toDigits 10 n := by
  induction n using Nat.strongRecOn with
  | ind n ih =>
    rcases Nat.lt_or_ge n 10 with h | h
    · rw [decimalDigits_of_lt h, Nat.toDigits_of_lt_base h, digitsText, List.map_singleton,
        digitChar_eq]
    · rw [decimalDigits_of_le h, Nat.toDigits_of_base_le (by decide) h, digitsText,
        List.map_append, ← ih (n / 10) (by omega), List.map_singleton, digitChar_eq]
      rfl

theorem decimalDigits_ne_nil (n : Nat) : decimalDigits n ≠ [] := by
  rcases Nat.lt_or_ge n 10 with h | h
  · rw [decimalDigits_of_lt h]
    exact List.cons_ne_nil _ _
  · rw [decimalDigits_of_le h]
    exact List.append_ne_nil_of_right_ne_nil _ (List.cons_ne_nil _ _)

/-- Only zero begins with a zero, as the grammar asks of numbers. -/
theorem decimalDigits_shortest (n : Nat) (h : (decimalDigits n).head? = some 0) :
    decimalDigits n = [0] := by
  induction n using Nat.strongRecOn with
  | ind n ih =>
    rcases Nat.lt_or_ge n 10 with hn | hn
    · rw [decimalDigits_of_lt hn] at h ⊢
      rw [Option.some.inj h]
    · rw [decimalDigits_of_le hn, List.head?_append_of_ne_nil _ (decimalDigits_ne_nil _)] at h
      -- what is left of the last digit is not zero
      have hvalue := valueOf_decimalDigits (n / 10)
      rw [ih (n / 10) (by omega) h] at hvalue
      have hzero : 0 = n / 10 := hvalue
      omega

/-- **A natural number as it is written**: without a sign, a fraction or an
exponent. -/
def Numeral.ofNat (n : Nat) : Numeral where
  minus := false
  whole := ⟨decimalDigits n, decimalDigits_ne_nil n⟩
  shortest := decimalDigits_shortest n
  fraction := none
  exponent := none

theorem Numeral.text_ofNat (n : Nat) : (ofNat n).text = (toString n).toList := by
  rw [show (toString n).toList = Nat.toDigits 10 n from Nat.toList_repr, ← digitsText_decimalDigits]
  exact List.append_nil _

/-- **A natural number denotes itself** as it is written. -/
theorem Numeral.natural?_ofNat (n : Nat) : (ofNat n).natural? = some n := by
  rw [natural?, if_pos ⟨rfl, rfl⟩]
  exact congrArg some (valueOf_decimalDigits n)

/-! ## Layouts -/

/-- **Where blanks stand** in the text of an object. The two layouts that are
written differ in nothing else. -/
structure Layout where
  /-- In front of each field. -/
  field : Blanks
  /-- Between a colon and a value. -/
  gap : Blanks
  /-- After the last field. -/
  fieldsEnd : Blanks
  /-- In front of each element of a list. -/
  element : Blanks
  /-- After the last element. -/
  elementsEnd : Blanks

/-- A new line, so far indented. -/
def Blanks.line (indent : Nat) : Blanks where
  chars := '\n' :: List.replicate indent ' '
  blank := by
    intro c hc
    rcases List.mem_cons.1 hc with rfl | hspace
    · rfl
    · rw [List.eq_of_mem_replicate hspace]
      rfl

/-- Without blanks. -/
def Layout.compact : Layout := ⟨.none, .none, .none, .none, .none⟩

/-- With a field a line, and an element a line. -/
def Layout.pretty : Layout :=
  ⟨.line 2, ⟨[' '], List.forall_mem_singleton.2 rfl⟩, .line 0, .line 4, .line 2⟩

/-! ## Values

A value is written with or without line breaks. In either layout its tree is
known before its text, and the two texts are compared with the writer's. -/

/-- The elements of a list of strings as it is written. -/
def Elements.ofStrings (y : Layout) (s : String) : List String → Elements
  | [] => .last y.element (.string (.ofString s)) y.elementsEnd
  | s' :: l => .more y.element (.string (.ofString s)) .none (ofStrings y s' l)

/-- The elements of a list are written with commas between them. -/
theorem Elements.text_ofStrings (y : Layout) (s : String) (l : List String) :
    (ofStrings y s l).text
      = (",".intercalate ((s :: l).map fun s => String.ofList y.element.chars ++ quote s)).toList
        ++ y.elementsEnd.chars := by
  induction l generalizing s with
  | nil =>
    rw [ofStrings, text, Value.text, Literal.text_ofString, List.map_singleton,
      String.intercalate_singleton, String.toList_append, String.toList_ofList, List.append_assoc]
  | cons s' l ih =>
    have hcons : ∀ f : String → String, ",".intercalate ((s :: s' :: l).map f)
        = f s ++ "," ++ ",".intercalate ((s' :: l).map f) := fun f => String.intercalate_cons_cons
    rw [ofStrings, text, ih, hcons, Value.text, Literal.text_ofString, Blanks.chars_none]
    simp only [String.toList_append, String.toList_ofList, List.nil_append, List.append_assoc]
    rfl

/-- **The value of a field as it is written.** -/
def Item.laidOut (y : Layout) : Item → Value
  | .bool b => .word (.bool b)
  | .nat n => .number (.ofNat n)
  | .string s => .string (.ofString s)
  | .strings [] => .emptyArray .none
  | .strings (s :: l) => .array (.ofStrings y s l)

/-- The value of a field as it is written without blanks. -/
def Item.value (item : Item) : Value := item.laidOut .compact

/-- Without blanks the text of a field's value is what is written for machines.
-/
theorem Item.text_value (item : Item) : item.value.text = item.compact.toList := by
  match item with
  | .bool true | .bool false => rfl
  | .nat n => exact Numeral.text_ofNat n
  | .string s => exact Literal.text_ofString s
  | .strings [] => rfl
  | .strings (s :: l) =>
    have hlead : ∀ s, String.ofList Layout.compact.element.chars ++ quote s = quote s := fun s =>
      String.empty_append
    rw [value, laidOut, Value.text, Elements.text_ofStrings, List.map_congr_left fun s _ => hlead s,
      compact, list, String.toList_append, String.toList_append, List.append_assoc]
    rfl

/-- The fields of an object as it is written. -/
def Fields.ofObject (y : Layout) (field : String × Item) : Object → Fields
  | [] => .last ⟨y.field, .ofString field.1, .none⟩ y.gap (field.2.laidOut y) y.fieldsEnd
  | field' :: o => .more ⟨y.field, .ofString field.1, .none⟩ y.gap (field.2.laidOut y) .none
      (ofObject y field' o)

/-- A field with the blanks in front of it. -/
def Layout.fieldText (y : Layout) (field : String × Item) : String :=
  String.ofList (y.field.chars ++ (quote field.1).toList ++ ':' :: y.gap.chars
    ++ (field.2.laidOut y).text)

/-- The fields of an object are written with commas between them. -/
theorem Fields.text_ofObject (y : Layout) (field : String × Item) (o : Object) :
    (ofObject y field o).text
      = (",".intercalate ((field :: o).map y.fieldText)).toList ++ y.fieldsEnd.chars := by
  have hkey : ∀ (field : String × Item) (s : List Char),
      (KeyText.mk y.field (.ofString field.1) .none).text
          ++ (y.gap.chars ++ ((field.2.laidOut y).text ++ s))
        = (y.fieldText field).toList ++ s := by
    intro field s
    rw [KeyText.text, Literal.text_ofString, Layout.fieldText, String.toList_ofList]
    simp only [Blanks.chars_none, List.nil_append, List.append_assoc, List.cons_append]
  induction o generalizing field with
  | nil => rw [ofObject, text, hkey, List.map_singleton, String.intercalate_singleton]
  | cons field' o ih =>
    have hcons : ",".intercalate ((field :: field' :: o).map y.fieldText)
        = y.fieldText field ++ "," ++ ",".intercalate ((field' :: o).map y.fieldText) :=
      String.intercalate_cons_cons
    rw [ofObject, text, hkey, ih, hcons, String.toList_append, String.toList_append,
      Blanks.chars_none, List.append_assoc, List.append_assoc]
    rfl

/-- They say what was written in each of them, under its name. -/
theorem Fields.entries?_ofObject (y : Layout) (field : String × Item) (o : Object) :
    (ofObject y field o).entries?
      = some ((field :: o).map fun (name, item) => (name, item.laidOut y)) := by
  induction o generalizing field with
  | nil => rw [ofObject, entries?, Literal.string?_ofString, Option.map_some]; rfl
  | cons field' o ih =>
    rw [ofObject, entries?, Literal.string?_ofString, Option.bind_some, ih, Option.map_some]
    rfl

/-! ## Objects -/

/-- **An object as it is written** in a layout. -/
def Document.laidOut (y : Layout) (o : Object) : Document where
  before := .none
  value :=
    match o with
    | [] => .emptyObject .none
    | field :: o => .object (.ofObject y field o)
  after := .none

/-- **The entries of an object are the fields** that were written, in their
order and with their values, whatever blanks they were written with. -/
theorem Document.entries?_laidOut (y : Layout) (o : Object) :
    (laidOut y o).value.entries? = some (o.map fun (name, item) => (name, item.laidOut y)) := by
  cases o with
  | nil => rfl
  | cons field o => exact Fields.entries?_ofObject y field o

/-- An object as it is written without blanks. -/
def Document.ofObject (o : Object) : Document := laidOut .compact o

/-- **What is written for machines** is the object without blanks. -/
theorem Document.text_ofObject (o : Object) : (ofObject o).text = compact o := by
  have hfield : ∀ field, Layout.compact.fieldText field
      = quote field.1 ++ ":" ++ field.2.compact := by
    intro field
    rw [Layout.fieldText, show field.2.laidOut .compact = field.2.value from rfl, Item.text_value,
      ← String.toList_inj]
    simp [Layout.compact]
  rw [text, ← String.toList_inj, String.toList_ofList]
  cases o with
  | nil => rfl
  | cons field o =>
    show '\x7b' :: ((Fields.ofObject .compact field o).text ++ ['\x7d']) ++ [] = _
    rw [Fields.text_ofObject, List.map_congr_left fun field _ => hfield field, compact, list,
      String.toList_append, String.toList_append, List.append_nil, List.append_assoc,
      List.append_assoc]
    rfl

theorem Document.entries?_ofObject (o : Object) :
    (ofObject o).value.entries? = some (o.map fun (name, item) => (name, item.value)) :=
  entries?_laidOut .compact o

/-- A document with a line end after it. -/
def Document.endLine (d : Document) : Document := { d with after := d.after.append (.line 0) }

/-- Its text is that of the document and a line end. -/
theorem Document.text_endLine (d : Document) : d.endLine.text = d.text ++ "\n" := by
  rw [← String.toList_inj, String.toList_append, text, text, String.toList_ofList,
    String.toList_ofList]
  simp [endLine, Blanks.line]

end CertAuthority.Json
