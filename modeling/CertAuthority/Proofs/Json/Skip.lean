import CertAuthority.Proofs.Json.Numbers

/-!
# Skipping values

A value of any type and depth is skipped, and nothing but a value is
(`reads_skipValue`, `after_skipValue`). The one goes by induction on the
syntax tree, where the length of its text bounds the steps that it takes; the
other by induction on the steps. The reader does this with every entry whose
name it does not know, so an unknown entry has to be as well formed as any
other, and what is nested inside makes no difference.

Where a value ends is a matter of what follows it. A number goes on with any
digit that comes next, so that the statements about values have a hypothesis
about what is behind them (`EndsValue`). The marks that may stand behind a
value in the grammar all satisfy it, and so does the end of the text.

In front of the elements of an array and the fields of an object the blanks
are skipped twice: once to see whether there are any, and once more by the
reader of the first of them. So a tree is read from its first character that
is not blank (`Elements.core`, `Fields.core`), after blanks of any number.
-/

namespace CertAuthority.Json

open Text

/-! ## What follows a value -/

/-- Whether a text may follow a value or a key: it begins with a blank, a mark
that separates or ends values, or it is empty. -/
def EndsValue (s : List Char) : Prop :=
  ∀ c ∈ s.head?, isSpaceChar c = true ∨ c = ',' ∨ c = ']' ∨ c = '\x7d' ∨ c = ':'

theorem endsValue_cons {c : Char} (h : c = ',' ∨ c = ']' ∨ c = '\x7d' ∨ c = ':')
    (s : List Char) :
    EndsValue (c :: s) := by
  intro c' hc'
  obtain rfl := Option.some.inj hc'
  exact Or.inr h

/-- Blanks end a value, or what is behind them does if there are none. -/
theorem Blanks.endsValue (b : Blanks) {s : List Char} (h : EndsValue s) :
    EndsValue (b.chars ++ s) := by
  obtain ⟨chars, hblank⟩ := b
  cases chars with
  | nil => exact h
  | cons c chars =>
    intro c' hc'
    obtain rfl := Option.some.inj hc'
    exact Or.inl (hblank c List.mem_cons_self)

theorem EndsValue.endsNumber {s : List Char} (h : EndsValue s) : EndsNumber s := by
  intro x hx
  have hascii : ∀ c, isSpaceChar c = true ∨ c = ',' ∨ c = ']' ∨ c = '\x7d' ∨ c = ':' →
      Reader.isDigit (byte c) = false ∧ byte c ≠ byte '.' ∧ byte c ≠ byte 'e'
        ∧ byte c ≠ byte 'E' := by
    intro c hc
    simp only [isSpaceChar, Bool.or_eq_true, beq_iff_eq] at hc
    rcases hc with (((rfl | rfl) | rfl) | rfl) | rfl | rfl | rfl | rfl <;> decide
  cases s with
  | nil => cases hx
  | cons c s =>
    have hc := h c rfl
    have hlow : c.toNat < 128 := by
      simp only [isSpaceChar, Bool.or_eq_true, beq_iff_eq] at hc
      rcases hc with (((rfl | rfl) | rfl) | rfl) | rfl | rfl | rfl | rfl <;> decide
    rw [encode_cons hlow] at hx
    obtain rfl := Option.some.inj hx
    exact hascii c hc

/-! ## Texts from their first character

A value is skipped according to its first character, which comes after blanks.
The text of an item has these blanks in front, so it is split there, and what
is left begins with a character that says what is to come. -/

/-- The text of a key from its quotation mark on. -/
def KeyText.core (k : KeyText) : List Char := k.literal.text ++ (k.after.chars ++ [':'])

/-- The text of a key is the blanks in front of it and that. -/
theorem KeyText.text_eq (k : KeyText) : k.text = k.before.chars ++ k.core := rfl

namespace Elements

/-- The blanks in front of elements. -/
def before : Elements → Blanks
  | last b _ _ => b
  | more b _ _ _ => b

/-- The text of elements without the blanks in front of them. -/
def core : Elements → List Char
  | last _ v after => v.text ++ after.chars
  | more _ v after rest => v.text ++ (after.chars ++ ',' :: rest.text)

/-- The text of elements is the blanks in front of them and that. -/
theorem text_eq (es : Elements) : es.text = es.before.chars ++ es.core := by
  cases es <;> rfl

end Elements

namespace Fields

/-- The blanks in front of fields. -/
def before : Fields → Blanks
  | last key _ _ _ => key.before
  | more key _ _ _ _ => key.before

/-- The text of fields without the blanks in front of them. -/
def core : Fields → List Char
  | last key b v after => key.core ++ (b.chars ++ (v.text ++ after.chars))
  | more key b v after rest =>
    key.core ++ (b.chars ++ (v.text ++ (after.chars ++ ',' :: rest.text)))

theorem text_eq (fs : Fields) : fs.text = fs.before.chars ++ fs.core := by
  cases fs <;> simp only [text, before, core, KeyText.text_eq, List.append_assoc]

end Fields

/-- A digit is none of the characters that are no digits. -/
theorem digitChar_ne {c : Char} (h : Reader.isDigit (byte c) = false) (d : Fin 10) :
    digitChar d ≠ c := by
  rintro rfl
  rw [isDigit_byte_digitChar] at h
  cases h

namespace Numeral

variable {n : Numeral}

/-- Without a sign the text of a number is its digits and what follows them. -/
theorem text_of_plain (h : n.minus = false) : n.text = n.unsigned := by
  rw [text, h]
  rfl

theorem text_of_minus (h : n.minus = true) : n.text = '-' :: n.unsigned := by
  rw [text, h]
  rfl

end Numeral

/-- The first character of a number, which is how the readers know that it is
one: a minus, and then the number is negative, or else a digit. -/
theorem Numeral.exists_text (n : Numeral) :
    ∃ c rest, n.text = c :: rest ∧ (c = '-' ∧ n.minus = true ∧ rest = n.unsigned ∨
      n.minus = false ∧ ∃ d, c = digitChar d) := by
  obtain ⟨d, ds, hlist⟩ := List.exists_cons_of_ne_nil n.whole.ne_nil
  cases hminus : n.minus
  · refine ⟨digitChar d, digitsText ds ++ tailText n.fraction n.exponent, ?_,
      Or.inr ⟨rfl, d, rfl⟩⟩
    rw [text_of_plain hminus, unsigned, hlist]
    rfl
  · exact ⟨'-', n.unsigned, text_of_minus hminus, Or.inl ⟨rfl, rfl, rfl⟩⟩

/-- **A value begins with a character** that is neither blank nor the end of an
array. -/
theorem Value.exists_text (v : Value) :
    ∃ c rest, v.text = c :: rest ∧ c.toNat < 128 ∧ isSpaceChar c = false ∧ c ≠ ']' := by
  cases v with
  | word w =>
    rcases w with _ | _ | _
    · exact ⟨'n', _, by rw [text, Word.text], by decide, by decide, by decide⟩
    · exact ⟨'f', _, by rw [text, Word.text], by decide, by decide, by decide⟩
    · exact ⟨'t', _, by rw [text, Word.text], by decide, by decide, by decide⟩
  | number n =>
    obtain ⟨c, rest, htext, ⟨rfl, -⟩ | ⟨-, d, rfl⟩⟩ := n.exists_text
    · exact ⟨'-', rest, by rw [text, htext], by decide, by decide, by decide⟩
    · refine ⟨digitChar d, rest, by rw [text, htext], isAscii_digitChar d,
        isSpaceChar_digitChar d, digitChar_ne (by decide) d⟩
  | string l => exact ⟨'"', _, by rw [text, Literal.text], by decide, by decide, by decide⟩
  | emptyArray inside => exact ⟨'[', _, by rw [text], by decide, by decide, by decide⟩
  | array es => exact ⟨'[', _, by rw [text], by decide, by decide, by decide⟩
  | emptyObject inside => exact ⟨'\x7b', _, by rw [text], by decide, by decide, by decide⟩
  | object fs => exact ⟨'\x7b', _, by rw [text], by decide, by decide, by decide⟩

/-- Elements begin so as well, with the first of them. -/
theorem Elements.exists_core (es : Elements) :
    ∃ c rest, es.core = c :: rest ∧ c.toNat < 128 ∧ isSpaceChar c = false ∧ c ≠ ']' := by
  cases es with
  | last _ v _ | more _ v _ _ =>
    obtain ⟨c, rest, htext, hc⟩ := v.exists_text
    exact ⟨c, _, by rw [core, htext, List.cons_append], hc⟩

theorem Fields.exists_core (fs : Fields) : ∃ rest, fs.core = '"' :: rest := by
  cases fs <;> exact ⟨_, rfl⟩

namespace Reader

variable {s : List Char} {fuel : Nat}

/-! ## Values that are read over

Values, elements and fields are skipped by three functions that call one
another, and the induction is on the three types at once. A step is spent on
every character at most, so as many steps as there are characters are enough.
-/

/-- A key and its colon are skipped. -/
theorem reads_skipKey (b : Blanks) (k : KeyText) (s : List Char) :
    Reads skipKey (b.chars ++ (k.core ++ s)) () s := by
  have hcore : k.core ++ s
      = '"' :: (k.literal.inner ++ '"' :: (k.after.chars ++ ':' :: s)) := by
    simp only [KeyText.core, Literal.text, List.cons_append, List.append_assoc, List.nil_append]
  rw [hcore]
  refine (reads_blanks b (by decide) (by decide) _).bind ?_
  dsimp only
  rw [if_pos rfl]
  refine (reads_skip (by decide) _).bind ((reads_left _).bind
    ((reads_skipString k.literal _ (length_inner_lt k.literal _)).bind
      ((reads_blanks k.after (by decide) (by decide) s).bind ?_)))
  dsimp only
  rw [if_pos rfl]
  exact reads_skip (by decide) s

/-- A word is skipped, whose first letter has been seen. -/
theorem reads_rest_of_word {c : Char} {w : List Char} (hc : c.toNat < 128)
    (h : w.all (fun d => decide (d.toNat < 128)) = true) (s : List Char) :
    Reads (skip >>= fun _ => word w) (c :: (w ++ s)) () s :=
  (reads_skip hc _).bind
    (reads_word (fun d hd => of_decide_eq_true (List.all_eq_true.1 h d hd)) s)

/-- **A word is skipped**, one of the three that JSON has. -/
theorem reads_skipValue_word (w : Word) (b : Blanks) (s : List Char) :
    Reads (skipValue (fuel + 1)) (b.chars ++ (w.text ++ s)) () s := by
  rw [skipValue]
  rcases w with _ | _ | _
  · refine (reads_blanks b (c := 'n') (by decide) (by decide) _).bind ?_
    dsimp only
    rw [if_pos rfl]
    exact reads_rest_of_word (by decide) (by decide) s
  · refine (reads_blanks b (c := 'f') (by decide) (by decide) _).bind ?_
    dsimp only
    rw [if_neg (by decide), if_neg (by decide), if_pos rfl]
    exact reads_rest_of_word (by decide) (by decide) s
  · refine (reads_blanks b (c := 't') (by decide) (by decide) _).bind ?_
    dsimp only
    rw [if_neg (by decide), if_pos rfl]
    exact reads_rest_of_word (by decide) (by decide) s

/-- **A number is skipped** by reading it, so what cannot be read as a number
cannot be skipped either. -/
theorem reads_skipValue_number (n : Numeral) (b : Blanks) (h : EndsNumber s) :
    Reads (skipValue (fuel + 1)) (b.chars ++ (n.text ++ s)) () s := by
  rw [skipValue]
  obtain ⟨c, rest, htext, ⟨rfl, -, rfl⟩ | ⟨hminus, d, rfl⟩⟩ := n.exists_text
  · rw [htext]
    refine (reads_blanks b (by decide) (by decide) _).bind ?_
    dsimp only
    rw [if_neg (by decide), if_neg (by decide), if_neg (by decide), if_pos rfl]
    exact (reads_skip (by decide) _).bind (reads_skipNumber n h)
  · have hunsigned : n.text = n.unsigned := Numeral.text_of_plain hminus
    have hne : ∀ c : Char, c.toNat < 128 → isDigit (byte c) = false → byte (digitChar d) ≠ byte c :=
      fun c hc hdigit => mt (byte_inj (isAscii_digitChar d) hc).1 (digitChar_ne hdigit d)
    have hread := reads_skipNumber n h
    rw [← hunsigned, htext] at hread
    rw [htext]
    refine (reads_blanks b (isAscii_digitChar d) (isSpaceChar_digitChar d) _).bind ?_
    dsimp only
    rw [if_neg (hne 'n' (by decide) (by decide)), if_neg (hne 't' (by decide) (by decide)),
      if_neg (hne 'f' (by decide) (by decide)), if_neg (hne '-' (by decide) (by decide)),
      if_pos (isDigit_byte_digitChar d)]
    exact hread

/-- **A string is skipped**, and nothing is gathered. -/
theorem reads_skipValue_string (l : Literal) (b : Blanks) (s : List Char) :
    Reads (skipValue (fuel + 1)) (b.chars ++ (l.text ++ s)) () s := by
  rw [skipValue, text_append]
  refine (reads_blanks b (by decide) (by decide) _).bind ?_
  dsimp only
  rw [if_neg (by decide), if_neg (by decide), if_neg (by decide), if_neg (by decide),
    if_neg (by decide), if_pos rfl]
  exact (reads_skip (by decide) _).bind ((reads_left _).bind
    (reads_skipString l s (length_inner_lt l _)))

/-- An opening bracket is skipped, and what follows it is looked at. -/
theorem reads_skipValue_bracket {s' : List Char} (b inside : Blanks) {c : Char} {rest : List Char}
    (hc : c.toNat < 128) (hspace : isSpaceChar c = false)
    (hread : Reads (if byte c = byte ']' then skip else skipElements fuel) (c :: rest) () s') :
    Reads (skipValue (fuel + 1)) (b.chars ++ '[' :: (inside.chars ++ c :: rest)) () s' := by
  rw [skipValue]
  refine (reads_blanks b (by decide) (by decide) _).bind ?_
  dsimp only
  rw [if_neg (by decide), if_neg (by decide), if_neg (by decide), if_neg (by decide),
    if_neg (by decide), if_neg (by decide), if_pos rfl]
  exact (reads_skip (by decide) _).bind ((reads_blanks inside hc hspace rest).bind hread)

/-- An opening brace is skipped, and what follows it is looked at. -/
theorem reads_skipValue_brace {s' : List Char} (b inside : Blanks) {c : Char} {rest : List Char}
    (hc : c.toNat < 128) (hspace : isSpaceChar c = false)
    (hread : Reads (if byte c = byte '\x7d' then skip else skipFields fuel) (c :: rest) () s') :
    Reads (skipValue (fuel + 1)) (b.chars ++ '\x7b' :: (inside.chars ++ c :: rest)) () s' := by
  rw [skipValue]
  refine (reads_blanks b (by decide) (by decide) _).bind ?_
  dsimp only
  rw [if_neg (by decide), if_neg (by decide), if_neg (by decide), if_neg (by decide),
    if_neg (by decide), if_neg (by decide), if_neg (by decide), if_pos rfl]
  exact (reads_skip (by decide) _).bind ((reads_blanks inside hc hspace rest).bind hread)

/-- A value has a character. A step is taken for it at least. -/
theorem length_text_pos (v : Value) : 0 < v.text.length := by
  obtain ⟨c, rest, htext, -⟩ := v.exists_text
  rw [htext]
  exact Nat.succ_pos _

mutual

/-- **A value is skipped**, with as many steps as it has characters. -/
theorem reads_skipValue (v : Value) (b : Blanks) {s : List Char} (hs : EndsValue s) {fuel : Nat}
    (hfuel : v.text.length ≤ fuel) : Reads (skipValue fuel) (b.chars ++ (v.text ++ s)) () s := by
  obtain ⟨fuel, rfl⟩ := Nat.exists_eq_succ_of_ne_zero
    (Nat.ne_of_gt ((length_text_pos v).trans_le hfuel))
  -- One step goes on the value itself. Its items have those that are left, and are shorter.
  cases v with
  | word w =>
    rw [Value.text]
    exact reads_skipValue_word w b s
  | number n =>
    rw [Value.text]
    exact reads_skipValue_number n b hs.endsNumber
  | string l =>
    rw [Value.text]
    exact reads_skipValue_string l b s
  | emptyArray inside =>
    rw [Value.text, List.cons_append, List.append_assoc, List.singleton_append]
    refine reads_skipValue_bracket b inside (by decide) (by decide) ?_
    rw [if_pos rfl]
    exact reads_skip (by decide) s
  | emptyObject inside =>
    rw [Value.text, List.cons_append, List.append_assoc, List.singleton_append]
    refine reads_skipValue_brace b inside (by decide) (by decide) ?_
    rw [if_pos rfl]
    exact reads_skip (by decide) s
  | array es =>
    rw [Value.text, List.length_cons, List.length_append, List.length_singleton,
      es.text_eq, List.length_append] at hfuel
    have hfuel : es.core.length + 1 ≤ fuel := by omega
    have hread := reads_skipElements es Blanks.none s hfuel
    obtain ⟨c, rest, hcore, hc, hspace, hbracket⟩ := es.exists_core
    rw [Blanks.chars_none, List.nil_append, hcore, List.cons_append] at hread
    rw [Value.text, List.cons_append, List.append_assoc, es.text_eq, List.append_assoc,
      List.singleton_append, hcore, List.cons_append]
    refine reads_skipValue_bracket b es.before hc hspace ?_
    rw [if_neg (mt (byte_inj hc (by decide)).1 hbracket)]
    exact hread
  | object fs =>
    rw [Value.text, List.length_cons, List.length_append, List.length_singleton,
      fs.text_eq, List.length_append] at hfuel
    have hfuel : fs.core.length + 1 ≤ fuel := by omega
    have hread := reads_skipFields fs Blanks.none s hfuel
    obtain ⟨rest, hcore⟩ := fs.exists_core
    rw [Blanks.chars_none, List.nil_append, hcore, List.cons_append] at hread
    rw [Value.text, List.cons_append, List.append_assoc, fs.text_eq, List.append_assoc,
      List.singleton_append, hcore, List.cons_append]
    refine reads_skipValue_brace b fs.before (by decide) (by decide) ?_
    rw [if_neg (by decide)]
    exact hread

/-- Elements are skipped, and the end of the array. -/
theorem reads_skipElements (es : Elements) (b : Blanks) (s : List Char) {fuel : Nat}
    (hfuel : es.core.length + 1 ≤ fuel) :
    Reads (skipElements fuel) (b.chars ++ (es.core ++ ']' :: s)) () s := by
  obtain ⟨fuel, rfl⟩ := Nat.exists_eq_succ_of_ne_zero
    (Nat.ne_of_gt ((Nat.succ_pos _).trans_le hfuel))
  cases es with
  | last _ v after =>
    rw [Elements.core, List.length_append] at hfuel
    rw [skipElements, Elements.core, List.append_assoc]
    refine (reads_skipValue v b (after.endsValue (endsValue_cons (Or.inr (Or.inl rfl)) s))
      (by omega)).bind ((reads_blanks after (by decide) (by decide) s).bind ?_)
    dsimp only
    rw [if_neg (by decide), if_pos rfl]
    exact reads_skip (by decide) s
  | more _ v after rest =>
    rw [Elements.core, List.length_append, List.length_append, List.length_cons, rest.text_eq,
      List.length_append] at hfuel
    rw [skipElements, Elements.core, List.append_assoc, List.append_assoc, List.cons_append,
      rest.text_eq, List.append_assoc]
    refine (reads_skipValue v b (after.endsValue (endsValue_cons (Or.inl rfl) _))
      (by omega)).bind ((reads_blanks after (by decide) (by decide) _).bind ?_)
    dsimp only
    rw [if_pos rfl]
    exact (reads_skip (by decide) _).bind (reads_skipElements rest rest.before s (by omega))

/-- Fields are skipped, and the end of the object. -/
theorem reads_skipFields (fs : Fields) (b : Blanks) (s : List Char) {fuel : Nat}
    (hfuel : fs.core.length + 1 ≤ fuel) :
    Reads (skipFields fuel) (b.chars ++ (fs.core ++ '\x7d' :: s)) () s := by
  obtain ⟨fuel, rfl⟩ := Nat.exists_eq_succ_of_ne_zero
    (Nat.ne_of_gt ((Nat.succ_pos _).trans_le hfuel))
  cases fs with
  | last key before v after =>
    rw [Fields.core, List.length_append, List.length_append, List.length_append] at hfuel
    rw [skipFields, Fields.core, List.append_assoc, List.append_assoc, List.append_assoc]
    refine (reads_skipKey b key _).bind
      ((reads_skipValue v before (after.endsValue (endsValue_cons (Or.inr (Or.inr (Or.inl rfl))) s))
        (by omega)).bind ((reads_blanks after (by decide) (by decide) s).bind ?_))
    dsimp only
    rw [if_neg (by decide), if_pos rfl]
    exact reads_skip (by decide) s
  | more key before v after rest =>
    rw [Fields.core, List.length_append, List.length_append, List.length_append,
      List.length_append, List.length_cons, rest.text_eq, List.length_append] at hfuel
    rw [skipFields, Fields.core, List.append_assoc, List.append_assoc, List.append_assoc,
      List.append_assoc, List.cons_append, rest.text_eq, List.append_assoc]
    refine (reads_skipKey b key _).bind
      ((reads_skipValue v before (after.endsValue (endsValue_cons (Or.inl rfl) _))
        (by omega)).bind ((reads_blanks after (by decide) (by decide) _).bind ?_))
    dsimp only
    rw [if_pos rfl]
    exact (reads_skip (by decide) _).bind (reads_skipFields rest rest.before s (by omega))

end

/-! ## Only values are read over

Conversely, the induction is on the steps. Whatever the first character was,
the value that was skipped is put together of what was skipped behind it, so
that nothing is ever skipped but the text of a value. -/

/-- What is looked at after blanks. -/
theorem after_blanks {β : Type} {R : β → List Char → Prop} {f : Option UInt8 → Reader β}
    (hnone : Avoids (f none) fun _ => True)
    (hsome : ∀ (b : Blanks) (x : UInt8) (s' : List Char), s = b.chars ++ s' →
      (Utf8.encode s').head? = some x → After (f (some x)) s' R) :
    After (blanks >>= f) s R := by
  refine after_blanks_bind fun b s' hs => ?_
  cases hhead : (Utf8.encode s').head? with
  | none => exact hnone.after
  | some x => exact hsome b x s' hs hhead

/-- **Only a key is skipped** as one. -/
theorem after_skipKey (s : List Char) :
    After skipKey s fun _ s' => ∃ k : KeyText, s = k.text ++ s' := by
  rw [skipKey]
  refine after_blanks (avoids_refuseNext _) fun b x s₁ hs hhead => ?_
  dsimp only
  split_ifs with hquote
  · subst hquote
    obtain ⟨s₂, rfl⟩ := cons_of_head? (c := '"') (by decide) hhead
    refine (reads_skip (by decide) s₂).after_bind ((reads_left s₂).after_bind
      ((after_skipString _ s₂).bind fun _ s₃ hs₃ => ?_))
    obtain ⟨l, rfl⟩ := hs₃
    refine after_blanks (avoids_refuseNext _) fun b' x s₄ hs₄ hhead => ?_
    dsimp only
    split_ifs with hcolon
    · subst hcolon
      obtain ⟨s', rfl⟩ := cons_of_head? (c := ':') (by decide) hhead
      refine (reads_skip (by decide) s').after.mono fun _ s'' h => ⟨⟨b, l, b'⟩, ?_⟩
      rw [hs, hs₄, h.2]
      simp only [KeyText.text, Literal.text, List.cons_append, List.append_assoc, List.nil_append]
    · exact after_refuseNext _
  · exact after_refuseNext _

/-- A word has been skipped, whose first letter has been seen. -/
theorem after_rest_of_word {c : Char} {w : List Char} (hc : c.toNat < 128)
    (h : w.all (fun d => decide (d.toNat < 128)) = true) (hhead : (Utf8.encode s).head? = some (byte c)) :
    After (skip >>= fun _ => word w) s fun _ s' => s = c :: (w ++ s') := by
  obtain ⟨s₁, rfl⟩ := cons_of_head? hc hhead
  have hascii : ∀ d ∈ w, d.toNat < 128 := fun d hd =>
    of_decide_eq_true (List.all_eq_true.1 h d hd)
  refine (reads_skip hc s₁).after_bind ((after_word hascii s₁).mono fun _ s' hs' => ?_)
  rw [hs']

/-- What is between brackets has been skipped: blanks alone, or items. -/
theorem after_enclosed {ι : Type} {opening closing : Char} (hopening : opening.toNat < 128)
    (hclosing : closing.toNat < 128) {items : Reader Unit} {fault : Cause} {text : ι → List Char}
    (hitems : ∀ s, After items s fun _ s' => ∃ i, s = text i ++ closing :: s')
    (hhead : (Utf8.encode s).head? = some (byte opening)) :
    After (skip >>= fun _ => blanks >>= fun o => match o with
      | none => refuseNext fault
      | some c => if c = byte closing then skip else items) s fun _ s' => ∃ inside : Blanks,
        s = opening :: (inside.chars ++ closing :: s')
          ∨ ∃ i, s = opening :: (inside.chars ++ (text i ++ closing :: s')) := by
  obtain ⟨s₁, rfl⟩ := cons_of_head? hopening hhead
  refine (reads_skip hopening s₁).after_bind
    (after_blanks (avoids_refuseNext _) fun inside y s₂ hs₂ hhead => ?_)
  subst hs₂
  refine after_ite (fun hclose => ?_) fun _ => ?_
  · subst hclose
    obtain ⟨s₃, rfl⟩ := cons_of_head? hclosing hhead
    refine (reads_skip hclosing s₃).after.mono fun _ s' hs' => ⟨inside, Or.inl ?_⟩
    rw [hs'.2]
  · refine (hitems s₂).mono fun _ s' hs' => ⟨inside, Or.inr ?_⟩
    obtain ⟨i, rfl⟩ := hs'
    exact ⟨i, rfl⟩

/-- A step that skips a value skips one, if its elements and its fields are. -/
theorem after_skipValue_succ
    (helements : ∀ s, After (skipElements fuel) s fun _ s' => ∃ es : Elements,
      s = es.text ++ ']' :: s')
    (hfields : ∀ s, After (skipFields fuel) s fun _ s' => ∃ fs : Fields,
      s = fs.text ++ '\x7d' :: s') (s : List Char) :
    After (skipValue (fuel + 1)) s fun _ s' => ∃ (b : Blanks) (v : Value),
      s = b.chars ++ (v.text ++ s') := by
  rw [skipValue]
  refine after_blanks (avoids_refuseNext _) fun b x s₁ hs hhead => ?_
  have hvalue : ∀ {s' : List Char}, (∃ v : Value, s₁ = v.text ++ s') →
      ∃ (b : Blanks) (v : Value), s = b.chars ++ (v.text ++ s') :=
    fun ⟨v, hv⟩ => ⟨b, v, by rw [hs, hv]⟩
  -- The first character decides. The cases are in the order in which the reader tries them:
  -- words, numbers with a sign and without one, strings, arrays and objects.
  refine after_ite (fun hn => ?_) fun _ => after_ite (fun ht => ?_) fun _ =>
    after_ite (fun hf => ?_) fun _ => after_ite (fun hminus => ?_) fun _ =>
    after_ite (fun _ => ?_) fun _ => after_ite (fun hquote => ?_) fun _ =>
    after_ite (fun hbracket => ?_) fun _ => after_ite (fun hbrace => ?_) fun _ =>
    after_refuseNext _
  · subst hn
    exact (after_rest_of_word (by decide) (by decide) hhead).mono fun _ _ hs' =>
      hvalue ⟨.word .null, hs'⟩
  · subst ht
    exact (after_rest_of_word (by decide) (by decide) hhead).mono fun _ _ hs' =>
      hvalue ⟨.word (.bool true), hs'⟩
  · subst hf
    exact (after_rest_of_word (by decide) (by decide) hhead).mono fun _ _ hs' =>
      hvalue ⟨.word (.bool false), hs'⟩
  · subst hminus
    obtain ⟨s₂, rfl⟩ := cons_of_head? (c := '-') (by decide) hhead
    refine (reads_skip (by decide) s₂).after_bind ((after_skipNumber true s₂).mono fun _ s' hs' => ?_)
    obtain ⟨n, hn, rfl⟩ := hs'
    exact hvalue ⟨.number n, by rw [Value.text, Numeral.text_of_minus hn, List.cons_append]⟩
  · refine (after_skipNumber false s₁).mono fun _ s' hs' => ?_
    obtain ⟨n, hn, rfl⟩ := hs'
    exact hvalue ⟨.number n, by rw [Value.text, Numeral.text_of_plain hn]⟩
  · subst hquote
    obtain ⟨s₂, rfl⟩ := cons_of_head? (c := '"') (by decide) hhead
    refine (reads_skip (by decide) s₂).after_bind ((reads_left s₂).after_bind
      ((after_skipString _ s₂).mono fun _ s' hs' => ?_))
    obtain ⟨l, rfl⟩ := hs'
    exact hvalue ⟨.string l, by rw [Value.text, text_append]⟩
  · subst hbracket
    refine (after_enclosed (by decide) (by decide) helements hhead).mono fun _ s' hs' => ?_
    obtain ⟨inside, rfl | ⟨es, rfl⟩⟩ := hs'
    · exact hvalue ⟨.emptyArray inside, by simp [Value.text]⟩
    · exact hvalue ⟨.array (es.pad inside), by simp [Value.text, Elements.text_pad]⟩
  · subst hbrace
    refine (after_enclosed (by decide) (by decide) hfields hhead).mono fun _ s' hs' => ?_
    obtain ⟨inside, rfl | ⟨fs, rfl⟩⟩ := hs'
    · exact hvalue ⟨.emptyObject inside, by simp [Value.text]⟩
    · exact hvalue ⟨.object (fs.pad inside), by simp [Value.text, Fields.text_pad]⟩

/-- **Only values are skipped**, and only the elements of arrays and the fields
of objects as such. -/
theorem after_skip (fuel : Nat) :
    (∀ s, After (skipValue fuel) s fun _ s' => ∃ (b : Blanks) (v : Value),
      s = b.chars ++ (v.text ++ s')) ∧
    (∀ s, After (skipElements fuel) s fun _ s' => ∃ es : Elements, s = es.text ++ ']' :: s') ∧
    (∀ s, After (skipFields fuel) s fun _ s' => ∃ fs : Fields, s = fs.text ++ '\x7d' :: s') := by
  -- The three functions call one another with a step less, so they go through one
  -- induction.
  induction fuel with
  | zero => exact ⟨fun _ => after_refuseNext _, fun _ => after_refuseNext _,
      fun _ => after_refuseNext _⟩
  | succ fuel ih =>
    obtain ⟨hvalue, helements, hfields⟩ := ih
    refine ⟨after_skipValue_succ helements hfields, fun s => ?_, fun s => ?_⟩
    · rw [skipElements]
      refine (hvalue s).bind fun _ s₁ hs₁ => ?_
      obtain ⟨b, v, rfl⟩ := hs₁
      refine after_blanks (avoids_refuseNext _) fun b' x s₂ hs₂ hhead => ?_
      subst hs₂
      refine after_ite (fun hcomma => ?_) fun _ => after_ite (fun hbracket => ?_) fun _ =>
        after_refuseNext _
      · subst hcomma
        obtain ⟨s₃, rfl⟩ := cons_of_head? (c := ',') (by decide) hhead
        refine (reads_skip (by decide) s₃).after_bind ((helements s₃).mono fun _ s' hs' => ?_)
        obtain ⟨es, rfl⟩ := hs'
        refine ⟨.more b v b' es, ?_⟩
        simp only [Elements.text, List.append_assoc, List.cons_append]
      · subst hbracket
        obtain ⟨s₃, rfl⟩ := cons_of_head? (c := ']') (by decide) hhead
        refine (reads_skip (by decide) s₃).after.mono fun _ s' hs' => ⟨.last b v b', ?_⟩
        rw [hs'.2]
        simp only [Elements.text, List.append_assoc]
    · rw [skipFields]
      refine (after_skipKey s).bind fun _ s₀ hs₀ => ?_
      obtain ⟨key, rfl⟩ := hs₀
      refine (hvalue s₀).bind fun _ s₁ hs₁ => ?_
      obtain ⟨b, v, rfl⟩ := hs₁
      refine after_blanks (avoids_refuseNext _) fun b' x s₂ hs₂ hhead => ?_
      subst hs₂
      refine after_ite (fun hcomma => ?_) fun _ => after_ite (fun hbrace => ?_) fun _ =>
        after_refuseNext _
      · subst hcomma
        obtain ⟨s₃, rfl⟩ := cons_of_head? (c := ',') (by decide) hhead
        refine (reads_skip (by decide) s₃).after_bind ((hfields s₃).mono fun _ s' hs' => ?_)
        obtain ⟨fs, rfl⟩ := hs'
        refine ⟨.more key b v b' fs, ?_⟩
        simp only [Fields.text, List.append_assoc, List.cons_append]
      · subst hbrace
        obtain ⟨s₃, rfl⟩ := cons_of_head? (c := '\x7d') (by decide) hhead
        refine (reads_skip (by decide) s₃).after.mono fun _ s' hs' => ⟨.last key b v b', ?_⟩
        rw [hs'.2]
        simp only [Fields.text, List.append_assoc]

/-- **Only a value is skipped.** -/
theorem after_skipValue (fuel : Nat) (s : List Char) :
    After (skipValue fuel) s fun _ s' => ∃ (b : Blanks) (v : Value),
      s = b.chars ++ (v.text ++ s') :=
  (after_skip fuel).1 s

/-- There are steps enough for a value in what is left. -/
theorem length_text_le (b : Blanks) (v : Value) (s : List Char) :
    v.text.length ≤ (Utf8.encode (b.chars ++ (v.text ++ s))).length + 1 := by
  have hle := length_le_encode (b.chars ++ (v.text ++ s))
  rw [List.length_append, List.length_append] at hle
  omega

end Reader

end CertAuthority.Json
