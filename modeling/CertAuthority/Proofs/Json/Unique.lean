import CertAuthority.Proofs.Json.Skip

/-!
# A text is read in one way

The grammar of JSON is unambiguous: two syntax trees with one text are one
tree (`Document.text_inj`). So whatever is denoted by a text is denoted by the
tree that it was written from, and every reader that keeps to the grammar
finds that. This is what makes it sensible to say what a text denotes without
saying who reads it: the report of a command has one meaning, and two reports
with one text are one report.

Each part of a text ends where what follows can no longer belong to it: blanks
where no blank follows, digits where no digit does, a string at its quotation
mark. Hence the lemmas here are about parts of texts with what follows them
(`Value.Cuts`), and the one on trees goes by induction on one of them. In all
of them two texts are given that agree as wholes, each a part and a rest, and
the conclusion is that both the parts and the rests agree.

That two values which begin alike are of one kind is told by the first
character (`Value.kind_eq`). It saves comparing each of the kinds with each of
the others: the proof for values has one case for each kind, and in it the
other value is known to be of that kind.
-/

namespace CertAuthority.Json

variable {s s' : List Char}

/-- Characters of a kind end where one of another kind follows. -/
theorem append_inj_of_all {p : Char → Bool} {xs ys : List Char} (hxs : ∀ c ∈ xs, p c = true)
    (hys : ∀ c ∈ ys, p c = true) (hs : ∀ c ∈ s.head?, p c = false)
    (hs' : ∀ c ∈ s'.head?, p c = false) (h : xs ++ s = ys ++ s') : xs = ys ∧ s = s' := by
  induction xs generalizing ys with
  | nil =>
    cases ys with
    | nil => exact ⟨rfl, h⟩
    | cons c ys =>
      have hc := hs c (by rw [show s = c :: (ys ++ s') from h]; rfl)
      rw [hys c List.mem_cons_self] at hc
      cases hc
  | cons c xs ih =>
    cases ys with
    | nil =>
      have hc := hs' c (by rw [show s' = c :: (xs ++ s) from h.symm]; rfl)
      rw [hxs c List.mem_cons_self] at hc
      cases hc
    | cons d ys =>
      obtain ⟨rfl, hrest⟩ := List.cons.inj h
      obtain ⟨rfl, rfl⟩ := ih (fun c hc => hxs c (List.mem_cons_of_mem _ hc))
        (fun c hc => hys c (List.mem_cons_of_mem _ hc)) hrest
      exact ⟨rfl, rfl⟩

/-! ## Blanks and words -/

/-- Whether no blank comes next. -/
def EndsBlanks (s : List Char) : Prop := ∀ c ∈ s.head?, isSpaceChar c = false

/-- A character that is no blank ends blanks. -/
theorem endsBlanks_cons {c : Char} (h : isSpaceChar c = false) (s : List Char) :
    EndsBlanks (c :: s) := fun _ hd => Option.some.inj hd ▸ h

/-- **Blanks end** where no blank follows. -/
theorem Blanks.cut {b b' : Blanks} (hs : EndsBlanks s) (hs' : EndsBlanks s')
    (h : b.chars ++ s = b'.chars ++ s') : b = b' ∧ s = s' := by
  obtain ⟨chars, hblank⟩ := b
  obtain ⟨chars', hblank'⟩ := b'
  obtain ⟨rfl, rfl⟩ : chars = chars' ∧ s = s' := append_inj_of_all hblank hblank' hs hs' h
  exact ⟨rfl, rfl⟩

/-- Blanks end at a character that is none. -/
theorem Blanks.cut_cons {b b' : Blanks} {c c' : Char} (hc : isSpaceChar c = false)
    (hc' : isSpaceChar c' = false) (h : b.chars ++ c :: s = b'.chars ++ c' :: s') :
    b = b' ∧ c = c' ∧ s = s' := by
  obtain ⟨rfl, hrest⟩ := Blanks.cut (endsBlanks_cons hc s) (endsBlanks_cons hc' s') h
  exact ⟨rfl, List.cons.inj hrest⟩

/-- Words are told apart by their texts, for none is the beginning of another.
-/
theorem Word.cut {w w' : Word} (h : w.text ++ s = w'.text ++ s') : w = w' ∧ s = s' := by
  rcases w with _ | _ | _ <;> rcases w' with _ | _ | _ <;> simp_all [Word.text]

/-! ## Numbers

Every part of a number ends by itself, with a character that cannot go on with
it. Where a part may be missing, the character that it begins with is not
among those that may follow in its stead. -/

theorem digitChar_inj {d d' : Fin 10} (h : digitChar d = digitChar d') : d = d' := by
  revert d d'
  decide

theorem isDigit_digitChar (d : Fin 10) : (digitChar d).isDigit = true := by
  revert d
  decide

theorem EndsDigits.head (h : EndsDigits s) : ∀ c ∈ s.head?, c.isDigit = false := by
  intro c hc
  obtain ⟨rest, rfl⟩ := List.head?_eq_some_iff.1 hc
  rw [← Bool.not_eq_true]
  intro hdigit
  have hrange : 48 ≤ c.toNat ∧ c.toNat ≤ 57 := by
    simpa [Char.isDigit, UInt32.le_iff_toNat_le] using hdigit
  obtain ⟨d, rfl⟩ : ∃ d, c = digitChar d := by
    refine ⟨⟨c.toNat - 48, by omega⟩, ?_⟩
    rw [digitChar, Nat.add_sub_cancel' hrange.1, Char.ofNat_toNat]
  have hnot := h (byte (digitChar d)) (by rw [encode_cons (isAscii_digitChar d)]; rfl)
  rw [isDigit_byte_digitChar] at hnot
  cases hnot

/-- What may follow a number does not go on with it. -/
theorem EndsNumber.ne_cons (h : EndsNumber s) {c : Char} (hc : c = '.' ∨ c = 'e' ∨ c = 'E')
    (rest : List Char) : s ≠ c :: rest := by
  rintro rfl
  have hlow : c.toNat < 128 := by rcases hc with rfl | rfl | rfl <;> decide
  have hnone := h (byte c) (by rw [encode_cons hlow]; rfl)
  rcases hc with rfl | rfl | rfl
  · exact hnone.2.1 rfl
  · exact hnone.2.2.1 rfl
  · exact hnone.2.2.2 rfl

/-- **Digits end** where no digit follows. -/
theorem Digits.cut {ds ds' : Digits} (hs : EndsDigits s) (hs' : EndsDigits s')
    (h : digitsText ds.list ++ s = digitsText ds'.list ++ s') : ds = ds' ∧ s = s' := by
  have hdigits : ∀ ds, ∀ c ∈ digitsText ds, c.isDigit = true := by
    intro ds c hc
    obtain ⟨d, -, rfl⟩ := List.mem_map.1 hc
    exact isDigit_digitChar d
  obtain ⟨list, hne⟩ := ds
  obtain ⟨list', hne'⟩ := ds'
  obtain ⟨htext, rfl⟩ := append_inj_of_all (hdigits list) (hdigits list') hs.head hs'.head h
  obtain rfl := List.map_injective_iff.2 (fun _ _ => digitChar_inj) htext
  exact ⟨rfl, rfl⟩

/-- There is a digit first. -/
theorem Digits.exists_text (ds : Digits) : ∃ d rest, digitsText ds.list = digitChar d :: rest := by
  obtain ⟨list, hne⟩ := ds
  cases list with
  | nil => exact absurd rfl hne
  | cons d list => exact ⟨d, _, rfl⟩

/-- A sign is told from a digit. -/
theorem signText_cut {sign sign' : Option Bool} {ds ds' : Digits}
    (h : Exponent.signText sign ++ (digitsText ds.list ++ s)
      = Exponent.signText sign' ++ (digitsText ds'.list ++ s')) :
    sign = sign' ∧ digitsText ds.list ++ s = digitsText ds'.list ++ s' := by
  obtain ⟨d, rest, hd⟩ := ds.exists_text
  obtain ⟨d', rest', hd'⟩ := ds'.exists_text
  rw [hd, hd'] at h ⊢
  match sign, sign' with
  | none, none => exact ⟨rfl, h⟩
  | some false, some false | some true, some true => exact ⟨rfl, (List.cons.inj h).2⟩
  | some false, some true | some true, some false =>
    exact absurd (List.cons.inj h).1 (by decide)
  | none, some false | none, some true =>
    exact absurd (List.cons.inj h).1 (digitChar_ne (by decide) d)
  | some false, none | some true, none =>
    exact absurd (List.cons.inj h).1.symm (digitChar_ne (by decide) d')

/-- **An exponent ends** where no digit follows. -/
theorem Exponent.cut {e e' : Exponent} (hs : EndsDigits s) (hs' : EndsDigits s')
    (h : e.text ++ s = e'.text ++ s') : e = e' ∧ s = s' := by
  obtain ⟨capital, sign, digits⟩ := e
  obtain ⟨capital', sign', digits'⟩ := e'
  simp only [text, List.cons_append, List.append_assoc, List.cons.injEq] at h
  obtain ⟨hletter, hrest⟩ := h
  have hcapital : ∀ b b' : Bool,
      (if b then 'E' else 'e') = (if b' then 'E' else 'e') → b = b' := by decide
  obtain rfl := hcapital capital capital' hletter
  obtain ⟨rfl, hdigits⟩ := signText_cut hrest
  obtain ⟨rfl, rfl⟩ := Digits.cut hs hs' hdigits
  exact ⟨rfl, rfl⟩

/-- So does one that may be missing, if what follows would be taken for neither
an exponent nor more of the digits. -/
theorem exponent_cut {x x' : Option Exponent} (hs : EndsNumber s) (hs' : EndsNumber s')
    (h : x.elim [] Exponent.text ++ s = x'.elim [] Exponent.text ++ s') : x = x' ∧ s = s' := by
  cases x with
  | none =>
    cases x' with
    | none => exact ⟨rfl, h⟩
    | some e' =>
      obtain ⟨c, rest, hc, htext⟩ := Reader.exists_text_exponent e'
      rw [Option.elim_some, htext] at h
      exact absurd h (hs.ne_cons (Or.inr hc) _)
  | some e =>
    cases x' with
    | none =>
      obtain ⟨c, rest, hc, htext⟩ := Reader.exists_text_exponent e
      rw [Option.elim_some, htext] at h
      exact absurd h.symm (hs'.ne_cons (Or.inr hc) _)
    | some e' =>
      obtain ⟨rfl, rfl⟩ := Exponent.cut hs.endsDigits hs'.endsDigits h
      exact ⟨rfl, rfl⟩

/-- What follows digits is no fraction, but an exponent or the end. -/
theorem exponent_ne_point (x : Option Exponent) (hs : EndsNumber s) (rest : List Char) :
    x.elim [] Exponent.text ++ s ≠ '.' :: rest := by
  cases x with
  | none => exact hs.ne_cons (Or.inl rfl) rest
  | some e =>
    obtain ⟨c, rest', hc, htext⟩ := Reader.exists_text_exponent e
    rw [Option.elim_some, htext]
    rintro h
    obtain rfl := (List.cons.inj h).1
    exact absurd hc (by decide)

/-- **What a number has behind its digits ends** where the number does: a
fraction, an exponent, both or none of them. -/
theorem tailText_cut {f f' : Option Digits} {x x' : Option Exponent} (hs : EndsNumber s)
    (hs' : EndsNumber s') (h : Numeral.tailText f x ++ s = Numeral.tailText f' x' ++ s') :
    f = f' ∧ x = x' ∧ s = s' := by
  simp only [Numeral.tailText, List.append_assoc] at h
  cases f with
  | none =>
    cases f' with
    | none =>
      obtain ⟨rfl, rfl⟩ := exponent_cut hs hs' h
      exact ⟨rfl, rfl, rfl⟩
    | some ds' => exact absurd h (exponent_ne_point x hs _)
  | some ds =>
    cases f' with
    | none => exact absurd h.symm (exponent_ne_point x' hs' _)
    | some ds' =>
      obtain ⟨rfl, hrest⟩ := Digits.cut (Reader.endsDigits_exponent x hs)
        (Reader.endsDigits_exponent x' hs') (List.cons.inj h).2
      obtain ⟨rfl, rfl⟩ := exponent_cut hs hs' hrest
      exact ⟨rfl, rfl, rfl⟩

/-- **A number ends** where what follows does not go on with it. -/
theorem Numeral.cut {n n' : Numeral} (hs : EndsNumber s) (hs' : EndsNumber s')
    (h : n.text ++ s = n'.text ++ s') : n = n' ∧ s = s' := by
  obtain ⟨minus, whole, shortest, fraction, exponent⟩ := n
  obtain ⟨minus', whole', shortest', fraction', exponent'⟩ := n'
  obtain ⟨d, rest, hd⟩ := whole.exists_text
  obtain ⟨d', rest', hd'⟩ := whole'.exists_text
  have hrest : minus = minus' ∧ digitsText whole.list ++ (tailText fraction exponent ++ s)
      = digitsText whole'.list ++ (tailText fraction' exponent' ++ s') := by
    simp only [text, unsigned, List.append_assoc] at h
    rw [hd, hd'] at h ⊢
    cases minus with
    | false =>
      cases minus' with
      | false => exact ⟨rfl, h⟩
      | true => exact absurd (List.cons.inj h).1 (digitChar_ne (by decide) d)
    | true =>
      cases minus' with
      | false => exact absurd (List.cons.inj h).1.symm (digitChar_ne (by decide) d')
      | true => exact ⟨rfl, (List.cons.inj h).2⟩
  obtain ⟨rfl, hdigits⟩ := hrest
  obtain ⟨rfl, htail⟩ := Digits.cut (Reader.endsDigits_tail fraction exponent hs)
    (Reader.endsDigits_tail fraction' exponent' hs') hdigits
  obtain ⟨rfl, rfl, rfl⟩ := tailText_cut hs hs' htail
  exact ⟨rfl, rfl⟩

/-! ## Strings

Pieces are told by their first characters, and none of them begins with a
quotation mark. So a string ends at the first piece that is none. -/

/-- A hexadecimal digit is its character. -/
theorem HexDigit.eq_of_char {x y : HexDigit} (h : x.char = y.char) : x = y := by
  obtain ⟨c, n, hn⟩ := x
  obtain ⟨c', n', hn'⟩ := y
  obtain rfl : c = c' := h
  obtain rfl : n = n' := Option.some.inj (hn.symm.trans hn')
  rfl

/-- **A piece of a string is known by its first characters**: a letter after a
backslash tells an escape, `u` announces four digits, and anything else is
itself. -/
theorem Piece.cut {p p' : Piece} (h : p.text ++ s = p'.text ++ s') : p = p' ∧ s = s' := by
  have hu : ∀ c, shortEscape? 'u' ≠ some c := by
    intro c hc
    cases hc
  -- A plain character is no backslash, and no letter of an escape is the one that announces
  -- digits.
  cases p with
  | plain c hplain =>
    cases p' with
    | plain c' hplain' =>
      obtain ⟨rfl, rfl⟩ := List.cons.inj h
      exact ⟨rfl, rfl⟩
    | short | code =>
      obtain rfl := (List.cons.inj h).1
      exact absurd hplain (by decide)
  | short letter c hescape =>
    cases p' with
    | plain c' hplain' =>
      obtain rfl := (List.cons.inj h).1
      exact absurd hplain' (by decide)
    | short letter' c' hescape' =>
      obtain ⟨-, htail⟩ := List.cons.inj h
      obtain ⟨rfl, rfl⟩ := List.cons.inj htail
      obtain rfl : c = c' := Option.some.inj (hescape.symm.trans hescape')
      exact ⟨rfl, rfl⟩
    | code a' b' c' d' =>
      obtain rfl := (List.cons.inj (List.cons.inj h).2).1
      exact absurd hescape (hu c)
  | code a b c d =>
    cases p' with
    | plain c' hplain' =>
      obtain rfl := (List.cons.inj h).1
      exact absurd hplain' (by decide)
    | short letter' c' hescape' =>
      obtain rfl := (List.cons.inj (List.cons.inj h).2).1
      exact absurd hescape' (hu c')
    | code a' b' c' d' =>
      simp only [text, List.cons_append, List.nil_append, List.cons.injEq, true_and] at h
      obtain ⟨ha, hb, hc, hd, rfl⟩ := h
      rw [HexDigit.eq_of_char ha, HexDigit.eq_of_char hb, HexDigit.eq_of_char hc,
        HexDigit.eq_of_char hd]
      exact ⟨rfl, rfl⟩

/-- No piece of a string begins with a quotation mark. -/
theorem Piece.ne_quote (p : Piece) (s rest : List Char) : p.text ++ s ≠ '"' :: rest := by
  intro h
  cases p with
  | plain c hplain =>
    obtain rfl := (List.cons.inj h).1
    exact absurd hplain (by decide)
  | short | code => exact absurd (List.cons.inj h).1 (by decide)

/-- Pieces end at the quotation mark that comes first, by induction on them. -/
theorem Literal.inner_cut {l l' : Literal} (h : l.inner ++ '"' :: s = l'.inner ++ '"' :: s') :
    l = l' ∧ s = s' := by
  induction l generalizing l' with
  | nil =>
    cases l' with
    | nil => exact ⟨rfl, (List.cons.inj h).2⟩
    | cons p' l' =>
      rw [inner, inner, List.flatMap_cons, List.append_assoc] at h
      exact absurd h.symm (p'.ne_quote _ _)
  | cons p l ih =>
    cases l' with
    | nil =>
      rw [inner, inner, List.flatMap_cons, List.append_assoc] at h
      exact absurd h (p.ne_quote _ _)
    | cons p' l' =>
      rw [inner, inner, List.flatMap_cons, List.flatMap_cons, List.append_assoc,
        List.append_assoc] at h
      obtain ⟨rfl, hrest⟩ := Piece.cut h
      obtain ⟨rfl, rfl⟩ := ih hrest
      exact ⟨rfl, rfl⟩

/-- **A string ends** at its quotation mark. -/
theorem Literal.cut {l l' : Literal} (h : l.text ++ s = l'.text ++ s') : l = l' ∧ s = s' := by
  simp only [text, List.cons_append, List.append_assoc, List.nil_append, List.cons.injEq,
    true_and] at h
  exact inner_cut h

/-- **A key ends** at its colon. -/
theorem KeyText.cut {k k' : KeyText} (h : k.text ++ s = k'.text ++ s') : k = k' ∧ s = s' := by
  obtain ⟨before, literal, after⟩ := k
  obtain ⟨before', literal', after'⟩ := k'
  simp only [text, List.append_assoc, List.singleton_append] at h
  obtain ⟨rfl, hliteral⟩ := Blanks.cut (endsBlanks_cons (by decide) _)
    (endsBlanks_cons (by decide) _) h
  obtain ⟨rfl, hafter⟩ := Literal.cut hliteral
  obtain ⟨rfl, -, rfl⟩ := Blanks.cut_cons (by decide) (by decide) hafter
  exact ⟨rfl, rfl⟩

/-! ## Values

Two values with one text are of one kind, since their first characters are the
same, and then their parts are compared from left to right. Each part is known
to end where the other one does, by induction on the first of the two values.
-/

theorem Value.text_emptyArray_append (inside : Blanks) (s : List Char) :
    (emptyArray inside).text ++ s = '[' :: (inside.chars ++ ']' :: s) := by
  rw [text, List.cons_append, List.append_assoc, List.singleton_append]

theorem Value.text_array_append (es : Elements) (s : List Char) :
    (array es).text ++ s = '[' :: (es.text ++ ']' :: s) := by
  rw [text, List.cons_append, List.append_assoc, List.singleton_append]

theorem Value.text_emptyObject_append (inside : Blanks) (s : List Char) :
    (emptyObject inside).text ++ s = '\x7b' :: (inside.chars ++ '\x7d' :: s) := by
  rw [text, List.cons_append, List.append_assoc, List.singleton_append]

theorem Value.text_object_append (fs : Fields) (s : List Char) :
    (object fs).text ++ s = '\x7b' :: (fs.text ++ '\x7d' :: s) := by
  rw [text, List.cons_append, List.append_assoc, List.singleton_append]

/-- **A value that is told from what follows it**, whatever value begins where it
does. -/
def Value.Cuts (v : Value) : Prop :=
  ∀ ⦃v' : Value⦄ ⦃s s' : List Char⦄, EndsValue s → EndsValue s' →
    v.text ++ s = v'.text ++ s' → v = v' ∧ s = s'

/-- What kind of value begins with a character. -/
def leadKind (c : Char) : Nat :=
  if c = '"' then 1 else if c = '[' then 2 else if c = '\x7b' then 3
  else if c = 'n' ∨ c = 't' ∨ c = 'f' then 4 else 5

/-- What kind of value a value is. -/
def Value.kind : Value → Nat
  | string _ => 1
  | emptyArray _ | array _ => 2
  | emptyObject _ | object _ => 3
  | word _ => 4
  | number _ => 5

/-- A value begins with a character of its kind. -/
theorem Value.exists_lead (v : Value) : ∃ c rest, v.text = c :: rest ∧ leadKind c = v.kind := by
  cases v with
  | word w => rcases w with _ | _ | _ <;> exact ⟨_, _, rfl, rfl⟩
  | number n =>
    obtain ⟨c, rest, htext, ⟨rfl, -⟩ | ⟨-, d, rfl⟩⟩ := n.exists_text
    · exact ⟨_, _, htext, rfl⟩
    · have hdigit : ∀ d, leadKind (digitChar d) = 5 := by decide
      exact ⟨_, _, htext, hdigit d⟩
  | string l => exact ⟨_, _, by rw [text, Literal.text], rfl⟩
  | _ => exact ⟨_, _, by rw [text], rfl⟩

/-- The first character tells the kind. -/
theorem Value.kind_eq {v v' : Value} (h : v.text ++ s = v'.text ++ s') : v.kind = v'.kind := by
  obtain ⟨c, rest, htext, hkind⟩ := v.exists_lead
  obtain ⟨c', rest', htext', hkind'⟩ := v'.exists_lead
  rw [htext, htext'] at h
  rw [← hkind, ← hkind', (List.cons.inj h).1]

/-- So no value begins with a blank. -/
theorem Value.endsBlanks (v : Value) (s : List Char) : EndsBlanks (v.text ++ s) := by
  obtain ⟨c, rest, htext, -, hspace, -⟩ := v.exists_text
  rw [htext]
  exact endsBlanks_cons hspace _

/-- Whether a mark comes next, after which there may be a value: a comma, or the
end of an array or of an object. -/
def Marked (s : List Char) : Prop := EndsBlanks s ∧ EndsValue s

/-- A comma or a closing mark is one. -/
theorem marked_cons {c : Char} (h : c = ',' ∨ c = ']' ∨ c = '\x7d') (s : List Char) :
    Marked (c :: s) := by
  refine ⟨endsBlanks_cons ?_ s, endsValue_cons (by tauto) s⟩
  rcases h with rfl | rfl | rfl <;> decide

/-- A value between blanks, up to a mark. -/
theorem Value.Cuts.between {v v' : Value} {b b' a a' : Blanks} (hv : v.Cuts) (hs : Marked s)
    (hs' : Marked s') (h : b.chars ++ (v.text ++ (a.chars ++ s))
      = b'.chars ++ (v'.text ++ (a'.chars ++ s'))) :
    b = b' ∧ v = v' ∧ a = a' ∧ s = s' := by
  obtain ⟨rfl, hvalue⟩ := Blanks.cut (v.endsBlanks _) (v'.endsBlanks _) h
  obtain ⟨rfl, hafter⟩ := hv (a.endsValue hs.2) (a'.endsValue hs'.2) hvalue
  obtain ⟨rfl, rfl⟩ := Blanks.cut hs.1 hs'.1 hafter
  exact ⟨rfl, rfl, rfl, rfl⟩

/-- A field, up to a mark. -/
theorem Value.Cuts.field {k k' : KeyText} {v v' : Value} {b b' a a' : Blanks} (hv : v.Cuts)
    (hs : Marked s) (hs' : Marked s') (h : k.text ++ (b.chars ++ (v.text ++ (a.chars ++ s)))
      = k'.text ++ (b'.chars ++ (v'.text ++ (a'.chars ++ s')))) :
    k = k' ∧ b = b' ∧ v = v' ∧ a = a' ∧ s = s' := by
  obtain ⟨rfl, hvalue⟩ := KeyText.cut h
  exact ⟨rfl, hv.between hs hs' hvalue⟩

/-- An array that has elements is not empty. -/
theorem Elements.ne_blanks (es : Elements) (inside : Blanks) (s s' : List Char) :
    inside.chars ++ ']' :: s ≠ es.text ++ s' := by
  intro h
  obtain ⟨c, rest, hcore, -, hspace, hne⟩ := es.exists_core
  rw [es.text_eq, hcore, List.append_assoc] at h
  obtain ⟨-, hmark, -⟩ := Blanks.cut_cons (by decide) hspace h
  exact hne hmark.symm

/-- An object that has fields is not empty. -/
theorem Fields.ne_blanks (fs : Fields) (inside : Blanks) (s s' : List Char) :
    inside.chars ++ '\x7d' :: s ≠ fs.text ++ s' := by
  intro h
  obtain ⟨rest, hcore⟩ := fs.exists_core
  rw [fs.text_eq, hcore, List.append_assoc] at h
  obtain ⟨-, hmark, -⟩ := Blanks.cut_cons (by decide) (by decide) h
  exact absurd hmark (by decide)

mutual

/-- **A value ends** where no value goes on. -/
theorem Value.cuts (v : Value) : v.Cuts := by
  intro v' s s' hs hs' h
  have hkind := Value.kind_eq h
  -- Both values are of one kind, so each case has one other to be compared with, and arrays
  -- and objects have two, as either of them may be empty.
  cases v with
  | word w =>
    cases v' with
    | word w' =>
      rw [Value.text, Value.text] at h
      obtain ⟨rfl, rfl⟩ := Word.cut h
      exact ⟨rfl, rfl⟩
    | _ => cases hkind
  | number n =>
    cases v' with
    | number n' =>
      rw [Value.text, Value.text] at h
      obtain ⟨rfl, rfl⟩ := Numeral.cut hs.endsNumber hs'.endsNumber h
      exact ⟨rfl, rfl⟩
    | _ => cases hkind
  | string l =>
    cases v' with
    | string l' =>
      rw [Value.text, Value.text] at h
      obtain ⟨rfl, rfl⟩ := Literal.cut h
      exact ⟨rfl, rfl⟩
    | _ => cases hkind
  | emptyArray inside =>
    cases v' with
    | emptyArray inside' =>
      simp only [Value.text_emptyArray_append, List.cons.injEq, true_and] at h
      obtain ⟨rfl, -, rfl⟩ := Blanks.cut_cons (by decide) (by decide) h
      exact ⟨rfl, rfl⟩
    | array es' =>
      rw [Value.text_emptyArray_append, Value.text_array_append] at h
      exact absurd (List.cons.inj h).2 (es'.ne_blanks inside _ _)
    | _ => cases hkind
  | array es =>
    cases v' with
    | emptyArray inside' =>
      rw [Value.text_emptyArray_append, Value.text_array_append] at h
      exact absurd (List.cons.inj h).2.symm (es.ne_blanks inside' _ _)
    | array es' =>
      rw [Value.text_array_append, Value.text_array_append] at h
      obtain ⟨rfl, rfl⟩ := Elements.cuts es (List.cons.inj h).2
      exact ⟨rfl, rfl⟩
    | _ => cases hkind
  | emptyObject inside =>
    cases v' with
    | emptyObject inside' =>
      simp only [Value.text_emptyObject_append, List.cons.injEq, true_and] at h
      obtain ⟨rfl, -, rfl⟩ := Blanks.cut_cons (by decide) (by decide) h
      exact ⟨rfl, rfl⟩
    | object fs' =>
      rw [Value.text_emptyObject_append, Value.text_object_append] at h
      exact absurd (List.cons.inj h).2 (fs'.ne_blanks inside _ _)
    | _ => cases hkind
  | object fs =>
    cases v' with
    | emptyObject inside' =>
      rw [Value.text_emptyObject_append, Value.text_object_append] at h
      exact absurd (List.cons.inj h).2.symm (fs.ne_blanks inside' _ _)
    | object fs' =>
      rw [Value.text_object_append, Value.text_object_append] at h
      obtain ⟨rfl, rfl⟩ := Fields.cuts fs (List.cons.inj h).2
      exact ⟨rfl, rfl⟩
    | _ => cases hkind

/-- Elements end at a closing bracket. -/
theorem Elements.cuts (es : Elements) {es' : Elements} {s s' : List Char}
    (h : es.text ++ ']' :: s = es'.text ++ ']' :: s') : es = es' ∧ s = s' := by
  have hmark : ∀ s, Marked (']' :: s) := marked_cons (by decide)
  have hcomma : ∀ s, Marked (',' :: s) := marked_cons (by decide)
  cases es with
  | last before v after =>
    cases es' with
    | last before' v' after' =>
      simp only [Elements.text, List.append_assoc] at h
      obtain ⟨rfl, rfl, rfl, hrest⟩ := (Value.cuts v).between (hmark s) (hmark s') h
      exact ⟨rfl, (List.cons.inj hrest).2⟩
    | more before' v' after' rest' =>
      simp only [Elements.text, List.append_assoc, List.cons_append] at h
      obtain ⟨-, -, -, hrest⟩ := (Value.cuts v).between (hmark s) (hcomma _) h
      exact absurd (List.cons.inj hrest).1 (by decide)
  | more before v after rest =>
    cases es' with
    | last before' v' after' =>
      simp only [Elements.text, List.append_assoc, List.cons_append] at h
      obtain ⟨-, -, -, hrest⟩ := (Value.cuts v).between (hcomma _) (hmark s') h
      exact absurd (List.cons.inj hrest).1 (by decide)
    | more before' v' after' rest' =>
      simp only [Elements.text, List.append_assoc, List.cons_append] at h
      obtain ⟨rfl, rfl, rfl, hrest⟩ := (Value.cuts v).between (hcomma _) (hcomma _) h
      obtain ⟨rfl, rfl⟩ := Elements.cuts rest (List.cons.inj hrest).2
      exact ⟨rfl, rfl⟩

/-- Fields end at a closing brace. -/
theorem Fields.cuts (fs : Fields) {fs' : Fields} {s s' : List Char}
    (h : fs.text ++ '\x7d' :: s = fs'.text ++ '\x7d' :: s') : fs = fs' ∧ s = s' := by
  have hmark : ∀ s, Marked ('\x7d' :: s) := marked_cons (by decide)
  have hcomma : ∀ s, Marked (',' :: s) := marked_cons (by decide)
  cases fs with
  | last key before v after =>
    cases fs' with
    | last key' before' v' after' =>
      simp only [Fields.text, List.append_assoc] at h
      obtain ⟨rfl, rfl, rfl, rfl, hrest⟩ := (Value.cuts v).field (hmark s) (hmark s') h
      exact ⟨rfl, (List.cons.inj hrest).2⟩
    | more key' before' v' after' rest' =>
      simp only [Fields.text, List.append_assoc, List.cons_append] at h
      obtain ⟨-, -, -, -, hrest⟩ := (Value.cuts v).field (hmark s) (hcomma _) h
      exact absurd (List.cons.inj hrest).1 (by decide)
  | more key before v after rest =>
    cases fs' with
    | last key' before' v' after' =>
      simp only [Fields.text, List.append_assoc, List.cons_append] at h
      obtain ⟨-, -, -, -, hrest⟩ := (Value.cuts v).field (hcomma _) (hmark s') h
      exact absurd (List.cons.inj hrest).1 (by decide)
    | more key' before' v' after' rest' =>
      simp only [Fields.text, List.append_assoc, List.cons_append] at h
      obtain ⟨rfl, rfl, rfl, rfl, hrest⟩ := (Value.cuts v).field (hcomma _) (hcomma _) h
      obtain ⟨rfl, rfl⟩ := Fields.cuts rest (List.cons.inj hrest).2
      exact ⟨rfl, rfl⟩

end

/-! ## Texts -/

/-- **One text is one tree.** The blanks on either side are part of the tree, so
that the text is all that there is to it. -/
theorem Document.text_inj {d d' : Document} : d.text = d'.text ↔ d = d' := by
  refine ⟨fun h => ?_, fun h => congrArg text h⟩
  obtain ⟨before, value, after⟩ := d
  obtain ⟨before', value', after'⟩ := d'
  have hends : ∀ b : Blanks, EndsValue b.chars := fun b =>
    List.append_nil b.chars ▸ b.endsValue (s := []) fun _ hc => by cases hc
  have hchars : before.chars ++ (value.text ++ after.chars)
      = before'.chars ++ (value'.text ++ after'.chars) := String.ofList_injective h
  obtain ⟨rfl, hvalue⟩ := Blanks.cut (value.endsBlanks _) (value'.endsBlanks _) hchars
  obtain ⟨rfl, hafter⟩ := value.cuts (hends after) (hends after') hvalue
  obtain ⟨chars, hblank⟩ := after
  obtain ⟨chars', hblank'⟩ := after'
  obtain rfl : chars = chars' := hafter
  rfl

end CertAuthority.Json
