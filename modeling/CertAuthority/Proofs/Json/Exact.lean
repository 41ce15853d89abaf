import CertAuthority.Proofs.Json.Skip

/-!
# Reading values of a type

Which values a reader accepts, and as what, is a function of the syntax tree
(`Exact`): it reads the text of a value that has a meaning as what it means,
refuses the text of any other value, and reads nothing but values. There is a
lemma for strings, numbers, nulls and choices.

The three parts of `Exact` are of different kinds. The first two speak of the
text of a value, with the value in hand, and decide between them what the
reader does there. The third starts from a text about which nothing is known.
Together they leave nothing open: a reader that is exact is, as far as its
results go, the function on trees, and whatever is proved of the readers above
it is about that function.

What decides is often the first character: a reader that wants a string looks
for a quotation mark, and the values whose text begins with one are the
strings. So there is one lemma for each kind of value about its first
character (`Value.eq_string_of_text` and its neighbours). Numbers are the
exception. There the whole numeral is read before it is known whether it is a
natural number, and a numeral with a sign, a fraction or an exponent is
refused whatever it comes to.
-/

namespace CertAuthority.Json

open Text

/-! ## What a value begins with

A reader decides by one character which kind of value it has before it. The
converse is needed as well, that a value which begins with this character is
of that kind, and it is had from the texts of values, kind by kind. -/

/-- **A natural number** has neither a sign nor a fraction nor an exponent. -/
theorem Numeral.natural?_eq_some_iff (n : Numeral) {k : Nat} :
    n.natural? = some k ↔ n.isWhole = true ∧ n.minus = false ∧ valueOf n.whole.list = k := by
  rw [natural?, Option.ite_none_right_eq_some, Option.some.injEq, and_assoc]

/-- A number begins with a minus sign or a digit. -/
theorem Numeral.text_ne {c : Char} (hminus : c ≠ '-') (hdigit : Reader.isDigit (byte c) = false)
    (n : Numeral) (rest : List Char) : n.text ≠ c :: rest := by
  intro h
  obtain ⟨c', rest', htext, hlead⟩ := n.exists_text
  obtain ⟨rfl, -⟩ := List.cons.inj (htext.symm.trans h)
  rcases hlead with ⟨rfl, -⟩ | ⟨-, d, rfl⟩
  · exact hminus rfl
  · exact digitChar_ne hdigit d rfl

namespace Value

variable {v : Value} {rest : List Char}

theorem eq_string_of_text (h : v.text = '"' :: rest) : ∃ l, v = .string l := by
  cases v with
  | string l => exact ⟨l, rfl⟩
  | word w => rcases w with _ | _ | _ <;> exact absurd (List.cons.inj h).1 (by decide)
  | number n => exact absurd h (n.text_ne (by decide) (by decide) rest)
  | _ => exact absurd (List.cons.inj h).1 (by decide)

theorem eq_null_of_text (h : v.text = 'n' :: rest) : v = .word .null := by
  cases v with
  | word w =>
    rcases w with _ | _ | _
    · rfl
    · exact absurd (List.cons.inj h).1 (by decide)
    · exact absurd (List.cons.inj h).1 (by decide)
  | number n => exact absurd h (n.text_ne (by decide) (by decide) rest)
  | _ => exact absurd (List.cons.inj h).1 (by decide)

/-- Only objects begin with a brace, empty ones and others. -/
theorem eq_object_of_text (h : v.text = '\x7b' :: rest) :
    (∃ inside, v = .emptyObject inside) ∨ ∃ fs, v = .object fs := by
  cases v with
  | emptyObject inside => exact Or.inl ⟨inside, rfl⟩
  | object fs => exact Or.inr ⟨fs, rfl⟩
  | word w => rcases w with _ | _ | _ <;> exact absurd (List.cons.inj h).1 (by decide)
  | number n => exact absurd h (n.text_ne (by decide) (by decide) rest)
  | _ => exact absurd (List.cons.inj h).1 (by decide)

theorem isArray_of_text (h : v.text = '[' :: rest) : v.IsArray := by
  cases v with
  | emptyArray | array => trivial
  | word w => rcases w with _ | _ | _ <;> exact absurd (List.cons.inj h).1 (by decide)
  | number n => exact absurd h (n.text_ne (by decide) (by decide) rest)
  | _ => exact absurd (List.cons.inj h).1 (by decide)

/-- Only numbers begin with a minus or a digit. -/
theorem eq_number_of_text {c : Char} (h : v.text = c :: rest)
    (hc : c = '-' ∨ Reader.isDigit (byte c) = true) : ∃ n, v = .number n := by
  cases v with
  | number n => exact ⟨n, rfl⟩
  | word w =>
    rcases w with _ | _ | _ <;> rw [text, Word.text] at h <;>
      obtain rfl := (List.cons.inj h).1 <;> exact absurd hc (by decide)
  | _ =>
    rw [text] at h
    obtain rfl := (List.cons.inj h).1
    exact absurd hc (by decide)

end Value

/-- The natural number of at most thirty-two bits that a value is written out as,
if it is one. -/
def Value.nat32? (v : Value) : Option Nat := v.natural?.filter fun n => decide (n < Nat.pow 2 32)

/-- **The choice that a value makes**: it is a name that is known, or an object
with such a name for its only key and a null for its value. -/
def Value.choice? {κ : Type} (choices : List (String × κ)) : Value → Option κ
  | .string l => l.string?.bind (choices.lookup ·)
  | .object (.last key _ v _) => v.null?.bind fun _ => key.literal.string?.bind (choices.lookup ·)
  | _ => none

namespace Reader

variable {α β σ : Type} {read : Reader α} {value : Value → Option α} {s : List Char}

/-! ## Refusals -/

/-- To give a place to the errors of a reader changes nothing of what it reads.
-/
theorem placing_eq_ok_iff {c c' : Cursor} {a : α} :
    placing read c = .ok a c' ↔ read c = .ok a c' := by
  unfold placing
  split
  · rename_i h
    rw [h]
    simp
  · rfl

/-- What is read is read with places given to errors. -/
theorem Reads.placing {s' : List Char} {a : α} (h : Reads read s a s') :
    Reads (placing read) s a s' := fun p =>
  (h p).imp fun _ hp' => placing_eq_ok_iff.2 hp'

/-- What is known of what was read is known then too. -/
theorem After.placing {Q : α → List Char → Prop} (h : After read s Q) :
    After (placing read) s Q := fun p a c hc => h p a c (placing_eq_ok_iff.1 hc)

theorem Avoids.placing {P : α → Prop} (h : Avoids read P) : Avoids (placing read) P :=
  fun c a c' hc => h c a c' (placing_eq_ok_iff.1 hc)

/-- **A value of the wrong type is refused**, whatever it is. -/
theorem avoids_unexpected (expected : String) :
    Avoids (unexpected expected : Reader α) fun _ => True := by
  refine Avoids.placing (Avoids.bind fun o => ?_)
  cases o with
  | none => exact avoids_refuseNext _
  | some b =>
    have hthrow : ∀ e, Avoids (throw e : Reader α) fun _ => True := avoids_throw
    refine avoids_ite (Avoids.bind fun _ => Avoids.bind fun _ => hthrow _) ?_
    refine avoids_ite (Avoids.bind fun _ => Avoids.bind fun _ => hthrow _) ?_
    refine avoids_ite (Avoids.bind fun _ => Avoids.bind fun _ => hthrow _) ?_
    refine avoids_ite (Avoids.bind fun _ => Avoids.bind fun _ => hthrow _) ?_
    refine avoids_ite (Avoids.bind fun _ => hthrow _) ?_
    refine avoids_ite (Avoids.bind fun _ => hthrow _) ?_
    exact avoids_ite (hthrow _) (avoids_ite (hthrow _) (avoids_refuseNext _))

/-! ## Readers that read just what a value means

A reader can fail in three ways: it refuses a value that it should read, it
reads another value than the one that was meant, or it reads a text that has
no value at all. `Exact` excludes them all, and is proved once for each type
of setting. -/

/-- **A reader of a type** reads of each value just what it means. -/
structure Exact (read : Reader α) (value : Value → Option α) : Prop where
  /-- A value that has a meaning is read as that. -/
  reads : ∀ {v a}, value v = some a → ∀ (b : Blanks) {s}, EndsValue s →
    Reads read (b.chars ++ (v.text ++ s)) a s
  /-- Any other value is refused. -/
  refuses : ∀ {v}, value v = none → ∀ (b : Blanks) {s}, EndsValue s →
    After read (b.chars ++ (v.text ++ s)) fun _ _ => False
  /-- Only values are read. -/
  sound : ∀ s, After read s fun _ s' => ∃ (b : Blanks) (v : Value), s = b.chars ++ (v.text ++ s')

/-- The meaning of values matters, not how it is said. -/
theorem Exact.congr {value' : Value → Option α} (h : Exact read value)
    (hvalue : ∀ v, value v = value' v) : Exact read value' := by
  rwa [← funext hvalue]

/-- What is read may be put to use: a reader that goes on to apply a function
reads what the function makes of it. -/
theorem Exact.map (h : Exact read value) (g : α → β) :
    Exact (read >>= fun a => pure (g a)) fun v => (value v).map g where
  reads := by
    intro v b' hv b s hs
    obtain ⟨a, ha, rfl⟩ := Option.map_eq_some_iff.1 hv
    exact (h.reads ha b hs).bind (reads_pure _ s)
  refuses hv b s hs :=
    (h.refuses (Option.map_eq_none_iff.1 hv) b hs).bind_left
  sound s := (h.sound s).bind fun _ _ hs' => after_pure hs'

/-- The first character of a value is seen after its blanks. -/
theorem reads_blanks_value (v : Value) (b : Blanks) (s : List Char) :
    ∃ c rest, v.text = c :: rest ∧ c.toNat < 128 ∧
      Reads blanks (b.chars ++ (v.text ++ s)) (some (byte c)) (v.text ++ s) := by
  obtain ⟨c, rest, htext, hc, hspace, -⟩ := v.exists_text
  refine ⟨c, rest, htext, hc, ?_⟩
  rw [htext]
  exact reads_blanks b hc hspace (rest ++ s)

/-- Only a string is read where one is asked for. -/
theorem after_stringAs (expected : String) (use : String → Except Cause α) (s : List Char) :
    After (stringAs expected use) s fun _ s' => ∃ (b : Blanks) (l : Literal),
      s = b.chars ++ (l.text ++ s') := by
  refine after_blanks (avoids_refuseNext _) fun b x s₁ hs hhead => ?_
  refine after_ite (fun hquote => ?_) fun _ => (avoids_unexpected expected).after
  subst hquote
  obtain ⟨s₂, rfl⟩ := cons_of_head? (c := '"') (by decide) hhead
  refine (after_string s₂).bind fun str s' hs' => ?_
  obtain ⟨l, htext, -⟩ := hs'
  cases use str with
  | ok a => exact after_pure ⟨b, l, by rw [hs, htext]⟩
  | error cause => exact after_refuse _

/-- **A string is read**, and something is taken from it. -/
theorem exact_stringAs (expected : String) (use : String → Except Cause α) :
    Exact (stringAs expected use) fun v => v.string?.bind fun str => (use str).toOption where
  reads := by
    intro v a hv b s _
    obtain ⟨str, hstr, huse⟩ := Option.bind_eq_some_iff.1 hv
    cases v with
    | string l =>
      have hread := reads_string hstr s
      rw [Value.text, text_append]
      rw [text_append] at hread
      refine (reads_blanks b (by decide) (by decide) _).bind ?_
      dsimp only
      rw [if_pos rfl]
      refine hread.bind ?_
      cases hok : use str with
      | ok a' =>
        rw [hok] at huse
        obtain rfl := Option.some.inj huse
        exact reads_pure a' s
      | error cause =>
        rw [hok] at huse
        cases huse
    | _ => cases hstr
  refuses := by
    intro v hv b s _
    obtain ⟨c, rest, htext, hc, hread⟩ := reads_blanks_value v b s
    refine hread.after_bind ?_
    dsimp only
    refine after_ite (fun hquote => ?_) fun _ => (avoids_unexpected expected).after
    obtain rfl := (byte_inj hc (by decide)).1 hquote
    obtain ⟨l, rfl⟩ := Value.eq_string_of_text htext
    cases hstr : l.string? with
    | none =>
      exact (refuses_string hstr s).bind_left
    | some str =>
      refine (reads_string hstr s).after_bind ?_
      have huse : (use str).toOption = none := by
        have hbind : (l.string?.bind fun str => (use str).toOption) = none := hv
        rwa [hstr] at hbind
      cases hok : use str with
      | ok a =>
        rw [hok] at huse
        cases huse
      | error cause => exact after_refuse _
  sound s := (after_stringAs expected use s).mono fun _ _ ⟨b, l, hs⟩ => ⟨b, .string l, hs⟩

/-- **A text is read** as the string that it is. -/
theorem exact_text (expected : String) : Exact (text expected) Value.string? :=
  (exact_stringAs expected .ok).congr fun v => Option.bind_fun_some v.string?

/-- After a number of which only a natural one is accepted. -/
theorem after_number_bind {minus : Bool} {f : Number → Reader Nat}
    (hf : ∀ {r : Number} {c c' : Cursor} {a : Nat}, f r c = .ok a c' →
      r = .natural a ∧ a < Nat.pow 2 32 ∧ c' = c) (s : List Char) :
    After (number minus >>= f) s fun _ s' =>
      ∃ n : Numeral, n.minus = minus ∧ s = n.unsigned ++ s' := by
  intro p a c hread
  obtain ⟨r, c₁, hnumber, hrest⟩ := bind_eq_ok_iff.1 hread
  obtain ⟨rfl, -, rfl⟩ := hf hrest
  obtain ⟨n, hn, s', p', hs, rfl⟩ := after_number hnumber
  exact ⟨s', p', rfl, n, hn, hs⟩

/-- What a number of thirty-two bits comes from. -/
theorem natural_of_nat32 {r : Number} {c c' : Cursor} {a : Nat}
    (h : (match r with
      | .natural n => if n < Nat.pow 2 32 then pure n else refuse (.invalidValue (.int n) "u32")
      | .negative n => refuse (.invalidValue (.int n) "u32")
      | .double minus x => refuse (.invalidType (.float (x.text minus)) "u32") : Reader Nat) c
        = .ok a c') : r = .natural a ∧ a < Nat.pow 2 32 ∧ c' = c := by
  cases r with
  | natural n =>
    dsimp only at h
    split at h
    · rename_i hlt
      injection h with ha hc
      exact ⟨by rw [ha], ha ▸ hlt, hc.symm⟩
    · cases h
  | negative n => cases h
  | double minus x => cases h

/-- The natural numbers of thirty-two bits are the natural numbers below that
bound. -/
theorem nat32?_eq_some_iff {v : Value} {k : Nat} :
    v.nat32? = some k ↔ v.natural? = some k ∧ k < Nat.pow 2 32 := by
  rw [Value.nat32?, Option.filter_eq_some_iff, decide_eq_true_eq]

/-- **A number that is one of thirty-two bits is read** as that. -/
theorem reads_nat32 {n : Numeral} {k : Nat} (h : n.natural? = some k) (hlt : k < Nat.pow 2 32)
    (b : Blanks) (hs : EndsNumber s) : Reads nat32 (b.chars ++ (n.text ++ s)) k s := by
  obtain ⟨hwhole, hminus, rfl⟩ := n.natural?_eq_some_iff.1 h
  have hread := reads_number hwhole (hlt.trans (by decide)) hs
  rw [← Numeral.text_of_plain hminus] at hread
  obtain ⟨c, rest, hcons, ⟨-, hm, -⟩ | ⟨-, d, rfl⟩⟩ := n.exists_text
  · rw [hminus] at hm
    cases hm
  rw [hcons] at hread ⊢
  refine (reads_blanks b (isAscii_digitChar d) (isSpaceChar_digitChar d) _).bind ?_
  have hne : byte (digitChar d) ≠ byte '-' :=
    mt (byte_inj (isAscii_digitChar d) (by decide)).1 (digitChar_ne (by decide) d)
  dsimp only
  rw [if_pos (Or.inr (isDigit_byte_digitChar d)), if_neg hne, beq_false_of_ne hne]
  refine hread.bind ?_
  dsimp only
  rw [if_pos hlt]
  exact reads_pure _ s

/-- **Any other number is refused.** -/
theorem refuses_nat32 {n : Numeral} (h : Value.nat32? (.number n) = none) (b : Blanks)
    (hs : EndsNumber s) : After nat32 (b.chars ++ (n.text ++ s)) fun _ _ => False := by
  obtain ⟨c, rest, hcons, ⟨rfl, -, rfl⟩ | ⟨hminus, d, rfl⟩⟩ := n.exists_text
  · rw [hcons]
    refine (reads_blanks b (by decide) (by decide) _).after_bind
      (after_ite (fun _ => ?_) fun hnot => absurd (Or.inl rfl) hnot)
    refine after_ite (fun _ => ?_) fun hne => absurd rfl hne
    refine (reads_skip (by decide) _).after_bind fun p a c hread => ?_
    obtain ⟨r, c₁, hnumber, hrest⟩ := bind_eq_ok_iff.1 hread
    obtain ⟨rfl, -, -⟩ := natural_of_nat32 hrest
    exact absurd (natural_of_number hs hnumber).1 (by decide)
  · have hne : byte (digitChar d) ≠ byte '-' :=
      mt (byte_inj (isAscii_digitChar d) (by decide)).1 (digitChar_ne (by decide) d)
    have hblanks := reads_blanks b (isAscii_digitChar d) (isSpaceChar_digitChar d) (rest ++ s)
    rw [← List.cons_append, ← hcons, Numeral.text_of_plain hminus] at hblanks
    rw [Numeral.text_of_plain hminus]
    refine hblanks.after_bind (after_ite (fun _ => ?_) fun hnot =>
      absurd (Or.inr (isDigit_byte_digitChar d)) hnot)
    refine after_ite (fun heq => absurd heq hne) fun _ p a c hread => ?_
    obtain ⟨r, c₁, hnumber, hrest⟩ := bind_eq_ok_iff.1 hread
    obtain ⟨rfl, hlt, -⟩ := natural_of_nat32 hrest
    obtain ⟨-, hwhole, rfl⟩ := natural_of_number hs hnumber
    have hnat32 : Value.nat32? (.number n) = some (Numeral.valueOf n.whole.list) :=
      nat32?_eq_some_iff.2 ⟨n.natural?_eq_some_iff.2 ⟨hwhole, hminus, rfl⟩, hlt⟩
    rw [h] at hnat32
    cases hnat32

/-- Only a number is read where one is asked for. -/
theorem after_nat32 (s : List Char) :
    After nat32 s fun _ s' => ∃ (b : Blanks) (n : Numeral), s = b.chars ++ (n.text ++ s') := by
  refine after_blanks (avoids_refuseNext _) fun b x s₁ hs hhead => ?_
  refine after_ite (fun hnumber => ?_) fun _ => (avoids_unexpected _).after
  refine after_ite (fun hminus => ?_) fun hminus => ?_
  · subst hminus
    obtain ⟨s₂, rfl⟩ := cons_of_head? (c := '-') (by decide) hhead
    refine (reads_skip (by decide) s₂).after_bind
      ((after_number_bind natural_of_nat32 s₂).mono fun _ s' ⟨n, hn, hs₂⟩ => ⟨b, n, ?_⟩)
    rw [hs, hs₂, Numeral.text_of_minus hn, List.cons_append]
  · refine (after_number_bind natural_of_nat32 s₁).mono fun _ s' ⟨n, hn, hs₁⟩ => ⟨b, n, ?_⟩
    rw [beq_false_of_ne hminus] at hn
    rw [hs, hs₁, Numeral.text_of_plain hn]

/-- **A natural number of at most thirty-two bits is read**, if it is written as
one. -/
theorem exact_nat32 : Exact nat32 Value.nat32? where
  reads := by
    intro v k hv b s hs
    obtain ⟨hnatural, hlt⟩ := nat32?_eq_some_iff.1 hv
    cases v with
    | number n => exact reads_nat32 hnatural hlt b hs.endsNumber
    | _ => cases hnatural
  refuses := by
    intro v hv b s hs
    by_cases hnumber : ∃ n, v = .number n
    · obtain ⟨n, rfl⟩ := hnumber
      exact refuses_nat32 hv b hs.endsNumber
    · obtain ⟨c, rest, htext, hc, hread⟩ := reads_blanks_value v b s
      refine hread.after_bind (after_ite (fun hlead => ?_) fun _ => (avoids_unexpected _).after)
      exact absurd (Value.eq_number_of_text htext (hlead.imp_left (byte_inj hc (by decide)).1))
        hnumber
  sound s := (after_nat32 s).mono fun _ _ ⟨b, n, hs⟩ => ⟨b, .number n, hs⟩

/-- **A null is read.** -/
theorem exact_unit : Exact unit Value.null? where
  reads := by
    intro v u hv b s _
    cases v with
    | word w =>
      cases w with
      | null =>
        rw [Value.text]
        refine (reads_blanks b (c := 'n') (by decide) (by decide) _).bind ?_
        dsimp only
        rw [if_pos rfl]
        exact reads_rest_of_word (by decide) (by decide) s
      | bool => cases hv
    | _ => cases hv
  refuses := by
    intro v hv b s _
    obtain ⟨c, rest, htext, hc, hread⟩ := reads_blanks_value v b s
    refine hread.after_bind (after_ite (fun hn => ?_) fun _ => (avoids_unexpected _).after)
    obtain rfl := (byte_inj hc (by decide)).1 hn
    obtain rfl := Value.eq_null_of_text htext
    cases hv
  sound := by
    intro s
    refine after_blanks (avoids_refuseNext _) fun b x s₁ hs hhead => ?_
    refine after_ite (fun hn => ?_) fun _ => (avoids_unexpected _).after
    subst hn
    refine (after_rest_of_word (by decide) (by decide) hhead).mono fun _ s' hs' => ?_
    exact ⟨b, .word .null, by rw [hs, hs']; rfl⟩

/-! ## Choices

A choice has two forms, a name alone and an object with the name for its only
key. The second has more ways to go wrong than the first one: there may be no
key, an unknown one, a value behind it that is no null, or a second key. -/

/-- A colon is passed, with blanks in front. -/
theorem reads_colon (b : Blanks) (s : List Char) : Reads colon (b.chars ++ ':' :: s) () s := by
  refine (reads_blanks b (by decide) (by decide) s).bind ?_
  dsimp only
  rw [if_pos rfl]
  exact reads_skip (by decide) s

theorem after_colon (s : List Char) :
    After colon s fun _ s' => ∃ b : Blanks, s = b.chars ++ ':' :: s' := by
  refine after_blanks (avoids_refuseNext _) fun b x s₁ hs hhead => ?_
  refine after_ite (fun hcolon => ?_) fun _ => after_refuseNext _
  subst hcolon
  obtain ⟨s₂, rfl⟩ := cons_of_head? (c := ':') (by decide) hhead
  refine (reads_skip (by decide) s₂).after.mono fun _ s' h => ⟨b, ?_⟩
  rw [hs, h.2]

section Choice

variable {κ : Type} (choices : List (String × κ))

/-- **A name among the choices is read** as the choice, and any other is
refused. -/
theorem exact_choiceName :
    Exact (choiceName choices) fun v => v.string?.bind (choices.lookup ·) := by
  refine Exact.congr (exact_stringAs "variant identifier" _) fun v => ?_
  congr 1
  funext s
  cases choices.lookup s <;> rfl

section Text

variable (key : KeyText) (before : Blanks) (v : Value) (after : Blanks) (s : List Char)

/-- The text of an object with a single field, spelled out as far as the reader
of choices goes over it. -/
theorem text_last_append : Value.text (.object (.last key before v after)) ++ s
    = '\x7b' :: (key.before.chars ++ (key.literal.text ++ (key.after.chars ++ ':'
      :: (before.chars ++ (v.text ++ (after.chars ++ '\x7d' :: s)))))) := by
  simp only [Value.text, Fields.text, KeyText.text, List.cons_append, List.append_assoc,
    List.nil_append]

/-- That of an object with more fields. Behind the first one there is a comma,
at which the reader of choices stops. -/
theorem text_more_append (rest : Fields) :
    Value.text (.object (.more key before v after rest)) ++ s
      = '\x7b' :: (key.before.chars ++ (key.literal.text ++ (key.after.chars ++ ':'
        :: (before.chars ++ (v.text ++ (after.chars ++ ',' :: (rest.text ++ '\x7d' :: s))))))) := by
  simp only [Value.text, Fields.text, KeyText.text, List.cons_append, List.append_assoc,
    List.nil_append]

end Text

/-- A name that is not known, a value that is not a null and a second key are
refused. -/
theorem refuses_choice_fields {b : Blanks} {key : KeyText} {before : Blanks} {v : Value}
    {after : Blanks} {t : List Char} (ht : EndsValue t)
    (h : (key.literal.string?.bind (choices.lookup ·)).isNone ∨ v.null? = none ∨
      ∃ t', t = ',' :: t') :
    After (choice choices pure fun k => do unit; return k)
      (b.chars ++ '\x7b' :: (key.before.chars ++ (key.literal.text ++ (key.after.chars ++ ':'
        :: (before.chars ++ (v.text ++ (after.chars ++ t))))))) fun _ _ => False := by
  have hname := exact_choiceName choices
  have hends : ∀ t, EndsValue (key.after.chars ++ ':' :: t) := fun t =>
    key.after.endsValue (endsValue_cons (Or.inr (Or.inr (Or.inr rfl))) t)
  refine (reads_blanks b (by decide) (by decide) _).after_bind ?_
  refine after_ite (fun heq => absurd heq (by decide)) fun _ => after_ite (fun _ => ?_) fun hne =>
    absurd rfl hne
  refine (reads_skip (by decide) _).after_bind ?_
  -- The name is read first, then the value, and then what follows: each is to blame only if
  -- the ones before it are good.
  cases hkey : key.literal.string?.bind (choices.lookup ·) with
  | none =>
    exact (hname.refuses (v := .string key.literal) hkey key.before (hends _)).bind_left
  | some k =>
    refine (hname.reads (v := .string key.literal) hkey key.before (hends _)).after_bind
      ((reads_colon key.after _).after_bind ?_)
    cases hnull : v.null? with
    | none =>
      exact ((exact_unit.map fun _ => k).refuses (by rw [hnull]; rfl) before
        (after.endsValue ht)).bind_left
    | some u =>
      obtain ⟨t', rfl⟩ : ∃ t', t = ',' :: t' := by
        rcases h with h | h | h
        · rw [hkey] at h
          cases h
        · rw [hnull] at h
          cases h
        · exact h
      refine ((exact_unit.reads hnull before (after.endsValue ht)).bind
        (reads_pure k _)).after_bind
        ((reads_blanks after (by decide) (by decide) t').after_bind ?_)
      exact after_ite (fun heq => absurd heq (by decide)) fun _ => after_refuse _

/-- **A name that is known is read with a value** that is read. -/
theorem reads_choice_object {α : Type} {alone withValue : κ → Reader α} (b : Blanks)
    {key : KeyText} {before : Blanks} {v : Value} {after : Blanks} {k : κ} {a : α}
    (hkey : key.literal.string?.bind (choices.lookup ·) = some k)
    (hvalue : ∀ {s}, EndsValue s → Reads (withValue k) (before.chars ++ (v.text ++ s)) a s)
    (s : List Char) : Reads (choice choices alone withValue)
      (b.chars ++ (Value.text (.object (.last key before v after)) ++ s)) a s := by
  have hname := exact_choiceName choices
  rw [text_last_append]
  refine (reads_blanks b (by decide) (by decide) _).bind ?_
  dsimp only
  rw [if_neg (by decide), if_pos rfl]
  refine (reads_skip (by decide) _).bind
    ((hname.reads (v := .string key.literal) hkey key.before ?_).bind
      ((reads_colon key.after _).bind
        ((hvalue ?_).bind ((reads_blanks after (by decide) (by decide) s).bind ?_))))
  · exact key.after.endsValue (endsValue_cons (Or.inr (Or.inr (Or.inr rfl))) _)
  · exact after.endsValue (endsValue_cons (Or.inr (Or.inr (Or.inl rfl))) s)
  · dsimp only
    rw [if_pos rfl]
    exact (reads_skip (by decide) s).bind (reads_pure a s)

/-- Only a name or an object is read where there is a choice. -/
theorem after_choice (s : List Char) :
    After (choice choices pure fun k => do unit; return k) s fun _ s' =>
      ∃ (b : Blanks) (v : Value), s = b.chars ++ (v.text ++ s') := by
  refine after_blanks (avoids_refuseNext _) fun b x s₁ hs hhead => ?_
  refine after_ite (fun hquote => ?_) fun _ => after_ite (fun hbrace => ?_) fun _ =>
    after_refuseNext _
  · refine (after_stringAs _ _ s₁).bind fun k s' hs' => after_pure ?_
    obtain ⟨b', l, rfl⟩ := hs'
    exact ⟨b.append b', .string l, by rw [hs, Blanks.chars_append, List.append_assoc, Value.text]⟩
  · subst hbrace
    obtain ⟨s₂, rfl⟩ := cons_of_head? (c := '\x7b') (by decide) hhead
    refine (reads_skip (by decide) s₂).after_bind ?_
    refine (after_stringAs _ _ s₂).bind fun k s₃ hs₃ => ?_
    obtain ⟨b₁, l, rfl⟩ := hs₃
    refine (after_colon s₃).bind fun _ s₄ hs₄ => ?_
    obtain ⟨b₂, rfl⟩ := hs₄
    have hunit : After (do unit; return k) s₄ fun _ s' => ∃ (b : Blanks) (v : Value),
        s₄ = b.chars ++ (v.text ++ s') := (exact_unit.map fun _ => k).sound s₄
    refine hunit.bind fun _ s₅ hs₅ => ?_
    obtain ⟨b₃, v, rfl⟩ := hs₅
    refine after_blanks (avoids_refuse _) fun b₄ y s₆ hs₆ hhead => ?_
    refine after_ite (fun hclose => ?_) fun _ => after_refuse _
    subst hclose
    obtain ⟨s₇, rfl⟩ := cons_of_head? (c := '\x7d') (by decide) hhead
    refine (reads_skip (by decide) s₇).after_bind (after_pure ?_)
    refine ⟨b, .object (.last ⟨b₁, l, b₂⟩ b₃ v b₄), ?_⟩
    rw [hs, hs₆, text_last_append]

/-- An object that makes no choice is refused. -/
theorem refuses_choice_object {fs : Fields} (h : Value.choice? choices (.object fs) = none)
    (b : Blanks) (s : List Char) :
    After (choice choices pure fun k => do unit; return k)
      (b.chars ++ ((Value.object fs).text ++ s)) fun _ _ => False := by
  cases fs with
  | last key before v after =>
    rw [text_last_append]
    refine refuses_choice_fields choices (endsValue_cons (Or.inr (Or.inr (Or.inl rfl))) s) ?_
    cases hnull : v.null? with
    | none => exact Or.inr (Or.inl rfl)
    | some u =>
      rw [Value.choice?, hnull, Option.bind_some] at h
      exact Or.inl (Option.isNone_iff_eq_none.2 h)
  | more key before v after rest =>
    rw [text_more_append]
    exact refuses_choice_fields choices (endsValue_cons (Or.inl rfl) _) (Or.inr (Or.inr ⟨_, rfl⟩))

/-- So is one without fields. -/
theorem refuses_choice_emptyObject (inside b : Blanks) (s : List Char) :
    After (choice choices pure fun k => do unit; return k)
      (b.chars ++ ((Value.emptyObject inside).text ++ s)) fun _ _ => False := by
  rw [Value.text, List.cons_append, List.append_assoc]
  refine (reads_blanks b (by decide) (by decide) _).after_bind
    (after_ite (fun heq => absurd heq (by decide)) fun _ =>
      after_ite (fun _ => ?_) fun hne => absurd rfl hne)
  refine (reads_skip (by decide) _).after_bind ?_
  have hname : After (choiceName choices) (inside.chars ++ '\x7d' :: s) fun _ _ => False :=
    (reads_blanks inside (by decide) (by decide) s).after_bind
      (after_ite (fun heq => absurd heq (by decide)) fun _ => (avoids_unexpected _).after)
  exact hname.bind_left

/-- **A choice is read** from its name, alone or with a null. -/
theorem exact_choice :
    Exact (choice choices pure fun k => do unit; return k) (Value.choice? choices) where
  reads := by
    intro v k hv b s hs
    cases v with
    | string l =>
      have hread := ((exact_choiceName choices).reads (v := .string l) hv Blanks.none hs).bind
        (reads_pure k s)
      rw [Blanks.chars_none, List.nil_append, Value.text, text_append] at hread
      rw [Value.text, text_append]
      refine (reads_blanks b (by decide) (by decide) _).bind ?_
      dsimp only
      rw [if_pos rfl]
      exact hread
    | object fs =>
      cases fs with
      | more => cases hv
      | last key before v after =>
        obtain ⟨u, hnull, hkey⟩ := Option.bind_eq_some_iff.1 hv
        exact reads_choice_object choices b hkey
          (fun ht => (exact_unit.reads hnull before ht).bind (reads_pure k _)) s
    | _ => cases hv
  refuses := by
    intro v hv b s hs
    by_cases hobject : (∃ inside, v = .emptyObject inside) ∨ ∃ fs, v = .object fs
    · obtain ⟨inside, rfl⟩ | ⟨fs, rfl⟩ := hobject
      · exact refuses_choice_emptyObject choices inside b s
      · exact refuses_choice_object choices hv b s
    obtain ⟨c, rest, htext, hc, hread⟩ := reads_blanks_value v b s
    refine hread.after_bind (after_ite (fun hquote => ?_) fun _ =>
      after_ite (fun hbrace => ?_) fun _ => after_refuseNext _)
    · obtain rfl := (byte_inj hc (by decide)).1 hquote
      obtain ⟨l, rfl⟩ := Value.eq_string_of_text htext
      exact ((exact_choiceName choices).refuses (v := .string l) hv Blanks.none hs).bind_left
    · obtain rfl := (byte_inj hc (by decide)).1 hbrace
      exact absurd (Value.eq_object_of_text htext) hobject
  sound := after_choice choices

end Choice

end Reader

end CertAuthority.Json
