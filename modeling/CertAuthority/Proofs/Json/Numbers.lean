import CertAuthority.Proofs.Json.Strings
import Mathlib.Tactic.SplitIfs

/-!
# Reading numbers

The grammar of numbers is that of the texts that are skipped as one, whatever
they come to (`reads_skipNumber`, `after_skipNumber`). Where a number is read,
only one that is written as a whole number is ever natural, and then it is the
number that its digits denote (`reads_number`, `after_number`): a fraction or
an exponent makes it a number of the binary format, be its value whole or not.

The end of a number shows only in what follows. So the texts that are read
have to go on with something that does not belong to a number (`EndsNumber`),
which all that may follow a value does.

The parts are taken one after another, as the reader does: digits, the whole
part, a sign, an exponent, a fraction, and each has its two lemmas, `reads_`
for what is written by the grammar and `after_` for the converse. Numbers of
the binary format are never looked into. Settings are natural numbers, and for
those it is enough to know that what has a fraction or an exponent, and what
has more digits than fit, is not natural (`Number.IsNatural`,
`avoids_decimal`).
-/

namespace CertAuthority.Json

open Text

/-! ## Digits

Digits are read as long as they come, by loops that count their steps. There
are enough steps for as many digits as are left. What is behind them has to be
no digit, which is a condition on the text and not on the reader. -/

/-- Whether what follows digits is not one more. At the end of a text that is
so. -/
def EndsDigits (s : List Char) : Prop := ∀ b ∈ (Utf8.encode s).head?, Reader.isDigit b = false

/-- Whether what follows a number does not belong to it: no digit, no point and
no letter of an exponent. -/
def EndsNumber (s : List Char) : Prop :=
  ∀ b ∈ (Utf8.encode s).head?,
    Reader.isDigit b = false ∧ b ≠ byte '.' ∧ b ≠ byte 'e' ∧ b ≠ byte 'E'

/-- What does not belong to a number is no digit. -/
theorem EndsNumber.endsDigits {s : List Char} (h : EndsNumber s) : EndsDigits s :=
  fun b hb => (h b hb).1

/-- Digits are in the basic alphabet, so each is a byte. -/
theorem isAscii_digitChar (d : Fin 10) : (digitChar d).toNat < 128 := by
  revert d
  decide

theorem isDigit_byte_digitChar (d : Fin 10) : Reader.isDigit (byte (digitChar d)) = true := by
  revert d
  decide

/-- The byte of a digit gives its value, as the reader works it out. -/
theorem toNat_byte_digitChar (d : Fin 10) : (byte (digitChar d)).toNat - 48 = d.val := by
  revert d
  decide

/-- Only the digit zero is read as a zero, which no more digits may follow. -/
theorem byte_digitChar_ne_zero {d : Fin 10} (h : d ≠ 0) : byte (digitChar d) ≠ byte '0' := by
  revert d
  decide

/-- A digit is no sign, so digits without a sign are not taken for one. -/
theorem byte_digitChar_ne_sign (d : Fin 10) :
    ¬ (some (byte (digitChar d)) = some (byte '+') ∨ some (byte (digitChar d)) = some (byte '-')) := by
  revert d
  decide

/-- No byte beyond the basic alphabet counts as a digit. -/
theorem isDigit_of_le {b : UInt8} (h : 128 ≤ b.toNat) : Reader.isDigit b = false := by
  simp only [Reader.isDigit, Bool.and_eq_false_iff, decide_eq_false_iff_not]
  omega

/-- A digit is no blank, so blanks end before it. -/
theorem isSpaceChar_digitChar (d : Fin 10) : isSpaceChar (digitChar d) = false := by
  revert d
  decide

/-- A byte that counts as a digit is one: the text ahead begins with the digit.
-/
theorem exists_digitChar {s : List Char} {b : UInt8} (hb : (Utf8.encode s).head? = some b)
    (h : Reader.isDigit b = true) : ∃ d s', s = digitChar d :: s' ∧ b = byte (digitChar d) := by
  simp only [Reader.isDigit, Bool.and_eq_true, decide_eq_true_eq] at h
  obtain ⟨c, s', rfl, hc, rfl⟩ := exists_cons_of_head? hb (by omega)
  rw [toNat_byte hc] at h
  have hchar : digitChar ⟨c.toNat - 48, by omega⟩ = c := by
    rw [digitChar, Nat.add_sub_cancel' h.1, Char.ofNat_toNat]
  exact ⟨_, s', by rw [hchar], by rw [hchar]⟩

/-- A character of the basic alphabet that is no digit ends digits. -/
theorem endsDigits_of_cons {c : Char} {s : List Char} (hc : c.toNat < 128)
    (h : Reader.isDigit (byte c) = false) : EndsDigits (c :: s) := by
  intro b hb
  rw [encode_cons hc] at hb
  obtain rfl := Option.some.inj hb
  exact h

namespace Reader

variable {s : List Char}

/-- Digits are read up to something else, if there are steps enough. The
induction is on the digits, with one step for each. -/
theorem reads_digits {ds : List (Fin 10)} (h : EndsDigits s) {fuel : Nat}
    (hfuel : ds.length ≤ fuel) :
    Reads (digits fuel) (digitsText ds ++ s) (ds.map Fin.val) s := by
  induction ds generalizing fuel with
  | nil =>
    cases fuel with
    | zero => exact reads_pure [] s
    | succ fuel =>
      rw [digits]
      refine (reads_peek s).bind ?_
      cases hhead : (Utf8.encode s).head? with
      | none => exact reads_pure [] s
      | some b =>
        dsimp only
        rw [h b hhead, if_neg Bool.false_ne_true]
        exact reads_pure [] s
  | cons d ds ih =>
    obtain ⟨fuel, rfl⟩ := Nat.exists_eq_succ_of_ne_zero (Nat.ne_of_gt
      ((Nat.succ_pos _).trans_le hfuel))
    rw [digits]
    refine (reads_peek_cons (isAscii_digitChar d) _).bind ?_
    dsimp only
    rw [if_pos (isDigit_byte_digitChar d), toNat_byte_digitChar]
    exact (reads_skip (isAscii_digitChar d) _).bind
      ((ih (Nat.succ_le_succ_iff.1 hfuel)).bind (reads_pure _ s))

/-- What was read as digits are digits, as many as there were steps for. -/
theorem after_digits (fuel : Nat) (s : List Char) :
    After (digits fuel) s fun ns s' => ∃ ds, s = digitsText ds ++ s' ∧ ns = ds.map Fin.val := by
  induction fuel generalizing s with
  | zero => exact after_pure ⟨[], rfl, rfl⟩
  | succ fuel ih =>
    rw [digits]
    refine after_peek_bind ?_
    cases hhead : (Utf8.encode s).head? with
    | none => exact after_pure ⟨[], rfl, rfl⟩
    | some b =>
      dsimp only
      split_ifs with hdigit
      · obtain ⟨d, s', rfl, rfl⟩ := exists_digitChar hhead hdigit
        refine (reads_skip (isAscii_digitChar d) s').after_bind ((ih s').bind fun ns s'' h => ?_)
        obtain ⟨ds, rfl, rfl⟩ := h
        exact after_pure ⟨d :: ds, rfl, by rw [toNat_byte_digitChar, List.map_cons]⟩
      · exact after_pure ⟨[], rfl, rfl⟩

theorem length_le_encode (s : List Char) : s.length ≤ (Utf8.encode s).length := by
  induction s with
  | nil => exact Nat.le_refl 0
  | cons c s ih =>
    have hpos := List.length_pos_of_ne_nil (utf8EncodeChar_ne_nil c)
    show s.length + 1 ≤ (String.utf8EncodeChar c ++ Utf8.encode s).length
    rw [List.length_append]
    omega

/-- There are steps enough for digits in what is left, and one to spare, with
which the end is seen. -/
theorem length_digits_le (ds : List (Fin 10)) (s : List Char) :
    ds.length ≤ (Utf8.encode (digitsText ds ++ s)).length + 1 := by
  have hle := length_le_encode (digitsText ds ++ s)
  rw [List.length_append, digitsText, List.length_map] at hle
  rw [digitsText]
  omega

/-- **All digits that come next are read**, and the next reader gets their
values. -/
theorem reads_left_digits {ds : List (Fin 10)} (h : EndsDigits s) {β : Type}
    {f : List Nat → Reader β} {b : β} {s' : List Char} (hf : Reads (f (ds.map Fin.val)) s b s') :
    Reads (left >>= fun n => digits (n + 1) >>= f) (digitsText ds ++ s) b s' :=
  (reads_left _).bind ((reads_digits h (length_digits_le ds s)).bind hf)

/-- **Only digits are read** by a reader that takes all that come next. -/
theorem after_left_digits {β : Type} {f : List Nat → Reader β} {R : β → List Char → Prop}
    (hf : ∀ ds s', s = digitsText ds ++ s' → After (f (ds.map Fin.val)) s' R) :
    After (left >>= fun n => digits (n + 1) >>= f) s R := by
  refine (reads_left s).after_bind ((after_digits _ s).bind fun ns s' h => ?_)
  obtain ⟨ds, hs, rfl⟩ := h
  exact hf ds s' hs

/-! ## The parts of a number

Some readers want the value of what they take off and others do not. So the
parts are read with what comes next as a parameter, and the same lemma serves
both readers of numbers. -/

variable {w : Digits}

/-- The whole part of a number is read, be it a zero or digits of which the
first is none. -/
theorem reads_wholeDigits (hw : w.list.head? = some 0 → w.list = [0]) (h : EndsDigits s) :
    Reads wholeDigits (digitsText w.list ++ s) (w.list.map Fin.val) s := by
  obtain ⟨d, ds, hlist⟩ := List.exists_cons_of_ne_nil w.ne_nil
  rw [hlist] at hw ⊢
  refine (reads_next (isAscii_digitChar d) (digitsText ds ++ s)).bind ?_
  dsimp only
  by_cases hzero : d = 0
  · subst hzero
    obtain rfl : ds = [] := (List.cons.inj (hw rfl)).2
    rw [if_pos (by decide)]
    refine (reads_peek s).bind ?_
    cases hhead : (Utf8.encode s).head? with
    | none => exact reads_pure [0] s
    | some b =>
      dsimp only
      rw [h b hhead, if_neg Bool.false_ne_true]
      exact reads_pure [0] s
  · rw [if_neg (byte_digitChar_ne_zero hzero), if_pos (isDigit_byte_digitChar d), toNat_byte_digitChar]
    exact reads_left_digits h (reads_pure _ s)

/-- What is read as the whole part of a number is one, without zeros before it.
-/
theorem after_wholeDigits (s : List Char) :
    After wholeDigits s fun ns s' => ∃ w : Digits, (w.list.head? = some 0 → w.list = [0]) ∧
      s = digitsText w.list ++ s' ∧ ns = w.list.map Fin.val := by
  -- A first zero is all of the whole part, and any other digit begins as many as there are.
  refine after_next_bind (fun _ => after_refuse _) (fun c s' hs hc => ?_) fun b hb => ?_
  · dsimp only
    split_ifs with hzero hdigit
    · obtain rfl := (byte_inj hc (by decide)).1 hzero
      have hpure : After (pure [0] : Reader (List Nat)) s' fun ns s' =>
          ∃ w : Digits, (w.list.head? = some 0 → w.list = [0]) ∧
            s = digitsText w.list ++ s' ∧ ns = w.list.map Fin.val :=
        after_pure ⟨⟨[0], List.cons_ne_nil _ _⟩, fun _ => rfl, hs, rfl⟩
      refine after_peek_bind ?_
      cases (Utf8.encode s').head? with
      | none => exact hpure
      | some b =>
        dsimp only
        split_ifs
        · exact after_refuseNext _
        · exact hpure
    · obtain ⟨d, s₁, hs₁, hd⟩ := exists_digitChar (s := s) (b := byte c)
        (by rw [hs, encode_cons hc]; rfl) hdigit
      obtain rfl := (byte_inj hc (isAscii_digitChar d)).1 hd
      refine after_left_digits fun ds s'' hs' => after_pure ⟨⟨d :: ds, List.cons_ne_nil _ _⟩, ?_⟩
      refine ⟨fun hd0 => ?_, by rw [hs, hs']; rfl, by rw [toNat_byte_digitChar]; rfl⟩
      obtain rfl : d = 0 := Option.some.inj hd0
      exact absurd rfl hzero
    · exact after_refuse _
  · dsimp only
    rw [if_neg (ne_byte_of_le hb (by decide)), isDigit_of_le hb, if_neg Bool.false_ne_true]
    exact avoids_refuse _

section Sign

variable {β : Type} {f : Option UInt8 → Reader β} {b : β} {s' : List Char}
  {R : β → List Char → Prop}

/-- A sign of an exponent is skipped, if there is one. The next reader is told
what was seen, and makes no use of it but for the sign. -/
theorem reads_sign (sign : Option Bool) (w : Digits)
    (hf : ∀ o, Reads (f o) (digitsText w.list ++ s) b s') :
    Reads (peek >>= fun o => if o = some (byte '+') ∨ o = some (byte '-') then skip >>= fun _ => f o
      else f o) (Exponent.signText sign ++ (digitsText w.list ++ s)) b s' := by
  obtain ⟨d, ds, hlist⟩ := List.exists_cons_of_ne_nil w.ne_nil
  rcases sign with _ | _ | _
  · rw [hlist] at hf ⊢
    refine (reads_peek_cons (isAscii_digitChar d) _).bind ?_
    rw [if_neg (byte_digitChar_ne_sign d)]
    exact hf _
  · refine (reads_peek_cons (by decide) _).bind ?_
    rw [if_pos (Or.inl rfl)]
    exact (reads_skip (by decide) _).bind (hf _)
  · refine (reads_peek_cons (by decide) _).bind ?_
    rw [if_pos (Or.inr rfl)]
    exact (reads_skip (by decide) _).bind (hf _)

/-- What was skipped before the digits of an exponent is a sign, or nothing. -/
theorem after_sign (hf : ∀ o sign s', s = Exponent.signText sign ++ s' → After (f o) s' R) :
    After (peek >>= fun o => if o = some (byte '+') ∨ o = some (byte '-') then skip >>= fun _ => f o
      else f o) s R := by
  refine after_peek_bind ?_
  split_ifs with hsign
  · rcases hsign with hplus | hminus
    · obtain ⟨s', rfl⟩ := cons_of_head? (c := '+') (by decide) hplus
      exact (reads_skip (by decide) s').after_bind (hf _ (some false) s' rfl)
    · obtain ⟨s', rfl⟩ := cons_of_head? (c := '-') (by decide) hminus
      exact (reads_skip (by decide) s').after_bind (hf _ (some true) s' rfl)
  · exact hf _ none s rfl

/-- A sign makes no difference to what is never read. -/
theorem avoids_sign {P : β → Prop} (hf : ∀ o, Avoids (f o) P) :
    Avoids (peek >>= fun o => if o = some (byte '+') ∨ o = some (byte '-') then skip >>= fun _ => f o
      else f o) P := by
  refine Avoids.bind fun o => ?_
  split_ifs
  · exact Avoids.bind fun _ => hf o
  · exact hf o

end Sign

/-! ## Numbers that are skipped

A number that nobody asks for is taken off part by part. Each part may be
missing, and one character tells whether it is there. So what follows one part
is known by the parts that can come next, and the lemmas go backwards, from
the exponent to the whole number. -/

/-- The letters of an exponent are in the basic alphabet. -/
theorem isAscii_letter {c : Char} (hc : c = 'e' ∨ c = 'E') : c.toNat < 128 := by
  rcases hc with rfl | rfl <;> decide

/-- An exponent is skipped up to the end of its digits. -/
theorem reads_skipExponent (e : Exponent) (h : EndsDigits s) :
    Reads skipExponent (e.text ++ s) () s := by
  have hletter : (if e.capital then 'E' else 'e').toNat < 128 := by
    cases e.capital <;> decide
  rw [Exponent.text, List.cons_append, List.append_assoc]
  refine (reads_skip hletter _).bind (reads_sign e.sign e.digits fun _ => ?_)
  obtain ⟨d, ds, hlist⟩ := List.exists_cons_of_ne_nil e.digits.ne_nil
  rw [hlist]
  refine (reads_next (isAscii_digitChar d) (digitsText ds ++ s)).bind ?_
  dsimp only
  rw [if_pos (isDigit_byte_digitChar d)]
  exact reads_left_digits h (reads_pure _ s)

/-- What is skipped from the letter of an exponent on is an exponent. -/
theorem after_skipExponent {c : Char} (hc : c = 'e' ∨ c = 'E') (s : List Char) :
    After skipExponent (c :: s) fun _ s' => ∃ e : Exponent, c :: s = e.text ++ s' := by
  have hletter : ∃ capital : Bool, c = (if capital then 'E' else 'e') := by
    rcases hc with rfl | rfl
    · exact ⟨false, rfl⟩
    · exact ⟨true, rfl⟩
  obtain ⟨capital, hcapital⟩ := hletter
  refine (reads_skip (isAscii_letter hc) s).after_bind (after_sign fun _ sign s₁ hs₁ => ?_)
  refine after_next_bind (fun _ => after_refuse _) (fun c₂ s₂ hs₂ hc₂ => ?_) fun b hb => ?_
  · dsimp only
    split_ifs with hdigit
    · obtain ⟨d, s₃, hs₃, -⟩ := exists_digitChar (s := s₁) (b := byte c₂)
        (by rw [hs₂, encode_cons hc₂]; rfl) hdigit
      obtain ⟨rfl, rfl⟩ := List.cons.inj (hs₂.symm.trans hs₃)
      refine after_left_digits fun ds s' hs' => after_pure
        ⟨⟨capital, sign, ⟨d :: ds, List.cons_ne_nil _ _⟩⟩, ?_⟩
      rw [hs₁, hs₂, hs', Exponent.text, hcapital, List.cons_append, List.append_assoc]
      rfl
    · exact after_refuse _
  · dsimp only
    rw [isDigit_of_le hb, if_neg Bool.false_ne_true]
    exact avoids_refuse _

/-- The letter of an exponent ends the digits before it. -/
theorem isDigit_letter {c : Char} (hc : c = 'e' ∨ c = 'E') : isDigit (byte c) = false := by
  rcases hc with rfl | rfl <;> decide

theorem exists_text_exponent (e : Exponent) :
    ∃ c rest, (c = 'e' ∨ c = 'E') ∧ e.text = c :: rest := by
  cases hcapital : e.capital
  · exact ⟨'e', _, Or.inl rfl, by rw [Exponent.text, hcapital]; rfl⟩
  · exact ⟨'E', _, Or.inr rfl, by rw [Exponent.text, hcapital]; rfl⟩

/-- Digits end where an exponent begins or the number does. -/
theorem endsDigits_exponent (exponent : Option Exponent) (h : EndsNumber s) :
    EndsDigits (exponent.elim [] Exponent.text ++ s) := by
  cases exponent with
  | none => exact h.endsDigits
  | some e =>
    obtain ⟨c, rest, hc, htext⟩ := exists_text_exponent e
    rw [Option.elim_some, htext]
    exact endsDigits_of_cons (isAscii_letter hc) (isDigit_letter hc)

/-- Digits of the whole part end at the point, at the exponent or with the
number. -/
theorem endsDigits_tail (fraction : Option Digits) (exponent : Option Exponent)
    (h : EndsNumber s) : EndsDigits (Numeral.tailText fraction exponent ++ s) := by
  cases fraction with
  | none => exact endsDigits_exponent exponent h
  | some ds => exact endsDigits_of_cons (by decide) (by decide)

/-- Whether an exponent comes next shows in the next byte, and a point is no
sign of one. -/
theorem exponent_next (exponent : Option Exponent) (h : EndsNumber s) :
    ∃ o, Reads peek (exponent.elim [] Exponent.text ++ s) o (exponent.elim [] Exponent.text ++ s) ∧
      (o = some (byte 'e') ∨ o = some (byte 'E') ↔ exponent.isSome) ∧ o ≠ some (byte '.') := by
  cases exponent with
  | none =>
    refine ⟨_, reads_peek s, ?_, fun hdot => (h _ hdot).2.1 rfl⟩
    simp only [Option.isSome_none, Bool.false_eq_true, iff_false, not_or]
    exact ⟨fun he => (h _ he).2.2.1 rfl, fun hE => (h _ hE).2.2.2 rfl⟩
  | some e =>
    obtain ⟨c, rest, hc, htext⟩ := exists_text_exponent e
    rw [Option.elim_some, htext, List.cons_append]
    refine ⟨_, reads_peek_cons (isAscii_letter hc) _, ?_, ?_⟩
    · simp only [Option.isSome_some, iff_true]
      exact hc.imp (congrArg (some ∘ byte)) (congrArg (some ∘ byte))
    · rcases hc with rfl | rfl <;> decide

/-- A fraction is skipped, and the exponent after it, if there is one. -/
theorem reads_skipFraction (ds : Digits) (exponent : Option Exponent) (h : EndsNumber s) :
    Reads skipFraction (Numeral.tailText (some ds) exponent ++ s) () s := by
  obtain ⟨d, rest, hlist⟩ := List.exists_cons_of_ne_nil ds.ne_nil
  rw [Numeral.tailText, Option.elim_some, List.cons_append, List.cons_append, List.append_assoc]
  refine (reads_skip (by decide) _).bind (reads_left_digits (endsDigits_exponent exponent h) ?_)
  rw [hlist, if_neg (by simp)]
  obtain ⟨o, hpeek, ho, -⟩ := exponent_next exponent h
  refine hpeek.bind ?_
  cases exponent with
  | none =>
    rw [if_neg (by rw [ho]; exact Bool.false_ne_true)]
    exact reads_pure () s
  | some e =>
    rw [if_pos (ho.2 rfl)]
    exact reads_skipExponent e h.endsDigits

/-- A byte that is seen to begin an exponent is a letter of the text. -/
theorem exists_letter (h : (Utf8.encode s).head? = some (byte 'e') ∨
    (Utf8.encode s).head? = some (byte 'E')) :
    ∃ c s', (c = 'e' ∨ c = 'E') ∧ s = c :: s' := by
  rcases h with he | hE
  · obtain ⟨s', hs'⟩ := cons_of_head? (c := 'e') (by decide) he
    exact ⟨'e', s', Or.inl rfl, hs'⟩
  · obtain ⟨s', hs'⟩ := cons_of_head? (c := 'E') (by decide) hE
    exact ⟨'E', s', Or.inr rfl, hs'⟩

/-- What is skipped from a point on is a fraction, with an exponent or without.
-/
theorem after_skipFraction (s : List Char) :
    After skipFraction ('.' :: s) fun _ s' => ∃ ds exponent,
      '.' :: s = Numeral.tailText (some ds) exponent ++ s' := by
  refine (reads_skip (by decide) s).after_bind (after_left_digits fun ds s₁ hs => ?_)
  split_ifs with hempty
  · exact after_refuseNext _
  have hne : ds ≠ [] := by
    rintro rfl
    exact hempty rfl
  refine after_peek_bind ?_
  split_ifs with hletter
  · obtain ⟨c, s₂, hc, rfl⟩ := exists_letter hletter
    refine (after_skipExponent hc s₂).mono fun _ s' hs' => ?_
    obtain ⟨e, hs'⟩ := hs'
    refine ⟨⟨ds, hne⟩, some e, ?_⟩
    rw [hs, hs', Numeral.tailText, Option.elim_some, Option.elim_some, List.cons_append,
      List.cons_append, List.append_assoc]
  · refine after_pure ⟨⟨ds, hne⟩, none, ?_⟩
    rw [hs, Numeral.tailText, Option.elim_some, Option.elim_none, List.append_nil,
      List.cons_append]

/-- A fraction and an exponent are skipped, where there are. -/
theorem reads_skipTail (fraction : Option Digits) (exponent : Option Exponent)
    (h : EndsNumber s) :
    Reads (peek >>= fun b => if b = some (byte '.') then skipFraction
      else if b = some (byte 'e') ∨ b = some (byte 'E') then skipExponent else pure ())
      (Numeral.tailText fraction exponent ++ s) () s := by
  cases fraction with
  | some ds =>
    refine (reads_peek_cons (by decide) _).bind ?_
    rw [if_pos rfl]
    exact reads_skipFraction ds exponent h
  | none =>
    obtain ⟨o, hpeek, ho, hdot⟩ := exponent_next exponent h
    refine hpeek.bind ?_
    rw [if_neg hdot]
    cases exponent with
    | none =>
      rw [if_neg (by rw [ho]; exact Bool.false_ne_true)]
      exact reads_pure () s
    | some e =>
      rw [if_pos (ho.2 rfl)]
      exact reads_skipExponent e h.endsDigits

/-- What is skipped after the whole part is a fraction, an exponent, both or
nothing. -/
theorem after_skipTail (s : List Char) :
    After (peek >>= fun b => if b = some (byte '.') then skipFraction
      else if b = some (byte 'e') ∨ b = some (byte 'E') then skipExponent else pure ()) s
      fun _ s' => ∃ fraction exponent, s = Numeral.tailText fraction exponent ++ s' := by
  refine after_peek_bind ?_
  split_ifs with hdot hletter
  · obtain ⟨s₁, rfl⟩ := cons_of_head? (c := '.') (by decide) hdot
    refine (after_skipFraction s₁).mono fun _ s' hs' => ?_
    obtain ⟨ds, exponent, hs'⟩ := hs'
    exact ⟨some ds, exponent, hs'⟩
  · obtain ⟨c, s₁, hc, rfl⟩ := exists_letter hletter
    refine (after_skipExponent hc s₁).mono fun _ s' hs' => ?_
    obtain ⟨e, hs'⟩ := hs'
    exact ⟨none, some e, hs'⟩
  · exact after_pure ⟨none, none, rfl⟩

/-- Nothing is ahead only at the end of a text. -/
theorem eq_nil_of_head? (h : (Utf8.encode s).head? = none) : s = [] := by
  cases s with
  | nil => rfl
  | cons c s =>
    have hpos := length_encode_cons_pos c s
    rw [List.head?_eq_none_iff.1 h] at hpos
    exact absurd hpos (Nat.lt_irrefl 0)

/-- **A number is skipped**, up to its end. Its sign has been taken off before,
as that was the character by which the reader knew that a number comes. -/
theorem reads_skipNumber (n : Numeral) (h : EndsNumber s) :
    Reads skipNumber (n.unsigned ++ s) () s := by
  obtain ⟨minus, ⟨list, hne⟩, hshortest, fraction, exponent⟩ := n
  obtain ⟨d, ds, rfl⟩ := List.exists_cons_of_ne_nil hne
  have hends := endsDigits_tail fraction exponent h
  rw [Numeral.unsigned, List.append_assoc]
  refine (reads_next (isAscii_digitChar d) (digitsText ds ++ _)).bind ?_
  dsimp only
  by_cases hzero : d = 0
  · subst hzero
    obtain rfl : ds = [] := (List.cons.inj (hshortest rfl)).2
    rw [if_pos (by decide)]
    refine (reads_peek (Numeral.tailText fraction exponent ++ s)).bind ?_
    cases hhead : (Utf8.encode (Numeral.tailText fraction exponent ++ s)).head? with
    | none =>
      have hnil := eq_nil_of_head? hhead
      rw [hnil, (List.append_eq_nil_iff.1 hnil).2]
      exact reads_pure () []
    | some b =>
      dsimp only
      rw [hends b hhead, if_neg Bool.false_ne_true]
      exact reads_skipTail fraction exponent h
  · rw [if_neg (byte_digitChar_ne_zero hzero), if_pos (isDigit_byte_digitChar d)]
    exact reads_left_digits hends (reads_skipTail fraction exponent h)

/-- **Only a number is skipped**, with whichever sign it had. -/
theorem after_skipNumber (minus : Bool) (s : List Char) :
    After skipNumber s fun _ s' => ∃ n : Numeral, n.minus = minus ∧ s = n.unsigned ++ s' := by
  have hnumeral : ∀ (w : Digits) (s₁ : List Char), (w.list.head? = some 0 → w.list = [0]) →
      s = digitsText w.list ++ s₁ → ∀ s',
      (∃ fraction exponent, s₁ = Numeral.tailText fraction exponent ++ s') →
      ∃ n : Numeral, n.minus = minus ∧ s = n.unsigned ++ s' := by
    rintro w s₁ hshortest hs s' ⟨fraction, exponent, hs'⟩
    refine ⟨⟨minus, w, hshortest, fraction, exponent⟩, rfl, ?_⟩
    rw [hs, hs', Numeral.unsigned, List.append_assoc]
  -- A first zero is all of the whole part, and any other digit begins as many as there are.
  refine after_next_bind (fun _ => ?_) (fun c s₁ hs hc => ?_) fun b hb => ?_
  · exact (Avoids.bind_left (avoids_refuse _)).after
  · dsimp only
    split_ifs with hzero hdigit
    · obtain rfl := (byte_inj hc (by decide)).1 hzero
      have hwhole := hnumeral ⟨[0], List.cons_ne_nil _ _⟩ s₁ (fun _ => rfl) hs
      refine after_peek_bind ?_
      cases hhead : (Utf8.encode s₁).head? with
      | none => exact after_pure (hwhole s₁ ⟨none, none, rfl⟩)
      | some b =>
        dsimp only
        split_ifs
        · exact (Avoids.bind_left (avoids_refuseNext _)).after
        · exact (after_skipTail s₁).mono fun _ s' => hwhole s'
    · obtain ⟨d, s₂, hs₂, hd⟩ := exists_digitChar (s := s) (b := byte c)
        (by rw [hs, encode_cons hc]; rfl) hdigit
      obtain rfl := (byte_inj hc (isAscii_digitChar d)).1 hd
      refine after_left_digits fun ds s₃ hs₃ => (after_skipTail s₃).mono fun _ s' => ?_
      refine hnumeral ⟨d :: ds, List.cons_ne_nil _ _⟩ s₃ (fun hd0 => ?_) (by rw [hs, hs₃]; rfl) s'
      obtain rfl : d = 0 := Option.some.inj hd0
      exact absurd rfl hzero
    · exact (Avoids.bind_left (avoids_refuse _)).after
  · dsimp only
    rw [if_neg (ne_byte_of_le hb (by decide)), isDigit_of_le hb, if_neg Bool.false_ne_true]
    exact Avoids.bind_left (avoids_refuse _)

/-! ## Numbers that are read

The reader of numbers goes the same way and adds up the digits. Of its three
kinds of results one is a natural number, and to come to that a number has no
sign, no fraction, no exponent and few enough digits. The others are ruled out
by what they have left ahead. -/

theorem le_foldl_digits (n : Nat) (ds : List Nat) :
    n ≤ ds.foldl (fun m d => m * 10 + d) n := by
  induction ds generalizing n with
  | nil => exact Nat.le_refl n
  | cons d ds ih =>
    refine Nat.le_trans ?_ (ih (n * 10 + d))
    omega

/-- Digits that are all used denote what they come to. Digits are used from the
left, as long as the number fits its 64 bits. -/
theorem foldDigits_of_used (n : Nat) (ds : List Nat) :
    (foldDigits n ds).2 ≤ ds.length ∧
      ((foldDigits n ds).2 = ds.length →
        (foldDigits n ds).1 = ds.foldl (fun m d => m * 10 + d) n) := by
  induction ds generalizing n with
  | nil => exact ⟨Nat.le_refl 0, fun _ => rfl⟩
  | cons d ds ih =>
    obtain ⟨hle, huse⟩ := ih (n * 10 + d)
    rw [foldDigits]
    split_ifs
    · exact ⟨Nat.succ_le_succ hle, fun h => huse (Nat.succ.inj h)⟩
    · exact ⟨Nat.zero_le _, False.elim⟩

/-- Digits of a number that fits are all used. -/
theorem foldDigits_of_lt {n : Nat} {ds : List Nat}
    (h : ds.foldl (fun m d => m * 10 + d) n < Nat.pow 2 64) :
    foldDigits n ds = (ds.foldl (fun m d => m * 10 + d) n, ds.length) := by
  induction ds generalizing n with
  | nil => rfl
  | cons d ds ih =>
    rw [List.foldl_cons] at h
    rw [foldDigits, if_pos ((le_foldl_digits _ ds).trans_lt h), ih h]
    rfl

/-- Whether a number is natural, as settings have to be. -/
def Number.IsNatural : Number → Prop
  | .natural _ => True
  | _ => False

/-- What is put together from a significand and an exponent is a number of the
binary format, or too large for one. -/
theorem avoids_decimal (minus : Bool) (significand : Nat) (e : Int) :
    Avoids (decimal minus significand e) Number.IsNatural := by
  rw [decimal]
  cases Double.ofDecimal? significand e with
  | some x => exact avoids_pure id
  | none => exact avoids_refuse _

theorem avoids_exponent (minus : Bool) (significand : Nat) (start : Int) :
    Avoids (exponent minus significand start) Number.IsNatural := by
  refine Avoids.bind fun _ => avoids_sign fun sign => Avoids.bind fun o => ?_
  cases o with
  | none => exact avoids_refuse _
  | some b =>
    dsimp only
    split
    · refine Avoids.bind fun _ => Avoids.bind fun e => ?_
      cases e with
      | none => exact avoids_pure id
      | some e => exact avoids_decimal minus significand _
    · exact avoids_refuse _

/-- A number with a fraction is not natural, whatever its digits. -/
theorem avoids_fraction (minus : Bool) (significand : Nat) (start : Int) :
    Avoids (fraction minus significand start) Number.IsNatural := by
  rw [fraction]
  refine Avoids.bind fun _ => Avoids.bind fun _ => Avoids.bind fun ds => ?_
  split_ifs
  · refine Avoids.bind fun o => ?_
    cases o with
    | none => exact avoids_refuseNext _
    | some b => exact avoids_refuseNext _
  · refine Avoids.bind fun o => ?_
    cases o with
    | none => exact avoids_decimal minus _ _
    | some b =>
      dsimp only
      split_ifs
      · exact avoids_exponent minus _ _
      · exact avoids_decimal minus _ _

/-- **When a number is natural**: it has no sign, all its digits are used, and
neither a fraction nor an exponent follows. So a zero with a sign is not
natural, either, though its value is one. -/
theorem number_eq_natural_iff {minus : Bool} {c c' : Cursor} {k : Nat} :
    number minus c = .ok (.natural k) c' ↔
      minus = false ∧ ∃ ds, wholeDigits c = .ok ds c' ∧ foldDigits 0 ds = (k, ds.length) ∧
        ∀ b ∈ c'.rest.head?, b ≠ byte '.' ∧ b ≠ byte 'e' ∧ b ≠ byte 'E' := by
  rw [number, bind_eq_ok_iff]
  constructor
  · rintro ⟨ds, c₁, hwhole, hrest⟩
    obtain ⟨b, c₂, hpeek, hrest⟩ := bind_eq_ok_iff.1 hrest
    obtain ⟨rfl, rfl⟩ : c₁.rest.head? = b ∧ c₁ = c₂ := by
      injection hpeek with hb hc
      exact ⟨hb, hc⟩
    -- In the order of the reader: a fraction, an exponent, digits that are left over, no
    -- sign, and the two ways to go on with one.
    split_ifs at hrest with hdot hletter hbeyond hsign hneg
    · exact (avoids_fraction _ _ _ _ _ _ hrest trivial).elim
    · exact (avoids_exponent _ _ _ _ _ _ hrest trivial).elim
    · exact (avoids_decimal _ _ _ _ _ _ hrest trivial).elim
    · obtain ⟨rfl, rfl⟩ : (foldDigits 0 ds).1 = k ∧ c₁ = c' := by
        injection hrest with hk hc
        exact ⟨Number.natural.inj hk, hc⟩
      have hused : (foldDigits 0 ds).2 = ds.length := by omega
      refine ⟨by simpa using hsign, ds, hwhole, Prod.ext rfl hused, fun b hb => ?_⟩
      rw [hb, Option.some.injEq] at hdot
      rw [hb, Option.some.injEq, Option.some.injEq, not_or] at hletter
      exact ⟨hdot, hletter⟩
    · cases hrest
    · exact (avoids_decimal _ _ _ _ _ _ hrest trivial).elim
  · rintro ⟨rfl, ds, hwhole, hfold, hnext⟩
    refine ⟨ds, c', hwhole, ?_⟩
    have hno : ∀ b, (b = byte '.' ∨ b = byte 'e' ∨ b = byte 'E') → c'.rest.head? ≠ some b := by
      rintro b (rfl | rfl | rfl) hb
      · exact (hnext _ hb).1 rfl
      · exact (hnext _ hb).2.1 rfl
      · exact (hnext _ hb).2.2 rfl
    rw [hfold]
    dsimp only
    rw [peek_bind, if_neg (hno _ (Or.inl rfl)),
      if_neg (not_or.2 ⟨hno _ (Or.inr (Or.inl rfl)), hno _ (Or.inr (Or.inr rfl))⟩),
      if_neg (by omega)]
    rfl

theorem foldl_map_val (ds : List (Fin 10)) :
    (ds.map Fin.val).foldl (fun m d => m * 10 + d) 0 = Numeral.valueOf ds := by
  rw [Numeral.valueOf, List.foldl_map]

/-- **A whole number is read** as what its digits denote, if it fits. -/
theorem reads_number {n : Numeral} (hwhole : n.isWhole = true)
    (hfit : Numeral.valueOf n.whole.list < Nat.pow 2 64) (h : EndsNumber s) :
    Reads (number false) (n.unsigned ++ s) (.natural (Numeral.valueOf n.whole.list)) s := by
  obtain ⟨hfraction, hexponent⟩ := Bool.and_eq_true_iff.1 hwhole
  intro p
  obtain ⟨p', hp'⟩ := reads_wholeDigits n.shortest h.endsDigits p
  have htext : n.unsigned ++ s = digitsText n.whole.list ++ s := by
    rw [Numeral.unsigned, Option.isNone_iff_eq_none.1 hfraction,
      Option.isNone_iff_eq_none.1 hexponent, Numeral.tailText, Option.elim_none,
      Option.elim_none, List.append_nil, List.append_nil]
  refine ⟨p', ?_⟩
  rw [htext]
  refine number_eq_natural_iff.2 ⟨rfl, _, hp', ?_, fun b hb => (h b hb).2⟩
  rw [← foldl_map_val] at hfit ⊢
  exact foldDigits_of_lt hfit

/-- **Only a whole number without a sign is natural**, and it is the one that
was written. The fraction and the exponent are ruled out by what the reader has
left ahead. -/
theorem natural_of_number {n : Numeral} (h : EndsNumber s) {minus : Bool} {p : Place} {k : Nat}
    {c : Cursor} (hread : number minus (.facing (n.unsigned ++ s) p) = .ok (.natural k) c) :
    minus = false ∧ n.isWhole = true ∧ k = Numeral.valueOf n.whole.list := by
  obtain ⟨hminus, ds, hds, hfold, hnext⟩ := number_eq_natural_iff.1 hread
  have hends := endsDigits_tail n.fraction n.exponent h
  rw [Numeral.unsigned, List.append_assoc] at hds
  obtain ⟨s', p', rfl, rfl, rfl⟩ := (reads_wholeDigits n.shortest hends).after p ds c hds
  -- a fraction or an exponent would come next
  have hfraction : n.fraction = none := by
    cases hfraction : n.fraction with
    | none => rfl
    | some ds =>
      rw [hfraction] at hnext
      exact absurd rfl (hnext (byte '.') rfl).1
  have hexponent : n.exponent = none := by
    cases hexponent : n.exponent with
    | none => rfl
    | some e =>
      obtain ⟨letter, rest, hletter, htext⟩ := exists_text_exponent e
      rw [hfraction, hexponent, Numeral.tailText, Option.elim_none, Option.elim_some, htext]
        at hnext
      have hhead : (Cursor.facing (letter :: (rest ++ s)) p').rest.head? = some (byte letter) := by
        rw [Cursor.facing, encode_cons (isAscii_letter hletter)]
        rfl
      obtain ⟨-, he, hE⟩ := hnext _ hhead
      rcases hletter with rfl | rfl
      · exact absurd rfl he
      · exact absurd rfl hE
  refine ⟨hminus, ?_, ?_⟩
  · rw [Numeral.isWhole, hfraction, hexponent]
    rfl
  · have hk := (foldDigits_of_used 0 (n.whole.list.map Fin.val)).2 (congrArg Prod.snd hfold)
    rw [hfold, foldl_map_val] at hk
    exact hk

/-- What is natural is written as a number. The reader that skips numbers goes
the same way, so its lemma tells what was taken off. -/
theorem after_number {minus : Bool} {p : Place} {k : Nat} {c : Cursor}
    (hread : number minus (.facing s p) = .ok (.natural k) c) :
    ∃ n : Numeral, n.minus = minus ∧ ∃ s' p', s = n.unsigned ++ s' ∧ c = .facing s' p' := by
  obtain ⟨-, ds, hds, -, -⟩ := number_eq_natural_iff.1 hread
  obtain ⟨s', p', rfl, w, hw, rfl, -⟩ := after_wholeDigits s p ds c hds
  refine ⟨⟨minus, w, hw, none, none⟩, rfl, s', p', ?_, rfl⟩
  rw [Numeral.unsigned, Numeral.tailText, Option.elim_none, Option.elim_none, List.append_nil,
    List.append_nil]

end Reader

end CertAuthority.Json
