import CertAuthority.Proofs.Json.Steps

/-!
# Reading strings

Two readers go over strings. One gathers the characters that a string denotes;
it reads the strings of the grammar that denote some and refuses those that do
not (`reads_string`, `refuses_string`). The other only looks for the end, and
any string of the grammar will do (`reads_skipString`), because what an
unknown entry of a file says is nobody's business. Neither takes anything else
(`after_string`, `after_skipString`). The difference matters: a lone half of a
pair of surrogates is a string of the grammar that denotes nothing, so that it
may stand in an entry that is skipped and not in one that is read.

Both readers go byte by byte and count their steps by bytes, while the grammar
goes by pieces: a character that stands for itself, an escape of one letter, a
number of four digits. A character beyond the basic alphabet is several bytes,
none of which is a quotation mark or a backslash, and both pass over it
without noticing where it begins and ends. `PassesRaw` says so of a loop, and
makes of it a step over the whole character.

The converse is by induction on the steps that are left: a step is taken at
the closing mark, at a backslash or at a character, and what it leaves is
shorter. Pieces are told apart by their first characters alone, apart from the
two numbers of a pair, where the second has to be looked for
(`exists_code_of_inner`).
-/

namespace CertAuthority.Json

open Text

/-! ## Escapes

The table of escapes is one of bytes in the reader and one of characters in
the grammar. That they are the same table is known because all its letters are
of the basic alphabet. -/

/-- Every character with a hexadecimal value is of the basic alphabet, so that a
digit is one byte of the text and a byte that looks like a digit is a digit. -/
theorem isAscii_of_hexValue? {c : Char} {v : Nat} (h : Bytes.hexValue? c = some v) :
    c.toNat < 128 := by
  have hle : ∀ d : Char, c ≤ d → c.toNat ≤ d.toNat := fun d hd => hd
  unfold Bytes.hexValue? at h
  split_ifs at h with h₁ h₂ h₃
  · exact (hle _ h₁.2).trans_lt (by decide)
  · exact (hle _ h₂.2).trans_lt (by decide)
  · exact (hle _ h₃.2).trans_lt (by decide)

/-- The digits of the grammar in particular: four of them are four bytes. -/
theorem HexDigit.isAscii (d : HexDigit) : d.char.toNat < 128 := isAscii_of_hexValue? d.isHex

/-- The byte of a hexadecimal digit has the value of the digit, which is how the
reader, that sees bytes only, computes the number the grammar speaks of. -/
theorem HexDigit.hexValue?_byte (d : HexDigit) :
    Bytes.hexValue? (Char.ofNat (byte d.char).toNat) = some d.value := by
  rw [toNat_byte d.isAscii, Char.ofNat_toNat]
  exact d.isHex

/-- A byte that counts as a hexadecimal digit is one: it is not the inner byte
of a longer character, and the characters ahead begin with that digit. -/
theorem exists_hexDigit {s : List Char} {x : UInt8} {rest : Bytes} {v : Nat}
    (hs : Utf8.encode s = x :: rest) (hx : Bytes.hexValue? (Char.ofNat x.toNat) = some v) :
    ∃ (d : HexDigit) (s' : List Char), s = d.char :: s' ∧ rest = Utf8.encode s' ∧ d.value = v := by
  have hlow : x.toNat < 128 := by
    have hchar := isAscii_of_hexValue? hx
    have hvalid : x.toNat.isValidChar := Or.inl ((UInt8.toNat_lt x).trans (by decide))
    rw [Char.ofNat, dif_pos hvalid] at hchar
    exact hchar
  obtain ⟨c, s', rfl, hc, rfl⟩ := exists_cons_of_head? (s := s) (b := x) (by rw [hs]; rfl) hlow
  rw [encode_cons hc] at hs
  rw [toNat_byte hc, Char.ofNat_toNat] at hx
  exact ⟨⟨c, v, hx⟩, s', rfl, (List.cons.inj hs).2.symm, rfl⟩

/-- What a letter stands for after a backslash is of the basic alphabet, and so
is the letter. Thus an escape of one letter is two bytes that denote one. -/
theorem isAscii_of_shortEscape? {letter c : Char} (h : shortEscape? letter = some c) :
    letter.toNat < 128 ∧ c.toNat < 128 := by
  unfold shortEscape? at h
  split_ifs at h with h₁ h₂ h₃ h₄ h₅ h₆
  · obtain rfl := Option.some.inj h
    rcases h₁ with rfl | rfl | rfl <;> decide
  all_goals
    obtain rfl := Option.some.inj h
    subst_vars
    decide

/-- The reader's table of escapes, which is one of bytes, is the grammar's,
which is one of characters. -/
theorem simpleEscape?_byte {letter : Char} (h : letter.toNat < 128) :
    Reader.simpleEscape? (byte letter) = (shortEscape? letter).map byte := by
  have hall : ∀ n < 128, Reader.simpleEscape? (byte (Char.ofNat n))
      = (shortEscape? (Char.ofNat n)).map byte := by decide +kernel
  have hletter := hall letter.toNat h
  rwa [Char.ofNat_toNat] at hletter

/-- The bytes of longer characters are no letters of escapes. -/
theorem simpleEscape?_of_le {b : UInt8} (h : 128 ≤ b.toNat) : Reader.simpleEscape? b = none := by
  have hne : ∀ c : Char, c.toNat < 128 → b ≠ byte c := fun c hc => ne_byte_of_le h hc
  unfold Reader.simpleEscape?
  rw [if_neg, if_neg (hne 'b' (by decide)), if_neg (hne 'f' (by decide)),
    if_neg (hne 'n' (by decide)), if_neg (hne 'r' (by decide)), if_neg (hne 't' (by decide))]
  rintro (h | h | h)
  · exact hne '"' (by decide) h
  · exact hne '\\' (by decide) h
  · exact hne '/' (by decide) h

namespace Reader

/-! ## Four digits -/

section HexEscape

variable (a b c d : HexDigit) (s : List Char)

/-- **Four digits are read as the number they write**, in either case of
letters. -/
theorem reads_hexEscape :
    Reads hexEscape (a.char :: b.char :: c.char :: d.char :: s) (codeOf a b c d) s := by
  intro p
  have hencode : Utf8.encode (a.char :: b.char :: c.char :: d.char :: s)
      = byte a.char :: byte b.char :: byte c.char :: byte d.char :: Utf8.encode s := by
    rw [encode_cons a.isAscii, encode_cons b.isAscii, encode_cons c.isAscii, encode_cons d.isAscii]
  refine ⟨(((p.after (byte a.char)).after (byte b.char)).after (byte c.char)).after
    (byte d.char), ?_⟩
  rw [Cursor.facing, hencode]
  unfold hexEscape
  rw [get_bind]
  have hlong : ¬ (byte a.char :: byte b.char :: byte c.char :: byte d.char
      :: Utf8.encode s).length < 4 := by
    simp only [List.length_cons]
    omega
  rw [if_neg hlong, set_bind]
  simp only [List.take_succ_cons, List.take_zero, List.map_cons, List.map_nil,
    HexDigit.hexValue?_byte]
  rfl

/-- Four bytes or more are four bytes and others. The reader asks for the length
once and takes the four of them apart afterwards. -/
theorem exists_four_of_length {w : Bytes} (h : 4 ≤ w.length) :
    ∃ x₁ x₂ x₃ x₄ rest, w = x₁ :: x₂ :: x₃ :: x₄ :: rest := by
  match w, h with
  | x₁ :: x₂ :: x₃ :: x₄ :: rest, _ => exact ⟨x₁, x₂, x₃, x₄, rest, rfl⟩

/-- **What is read as the number of a character are four digits.** -/
theorem after_hexEscape :
    After hexEscape s fun n s' => ∃ a b c d : HexDigit,
      s = a.char :: b.char :: c.char :: d.char :: s' ∧ n = codeOf a b c d := by
  intro p n c' hread
  unfold hexEscape at hread
  rw [get_bind] at hread
  split_ifs at hread with hshort
  · cases hread
  rw [set_bind] at hread
  -- there are four bytes, and each is a digit
  obtain ⟨x₁, x₂, x₃, x₄, rest, hs⟩ := exists_four_of_length (Nat.not_lt.1 hshort)
  have hs : Utf8.encode s = x₁ :: x₂ :: x₃ :: x₄ :: rest := hs
  simp only [Cursor.facing, hs, List.take_succ_cons, List.take_zero, List.map_cons,
    List.map_nil] at hread
  rcases h₁ : Bytes.hexValue? (Char.ofNat x₁.toNat) with _ | v₁
  · rw [h₁] at hread
    cases hread
  rcases h₂ : Bytes.hexValue? (Char.ofNat x₂.toNat) with _ | v₂
  · rw [h₁, h₂] at hread
    cases hread
  rcases h₃ : Bytes.hexValue? (Char.ofNat x₃.toNat) with _ | v₃
  · rw [h₁, h₂, h₃] at hread
    cases hread
  rcases h₄ : Bytes.hexValue? (Char.ofNat x₄.toNat) with _ | v₄
  · rw [h₁, h₂, h₃, h₄] at hread
    cases hread
  rw [h₁, h₂, h₃, h₄] at hread
  obtain ⟨a, s₁, rfl, hs₁, ha⟩ := exists_hexDigit hs h₁
  obtain ⟨b, s₂, rfl, hs₂, hb⟩ := exists_hexDigit hs₁.symm h₂
  obtain ⟨c, s₃, rfl, hs₃, hc⟩ := exists_hexDigit hs₂.symm h₃
  obtain ⟨d, s₄, rfl, hs₄, hd⟩ := exists_hexDigit hs₃.symm h₄
  injection hread with hn hend
  refine ⟨s₄, c'.place, ?_, a, b, c, d, rfl, ?_⟩
  · rw [← hend, Cursor.facing, ← hs₄]
    rfl
  · rw [← hn, codeOf, ha, hb, hc, hd]

end HexEscape

/-! ## After a backslash

An escape by number is four digits, or twice four digits if the first ones are
half of a pair. Whether there is a second half has to be found out by reading
on, and this is the one place where two pieces of a string are read together.
-/

/-- The backslash and the letter between the two halves of a pair are read off
one by one, each of them where it is expected. -/
theorem reads_pairByte {c : Char} (h : c.toNat < 128) (s : List Char) :
    Reads (pairByte c) (c :: s) () s := by
  refine (reads_peek_cons h s).bind ((reads_skip h s).bind ?_)
  rw [if_pos rfl]
  exact reads_pure () s

theorem after_pairByte {c : Char} (h : c.toNat < 128) (s : List Char) :
    After (pairByte c) s fun _ s' => s = c :: s' := by
  refine after_peek_bind ?_
  cases hhead : (Utf8.encode s).head? with
  | none => exact after_refuse _
  | some b =>
    by_cases hb : b = byte c
    · subst hb
      obtain ⟨s', rfl⟩ := cons_of_head? h hhead
      refine (reads_skip h s').after_bind ?_
      rw [if_pos rfl]
      exact after_pure rfl
    · intro p a c' hread
      obtain ⟨_, _, -, hrest⟩ := bind_eq_ok_iff.1 hread
      rw [if_neg hb] at hrest
      cases hrest

/-- A number is no half of a pair if it is not that of a second half, which the
reader asks first, nor that of a first one, which it asks next. -/
theorem isSurrogate_eq_false_iff {n : Nat} :
    isSurrogate n = false ↔ ¬ (0xdc00 ≤ n ∧ n ≤ 0xdfff) ∧ (n < 0xd800 ∨ 0xdbff < n) := by
  simp only [isSurrogate, Bool.and_eq_false_iff, decide_eq_false_iff_not]
  omega

section Code

variable {a b c d : HexDigit} {s : List Char}

/-- **The number of a character is read as that character**, if it is no half of
a pair. -/
theorem reads_unicodeEscape (h : isSurrogate (codeOf a b c d) = false) :
    Reads unicodeEscape (a.char :: b.char :: c.char :: d.char :: s)
      (Utf8.encode [Char.ofNat (codeOf a b c d)]) s := by
  obtain ⟨hlow, hhigh⟩ := isSurrogate_eq_false_iff.1 h
  refine (reads_hexEscape a b c d s).bind ?_
  rw [if_neg hlow, if_pos hhigh]
  exact reads_pure _ s

/-- After the first half of a pair the second one is asked for, and any other
number is refused. A first half that is followed by another first half is
refused with it. -/
theorem unicodeEscape_low {low : Nat} (h : low < 0xdc00 ∨ 0xdfff < low)
    {Q : Bytes → List Char → Prop} (high : Nat) :
    After (if low < 0xdc00 ∨ 0xdfff < low then refuse .loneSurrogate
      else return (Utf8.encode
        [Char.ofNat (0x10000 + (high - 0xd800) * 0x400 + (low - 0xdc00))]) : Reader Bytes) s Q := by
  rw [if_pos h]
  exact after_refuse _

variable {a' b' c' d' : HexDigit} {char : Char}

/-- **The two halves of a pair are read as one character**, the one beyond the
first plane that they number together. -/
theorem reads_unicodeEscape_pair (h : isSurrogate (codeOf a b c d) = true)
    (hpair : pairChar? (codeOf a b c d) (codeOf a' b' c' d') = some char) :
    Reads unicodeEscape (a.char :: b.char :: c.char :: d.char
        :: '\\' :: 'u' :: a'.char :: b'.char :: c'.char :: d'.char :: s)
      (Utf8.encode [char]) s := by
  unfold pairChar? at hpair
  split_ifs at hpair with hhalves
  have hlow : 0xd800 ≤ codeOf a b c d := by
    simp only [isSurrogate, Bool.and_eq_true, decide_eq_true_eq] at h
    exact h.1
  refine (reads_hexEscape a b c d _).bind ?_
  rw [if_neg (by omega), if_neg (by omega)]
  refine (reads_pairByte (by decide) _).bind ((reads_pairByte (by decide) _).bind
    ((reads_hexEscape a' b' c' d' s).bind ?_))
  rw [if_neg (by omega), Option.some.inj hpair]
  exact reads_pure _ s

/-- **Half a pair is refused** if the other half does not follow, be it that
there is no other number at all, or that it is not the half which was missing.
-/
theorem refuses_unicodeEscape (h : isSurrogate (codeOf a b c d) = true)
    (hpair : ∀ (a' b' c' d' : HexDigit) s', s = '\\' :: 'u' :: a'.char :: b'.char :: c'.char
      :: d'.char :: s' → pairChar? (codeOf a b c d) (codeOf a' b' c' d') = none) :
    After unicodeEscape (a.char :: b.char :: c.char :: d.char :: s) fun _ _ => False := by
  refine (reads_hexEscape a b c d s).after_bind ?_
  split_ifs with hlow hhigh
  · exact after_refuse _
  · simp only [isSurrogate, Bool.and_eq_true, decide_eq_true_eq] at h
    omega
  · refine (after_pairByte (by decide) s).bind fun _ s₁ hs₁ => ?_
    refine (after_pairByte (by decide) s₁).bind fun _ s₂ hs₂ => ?_
    refine (after_hexEscape s₂).bind fun low s₃ hs₃ => ?_
    obtain ⟨a', b', c', d', hs₃, rfl⟩ := hs₃
    have hnone := hpair a' b' c' d' s₃ (by rw [hs₁, hs₂, hs₃])
    unfold pairChar? at hnone
    refine unicodeEscape_low ?_ _
    split_ifs at hnone with hhalves
    omega

end Code

/-- **What is read after a backslash** are pieces of a string: one escape, or
the two numbers of a pair. -/
theorem after_escape (s : List Char) :
    After escape s fun _ s' => ∃ l : Literal, '\\' :: s = l.inner ++ s' := by
  refine after_next_bind (fun _ => after_refuse _) (fun letter s' hs hletter => ?_)
    fun b hb => ?_
  · dsimp only
    rw [simpleEscape?_byte hletter]
    cases hshort : shortEscape? letter with
    | some c =>
      refine after_pure ⟨[.short letter c hshort], ?_⟩
      rw [hs]
      rfl
    | none =>
      show After (if byte letter = byte 'u' then unicodeEscape else refuse .invalidEscape) s' _
      split_ifs with hu
      · obtain rfl := (byte_inj hletter (by decide)).1 hu
        refine (after_hexEscape s').bind fun n s₁ hs₁ => ?_
        obtain ⟨a, b, c, d, hs₁, rfl⟩ := hs₁
        -- The number is half a pair that comes second, half a pair that comes first, or a
        -- character; only behind a first half is a second number read.
        split_ifs with hlow hhigh
        · exact after_refuse _
        · refine after_pure ⟨[.code a b c d], ?_⟩
          rw [hs, hs₁]
          rfl
        · refine (after_pairByte (by decide) s₁).bind fun _ s₂ hs₂ => ?_
          refine (after_pairByte (by decide) s₂).bind fun _ s₃ hs₃ => ?_
          refine (after_hexEscape s₃).bind fun low s₄ hs₄ => ?_
          obtain ⟨a', b', c', d', hs₄, rfl⟩ := hs₄
          split_ifs with hhalf
          · exact after_refuse _
          · refine after_pure ⟨[.code a b c d, .code a' b' c' d'], ?_⟩
            rw [hs, hs₁, hs₂, hs₃, hs₄]
            rfl
      · exact after_refuse _
  · dsimp only
    rw [simpleEscape?_of_le hb]
    dsimp only
    rw [if_neg (ne_byte_of_le hb (by decide))]
    exact avoids_refuse _

/-! ## Bytes that stand for themselves

A plain character is passed over byte by byte, in one step for each. The two
loops over strings do the same with such bytes, except that one gathers them
and the other does not. So they are treated as one here. -/

/-- A byte that a reader of strings passes over: no control character, no
quotation mark and no backslash. The bytes of a character beyond the basic
alphabet are all of this kind. -/
def IsRaw (b : UInt8) : Prop := 32 ≤ b.toNat ∧ b ≠ byte '"' ∧ b ≠ byte '\\'

/-- **A loop that passes over raw bytes**, one a step, and does something with
each. -/
structure PassesRaw {α : Type} (loop : Nat → Reader α) (use : UInt8 → α → α) : Prop where
  /-- A step over a raw byte. -/
  step : ∀ {b}, IsRaw b → ∀ fuel rest p,
    loop (fuel + 1) ⟨b :: rest, p⟩ = (loop fuel >>= fun a => pure (use b a)) ⟨rest, p.after b⟩
  /-- The end of the steps is a refusal. -/
  stop : ∀ c a c', loop 0 c ≠ .ok a c'

/-- All the bytes of a plain character are raw, whether there is one of them or
four. -/
theorem isRaw_of_mem {c : Char} (h : isPlainChar c = true) {b : UInt8}
    (hb : b ∈ String.utf8EncodeChar c) : IsRaw b := by
  simp only [isPlainChar, Bool.and_eq_true, decide_eq_true_eq, bne_iff_ne] at h
  obtain ⟨⟨hcontrol, hquote⟩, hbackslash⟩ := h
  by_cases hc : c.toNat < 128
  · rw [Utf8.utf8EncodeChar_eq_singleton hc] at hb
    obtain rfl : b = byte c := List.mem_singleton.1 hb
    refine ⟨by rwa [toNat_byte hc], ?_, ?_⟩
    · exact fun heq => hquote ((byte_inj hc (by decide)).1 heq)
    · exact fun heq => hbackslash ((byte_inj hc (by decide)).1 heq)
  · have hlarge := le_of_mem_utf8EncodeChar (Nat.not_lt.1 hc) hb
    refine ⟨(by decide : 32 ≤ 128).trans hlarge, ?_, ?_⟩ <;>
    · rintro rfl
      exact absurd hlarge (by decide)

namespace PassesRaw

variable {α : Type} {loop : Nat → Reader α} {use : UInt8 → α → α}

/-- A loop passes over raw bytes as over one of them, with as many steps as
there are bytes, and keeps account of its place in the meantime. -/
theorem append (h : PassesRaw loop use) {w : Bytes} (hw : ∀ b ∈ w, IsRaw b) (fuel : Nat)
    (rest : Bytes) (p : Place) :
    loop (w.length + fuel) ⟨w ++ rest, p⟩
      = (loop fuel >>= fun a => pure (w.foldr use a)) ⟨rest, w.foldl Place.after p⟩ := by
  induction w generalizing p with
  | nil =>
    rw [List.length_nil, Nat.zero_add]
    exact (congrFun (bind_pure (loop fuel)) _).symm
  | cons b w ih =>
    rw [List.length_cons, Nat.succ_add, List.cons_append, h.step (hw b List.mem_cons_self),
      bind_congr_at (ih (fun b' hb' => hw b' (List.mem_cons_of_mem b hb')) _), bind_assoc]
    rfl

/-- Too few steps are not enough: a loop that runs out of them among raw bytes
has refused, so that a result is never one of a string cut short. -/
theorem ne_ok (h : PassesRaw loop use) {w : Bytes} (hw : ∀ b ∈ w, IsRaw b) {fuel : Nat}
    (hfuel : fuel ≤ w.length) (rest : Bytes) (p : Place) (a : α) (c : Cursor) :
    loop fuel ⟨w ++ rest, p⟩ ≠ .ok a c := by
  induction w generalizing fuel p a c with
  | nil =>
    obtain rfl := Nat.le_zero.1 hfuel
    exact h.stop _ a c
  | cons b w ih =>
    cases fuel with
    | zero => exact h.stop _ a c
    | succ fuel =>
      rw [List.cons_append, h.step (hw b List.mem_cons_self)]
      intro hread
      obtain ⟨a', c', hread, -⟩ := bind_eq_ok_iff.1 hread
      exact ih (fun b' hb' => hw b' (List.mem_cons_of_mem b hb'))
        (Nat.succ_le_succ_iff.1 hfuel) _ _ _ hread

variable {c : Char} {s s' : List Char} {a : α}

/-- **A step over a character**: a loop that reads what follows a plain
character reads it with the character in front. -/
theorem reads_cons (h : PassesRaw loop use) (hc : isPlainChar c = true) {fuel : Nat}
    (hread : Reads (loop fuel) s a s') :
    Reads (loop ((String.utf8EncodeChar c).length + fuel)) (c :: s)
      ((String.utf8EncodeChar c).foldr use a) s' := by
  intro p
  obtain ⟨p', hp'⟩ := hread ((String.utf8EncodeChar c).foldl Place.after p)
  refine ⟨p', ?_⟩
  show loop _ ⟨String.utf8EncodeChar c ++ Utf8.encode s, p⟩ = _
  rw [h.append fun b hb => isRaw_of_mem hc hb]
  exact bind_of_ok hp'

/-- What a loop has read behind a plain character it has read with fewer steps,
to which an induction on the steps applies. -/
theorem after_cons (h : PassesRaw loop use) (hc : isPlainChar c = true) {fuel : Nat}
    {R : List Char → Prop}
    (hread : ∀ fuel' < fuel, After (loop fuel') s fun _ s' => R s') :
    After (loop fuel) (c :: s) fun _ s' => R s' := by
  intro p a c' hok
  have hraw : ∀ b ∈ String.utf8EncodeChar c, IsRaw b := fun b hb => isRaw_of_mem hc hb
  have hok : loop fuel ⟨String.utf8EncodeChar c ++ Utf8.encode s, p⟩ = .ok a c' := hok
  rcases Nat.le_or_le fuel (String.utf8EncodeChar c).length with hle | hle
  · exact absurd hok (h.ne_ok hraw hle _ _ _ _)
  · obtain ⟨fuel', rfl⟩ := Nat.exists_eq_add_of_le hle
    rw [h.append hraw] at hok
    obtain ⟨a', c'', hrest, hpure⟩ := bind_eq_ok_iff.1 hok
    cases hpure
    have hpos := List.length_pos_of_ne_nil (utf8EncodeChar_ne_nil c)
    exact hread fuel' (by omega) _ _ _ hrest

end PassesRaw

/-- The reader that gathers the characters passes over raw bytes and keeps them.
-/
theorem passesRaw_stringBytes : PassesRaw stringBytes List.cons where
  step := by
    intro b hb fuel rest p
    obtain ⟨hcontrol, hquote, hbackslash⟩ := hb
    rw [stringBytes]
    rw [bind_of_ok (next_cons b rest p)]
    dsimp only
    rw [if_neg hquote, if_neg hbackslash, if_neg (Nat.not_lt.2 hcontrol)]
  stop := by
    intro c a c' h
    cases h

/-- The one that looks for the end passes over them and keeps nothing. -/
theorem passesRaw_skipString : PassesRaw skipString fun _ u => u where
  step := by
    intro b hb fuel rest p
    obtain ⟨hcontrol, hquote, hbackslash⟩ := hb
    rw [skipString]
    rw [bind_of_ok (peek_cons b rest p)]
    dsimp only
    rw [if_neg hquote, if_neg hbackslash, if_neg (Nat.not_lt.2 hcontrol),
      bind_of_ok (skip_cons b rest p)]
    exact (congrFun (bind_pure (skipString fuel)) _).symm
  stop := by
    intro c a c' h
    cases h

/-! ## The characters of a string

What a string denotes goes by characters and the loop by bytes, with a count
of its steps. The induction is on the pieces in one direction and on the steps
in the other. A string that denotes nothing is refused, at its lone half of a
pair. -/

/-- The bytes between the marks are those of the pieces, one after another. -/
theorem length_inner_cons (piece : Piece) (l : Literal) :
    (Utf8.encode (Literal.inner (piece :: l))).length
      = (Utf8.encode piece.text).length + (Utf8.encode l.inner).length := by
  rw [Literal.inner, List.flatMap_cons, Utf8.encode_append, List.length_append]
  rfl

/-- A text with a character in it has a byte. -/
theorem length_encode_cons_pos (c : Char) (s : List Char) :
    0 < (Utf8.encode (c :: s)).length := by
  show 0 < (String.utf8EncodeChar c ++ Utf8.encode s).length
  rw [List.length_append]
  exact Nat.add_pos_left (List.length_pos_of_ne_nil (utf8EncodeChar_ne_nil c)) _

section StringBytes

variable {s s' s'' : List Char} {w bytes : Bytes} {fuel : Nat}

theorem reads_stringBytes_close (s : List Char) :
    Reads (stringBytes (fuel + 1)) ('"' :: s) [] s := by
  rw [stringBytes]
  refine (reads_next (by decide) s).bind ?_
  dsimp only
  rw [if_pos rfl]
  exact reads_pure [] s

/-- At a backslash what the escape denotes comes first, and then what is
gathered of the rest. -/
theorem reads_stringBytes_escape (h : Reads escape s w s')
    (hrest : Reads (stringBytes fuel) s' bytes s'') :
    Reads (stringBytes (fuel + 1)) ('\\' :: s) (w ++ bytes) s'' := by
  rw [stringBytes]
  refine (reads_next (by decide) s).bind ?_
  dsimp only
  rw [if_neg (by decide), if_pos rfl]
  exact h.bind (hrest.bind (reads_pure _ s''))

/-- Whatever was gathered from a backslash on was gathered so. -/
theorem after_stringBytes_escape {Q R : Bytes → List Char → Prop} (h : After escape s Q)
    (hrest : ∀ w s', Q w s' → After (stringBytes fuel) s' fun bytes s'' => R (w ++ bytes) s'') :
    After (stringBytes (fuel + 1)) ('\\' :: s) R := by
  rw [stringBytes]
  refine (reads_next (by decide) s).after_bind ?_
  dsimp only
  rw [if_neg (by decide), if_pos rfl]
  exact h.bind fun w s' hw => (hrest w s' hw).bind fun bytes s'' hR => after_pure hR

/-- A letter that may follow a backslash is read as what it stands for. -/
theorem reads_escape_short {letter c : Char} (h : shortEscape? letter = some c) (s : List Char) :
    Reads escape (letter :: s) (Utf8.encode [c]) s := by
  obtain ⟨hletter, hc⟩ := isAscii_of_shortEscape? h
  refine (reads_next hletter s).bind ?_
  dsimp only
  rw [simpleEscape?_byte hletter, h, encode_cons hc]
  exact reads_pure _ s

/-- What follows `u` after a backslash is the number of a character, and the
table of letters has no say in it. -/
theorem escape_u (s : List Char) (p : Place) :
    ∃ p', escape (.facing ('u' :: s) p) = unicodeEscape (.facing s p') := by
  obtain ⟨p', hp'⟩ := reads_next (c := 'u') (by decide) s p
  exact ⟨p', (bind_of_ok hp').trans rfl⟩

/-- So an escape by number is read by reading its number. -/
theorem reads_escape_u (h : Reads unicodeEscape s w s') : Reads escape ('u' :: s) w s' := by
  intro p
  obtain ⟨p', hp'⟩ := escape_u s p
  rw [hp']
  exact h p'

/-- What is read of it is what is read of its number. -/
theorem after_escape_u {Q : Bytes → List Char → Prop} (h : After unicodeEscape s Q) :
    After escape ('u' :: s) Q := by
  intro p a c hread
  obtain ⟨p', hp'⟩ := escape_u s p
  rw [hp'] at hread
  exact h p' a c hread

/-- The bytes of a text of one character are those of the character. -/
theorem encode_singleton (c : Char) : Utf8.encode [c] = String.utf8EncodeChar c :=
  List.append_nil _

/-- The bytes of a text are those of its first character and those of the rest.
-/
theorem encode_cons_eq_append (c : Char) (s : List Char) :
    Utf8.encode (c :: s) = Utf8.encode [c] ++ Utf8.encode s :=
  Utf8.encode_append [c] s

/-- A step is taken at a backslash, and the steps left are enough for the rest:
an escape is longer than one byte, so that going by bytes there are always steps
to spare. -/
theorem fuel_of_escape {piece : Piece} {rest : Literal} (htext : piece.text = '\\' :: s')
    (hfuel : (Utf8.encode (Literal.inner (piece :: rest))).length < fuel) :
    ∃ fuel', fuel = fuel' + 1 ∧ (Utf8.encode rest.inner).length < fuel' := by
  have hpos := length_encode_cons_pos '\\' s'
  rw [length_inner_cons, htext] at hfuel
  exact ⟨fuel - 1, by omega, by omega⟩

/-- **The characters that a string denotes are read**, by induction on its
pieces. A pair of numbers is two pieces that denote one character, so that the
case of an escape by number has to look at the piece behind it. -/
theorem reads_stringBytes {l : Literal} {cs : List Char} (h : l.chars? = some cs) (s : List Char)
    (hfuel : (Utf8.encode l.inner).length < fuel) :
    Reads (stringBytes fuel) (l.inner ++ '"' :: s) (Utf8.encode cs) s := by
  -- The induction follows what the pieces denote. A pair is one case of it, with two
  -- pieces.
  fun_induction Literal.chars? l generalizing cs fuel with
  | case1 =>
    obtain rfl := Option.some.inj h
    obtain ⟨fuel, rfl⟩ := Nat.exists_eq_succ_of_ne_zero (Nat.ne_of_gt hfuel)
    exact reads_stringBytes_close s
  | case2 c hplain rest ih =>
    obtain ⟨cs, hcs, rfl⟩ := Option.map_eq_some_iff.1 h
    rw [length_inner_cons, Piece.text, encode_singleton] at hfuel
    obtain ⟨fuel, rfl⟩ := Nat.exists_eq_add_of_le
      (Nat.le_of_lt ((Nat.le_add_right _ _).trans_lt hfuel))
    have hread := passesRaw_stringBytes.reads_cons hplain
      (ih hcs (Nat.lt_of_add_lt_add_left hfuel))
    rw [List.foldr_cons_eq_append'] at hread
    exact hread
  | case3 letter c hshort rest ih =>
    obtain ⟨cs, hcs, rfl⟩ := Option.map_eq_some_iff.1 h
    obtain ⟨fuel, rfl, hless⟩ := fuel_of_escape rfl hfuel
    rw [encode_cons_eq_append]
    exact reads_stringBytes_escape (reads_escape_short hshort _) (ih hcs hless)
  | case4 a b c d hhalf a' b' c' d' rest ih =>
    obtain ⟨char, hpair, h⟩ := Option.bind_eq_some_iff.1 h
    obtain ⟨cs, hcs, rfl⟩ := Option.map_eq_some_iff.1 h
    obtain ⟨fuel, rfl, hless⟩ := fuel_of_escape rfl hfuel
    rw [encode_cons_eq_append]
    rw [length_inner_cons] at hless
    exact reads_stringBytes_escape (reads_escape_u (reads_unicodeEscape_pair hhalf hpair))
      (ih hcs ((Nat.le_add_left _ _).trans_lt hless))
  | case5 a b c d rest hhalf hno => cases h
  | case6 a b c d rest hno ih =>
    obtain ⟨cs, hcs, rfl⟩ := Option.map_eq_some_iff.1 h
    obtain ⟨fuel, rfl, hless⟩ := fuel_of_escape rfl hfuel
    rw [encode_cons_eq_append]
    exact reads_stringBytes_escape
      (reads_escape_u (reads_unicodeEscape (Bool.eq_false_iff.2 hno))) (ih hcs hless)

/-- A digit is known by its character, and its value follows. -/
theorem HexDigit.ext_char {d e : HexDigit} (h : d.char = e.char) : d = e := by
  obtain ⟨c, v, hv⟩ := d
  obtain ⟨c', v', hv'⟩ := e
  obtain rfl : c = c' := h
  obtain rfl : v = v' := Option.some.inj (hv.symm.trans hv')
  rfl

/-- The number of a character after other pieces begins the next piece: no other
piece starts with a backslash and a `u`. -/
theorem exists_code_of_inner {l : Literal} {a b c d : HexDigit}
    (h : l.inner ++ '"' :: s = '\\' :: 'u' :: a.char :: b.char :: c.char :: d.char :: s') :
    ∃ rest, l = .code a b c d :: rest := by
  cases l with
  | nil => cases h
  | cons piece rest =>
    cases piece with
    | plain e hplain =>
      obtain rfl : e = '\\' := (List.cons.inj h).1
      cases hplain
    | short letter e hshort =>
      obtain rfl : letter = 'u' := (List.cons.inj (List.cons.inj h).2).1
      cases hshort
    | code a' b' c' d' =>
      have hchars : [a'.char, b'.char, c'.char, d'.char] = [a.char, b.char, c.char, d.char] :=
        congrArg (List.take 4) (List.cons.inj (List.cons.inj h).2).2
      simp only [List.cons.injEq, and_true] at hchars
      obtain ⟨ha, hb, hc, hd⟩ := hchars
      rw [HexDigit.ext_char ha, HexDigit.ext_char hb, HexDigit.ext_char hc, HexDigit.ext_char hd]
      exact ⟨rest, rfl⟩

/-- What is no control character, quotation mark or backslash stands for itself.
-/
theorem isPlainChar_of_ne {c : Char} (hcontrol : 32 ≤ c.toNat) (hquote : c ≠ '"')
    (hbackslash : c ≠ '\\') : isPlainChar c = true := by
  simp only [isPlainChar, Bool.and_eq_true, decide_eq_true_eq, bne_iff_ne]
  exact ⟨⟨hcontrol, hquote⟩, hbackslash⟩

/-- An escape is refused with what follows it, however many steps are left, if
every way to read the escape leaves something that is refused. -/
theorem refuses_stringBytes_escape {Q : Bytes → List Char → Prop} (h : After escape s Q)
    (hrest : ∀ fuel w s', Q w s' → After (stringBytes fuel) s' fun _ _ => False) :
    After (stringBytes fuel) ('\\' :: s) fun _ _ => False := by
  cases fuel with
  | zero => exact after_refuse _
  | succ fuel => exact after_stringBytes_escape h (hrest fuel)

/-- **A string that denotes no characters is refused.** There is a lone half of
a pair in it somewhere, and the pieces before it are read until the reader is
there. -/
theorem refuses_stringBytes {l : Literal} (h : l.chars? = none) (s : List Char) :
    After (stringBytes fuel) (l.inner ++ '"' :: s) fun _ _ => False := by
  -- The reader fails at the first half of a pair without its other half. Up to there the
  -- string is read, and so the induction is the one that reading takes.
  fun_induction Literal.chars? l generalizing fuel with
  | case1 => cases h
  | case2 c hplain rest ih =>
    exact passesRaw_stringBytes.after_cons hplain fun fuel' _ => ih (Option.map_eq_none_iff.1 h)
  | case3 letter c hshort rest ih =>
    refine refuses_stringBytes_escape (reads_escape_short hshort _).after fun fuel w s' hs' => ?_
    obtain ⟨-, rfl⟩ := hs'
    exact ih (Option.map_eq_none_iff.1 h)
  | case4 a b c d hhalf a' b' c' d' rest ih =>
    cases hpair : pairChar? (codeOf a b c d) (codeOf a' b' c' d') with
    | some char =>
      rw [hpair] at h
      have hrest : Literal.chars? rest = none := Option.map_eq_none_iff.1 h
      refine refuses_stringBytes_escape
        (reads_escape_u (reads_unicodeEscape_pair hhalf hpair)).after fun fuel w s' hs' => ?_
      obtain ⟨-, rfl⟩ := hs'
      exact ih hrest
    | none =>
      refine refuses_stringBytes_escape (after_escape_u (refuses_unicodeEscape hhalf ?_))
        fun _ _ _ hfalse => hfalse.elim
      intro e f g k s' hs'
      obtain ⟨_, hl⟩ := exists_code_of_inner (l := .code a' b' c' d' :: rest) hs'
      simp only [List.cons.injEq, Piece.code.injEq] at hl
      obtain ⟨⟨rfl, rfl, rfl, rfl⟩, -⟩ := hl
      exact hpair
  | case5 a b c d rest hhalf hno =>
    refine refuses_stringBytes_escape (after_escape_u (refuses_unicodeEscape hhalf ?_))
      fun _ _ _ hfalse => hfalse.elim
    intro e f g k s' hs'
    obtain ⟨rest', rfl⟩ := exists_code_of_inner hs'
    exact absurd rfl (hno e f g k rest')
  | case6 a b c d rest hno ih =>
    refine refuses_stringBytes_escape
      (reads_escape_u (reads_unicodeEscape (Bool.eq_false_iff.2 hno))).after fun fuel w s' hs' => ?_
    obtain ⟨-, rfl⟩ := hs'
    exact ih (Option.map_eq_none_iff.1 h)

/-- **What has been read is a string** of the grammar, up to its closing mark.
The induction is on the steps that are left, as the loop takes them. -/
theorem after_stringBytes (fuel : Nat) (s : List Char) :
    After (stringBytes fuel) s fun _ s' => ∃ l : Literal, s = l.inner ++ '"' :: s' := by
  -- Behind an escape or a longer character several steps are gone, so the induction is
  -- strong.
  induction fuel using Nat.strong_induction_on generalizing s with
  | _ fuel ih =>
    rcases fuel with _ | fuel
    · exact after_refuse _
    rcases s with _ | ⟨c, s⟩
    · rw [stringBytes]
      exact reads_next_nil.after_bind (after_refuse _)
    by_cases hquote : c = '"'
    · subst hquote
      refine (reads_stringBytes_close s).after.mono fun _ s' hs' => ⟨[], ?_⟩
      rw [hs'.2]
      rfl
    by_cases hbackslash : c = '\\'
    · subst hbackslash
      refine after_stringBytes_escape (after_escape s) fun w s' hs' => ?_
      obtain ⟨pieces, hs'⟩ := hs'
      refine (ih fuel (Nat.lt_succ_self fuel) s').mono fun _ s'' hs'' => ?_
      obtain ⟨l, hs''⟩ := hs''
      refine ⟨pieces ++ l, ?_⟩
      rw [hs', hs'', Literal.inner, Literal.inner, Literal.inner, List.flatMap_append,
        List.append_assoc]
    by_cases hcontrol : 32 ≤ c.toNat
    · have hplain := isPlainChar_of_ne hcontrol hquote hbackslash
      refine passesRaw_stringBytes.after_cons hplain fun fuel' hless => ?_
      refine (ih fuel' hless s).mono fun _ s' hs' => ?_
      obtain ⟨l, rfl⟩ := hs'
      exact ⟨.plain c hplain :: l, rfl⟩
    · have hc : c.toNat < 128 := by omega
      rw [stringBytes]
      refine (reads_next hc s).after_bind ?_
      dsimp only
      rw [if_neg (mt (byte_inj hc (by decide)).1 hquote),
        if_neg (mt (byte_inj hc (by decide)).1 hbackslash), toNat_byte hc,
        if_pos (Nat.not_le.1 hcontrol)]
      exact after_refuse _

end StringBytes

/-! ## Strings -/

section String

variable {l : Literal} {str : String}

/-- A string is its opening mark, its pieces and its closing mark. -/
theorem text_append (l : Literal) (s : List Char) : l.text ++ s = '"' :: (l.inner ++ '"' :: s) := by
  rw [Literal.text, List.cons_append, List.append_assoc, List.singleton_append]

/-- There are steps enough for a string in what is left: the readers set out
with one step more than there are bytes ahead. -/
theorem length_inner_lt (l : Literal) (s : List Char) :
    (Utf8.encode l.inner).length < (Utf8.encode (l.inner ++ s)).length + 1 := by
  rw [Utf8.encode_append, List.length_append]
  omega

/-- **A string is read as what it denotes.** -/
theorem reads_string (h : l.string? = some str) (s : List Char) :
    Reads string (l.text ++ s) str s := by
  obtain ⟨cs, hcs, rfl⟩ := Option.map_eq_some_iff.1 h
  rw [text_append]
  refine (reads_skip (by decide) _).bind ((reads_left _).bind
    ((reads_stringBytes hcs s (length_inner_lt l _)).bind ?_))
  have hdecode := Utf8.decode?_encode (String.ofList cs)
  rw [String.toList_ofList] at hdecode
  rw [hdecode]
  exact reads_pure _ s

/-- **A string that denotes nothing is refused.** -/
theorem refuses_string (h : l.string? = none) (s : List Char) :
    After string (l.text ++ s) fun _ _ => False := by
  rw [text_append]
  exact (reads_skip (by decide) _).after_bind ((reads_left _).after_bind
    ((refuses_stringBytes (Option.map_eq_none_iff.1 h) s).bind_left))

/-- **Only a string is read**, and as what it denotes: the string is determined
up to the pieces it was written in. -/
theorem after_string (s : List Char) :
    After string ('"' :: s) fun str s' =>
      ∃ l : Literal, '"' :: s = l.text ++ s' ∧ l.string? = some str := by
  have hgrammar : After string ('"' :: s) fun _ s' => ∃ l : Literal, '"' :: s = l.text ++ s' := by
    refine (reads_skip (by decide) s).after_bind ((reads_left s).after_bind
      ((after_stringBytes _ s).bind fun bytes s' hs' => ?_))
    obtain ⟨l, rfl⟩ := hs'
    cases Utf8.decode? bytes with
    | some str => exact after_pure ⟨l, (text_append l s').symm⟩
    | none => exact after_refuse _
  intro p str c hread
  obtain ⟨s', p', rfl, l, hs⟩ := hgrammar p str c hread
  refine ⟨s', p', rfl, l, hs, ?_⟩
  rw [hs] at hread
  cases hstring : l.string? with
  | none =>
    obtain ⟨_, _, _, hfalse⟩ := refuses_string hstring s' p str _ hread
    exact hfalse.elim
  | some str' =>
    obtain ⟨_, _, _, rfl, -⟩ := (reads_string hstring s').after p str _ hread
    rfl

end String

/-! ## Strings that are skipped

Whoever skips a string has to find its end, and a quotation mark behind a
backslash is none. Otherwise nothing is asked of escapes but that they are
some. So a lone half of a pair is passed over here, though it is refused where
the string is read. -/

section SkipString

variable {s : List Char} {fuel : Nat}

/-- At the closing mark the search for it is over. -/
theorem skipString_close (s : List Char) : Reads (skipString (fuel + 1)) ('"' :: s) () s := by
  rw [skipString]
  refine (reads_peek_cons (by decide) s).bind ?_
  dsimp only
  rw [if_pos rfl]
  exact reads_skip (by decide) s

/-- **A string is skipped**, whatever its pieces, lone halves of pairs among
them. -/
theorem reads_skipString (l : Literal) (s : List Char)
    (hfuel : (Utf8.encode l.inner).length < fuel) :
    Reads (skipString fuel) (l.inner ++ '"' :: s) () s := by
  induction l generalizing fuel with
  | nil =>
    obtain ⟨fuel, rfl⟩ := Nat.exists_eq_succ_of_ne_zero (Nat.ne_of_gt hfuel)
    exact skipString_close s
  | cons piece rest ih =>
    cases piece with
    | plain c hplain =>
      rw [length_inner_cons, Piece.text, encode_singleton] at hfuel
      obtain ⟨fuel, rfl⟩ := Nat.exists_eq_add_of_le
        (Nat.le_of_lt ((Nat.le_add_right _ _).trans_lt hfuel))
      have hread := passesRaw_skipString.reads_cons hplain (ih (Nat.lt_of_add_lt_add_left hfuel))
      exact hread
    | short letter c hshort =>
      obtain ⟨fuel, rfl, hless⟩ := fuel_of_escape rfl hfuel
      have hletter := (isAscii_of_shortEscape? hshort).1
      rw [skipString]
      refine (reads_peek_cons (by decide) _).bind ?_
      dsimp only
      rw [if_neg (by decide), if_pos rfl]
      refine (reads_skip (by decide) _).bind ((reads_next hletter _).bind ?_)
      dsimp only
      rw [simpleEscape?_byte hletter, hshort, Option.map_some, Option.isSome_some, if_pos rfl]
      exact ih hless
    | code a b c d =>
      obtain ⟨fuel, rfl, hless⟩ := fuel_of_escape rfl hfuel
      rw [skipString]
      refine (reads_peek_cons (by decide) _).bind ?_
      dsimp only
      rw [if_neg (by decide), if_pos rfl]
      refine (reads_skip (by decide) _).bind ((reads_next (by decide) _).bind ?_)
      dsimp only
      rw [if_neg (by decide), if_pos rfl]
      exact (reads_hexEscape a b c d _).bind (ih hless)

/-- After a backslash is an escape, and the rest of a string. Here four digits
are not even put together to a number. -/
theorem after_skipString_escape (hrest : ∀ s, After (skipString fuel) s fun _ s' =>
      ∃ l : Literal, s = l.inner ++ '"' :: s') (s : List Char) :
    After (skipString (fuel + 1)) ('\\' :: s) fun _ s' =>
      ∃ l : Literal, '\\' :: s = l.inner ++ '"' :: s' := by
  rw [skipString]
  refine (reads_peek_cons (by decide) s).after_bind ?_
  dsimp only
  rw [if_neg (by decide), if_pos rfl]
  refine (reads_skip (by decide) s).after_bind
    (after_next_bind (fun _ => after_refuse _) (fun letter s' hs hletter => ?_) fun b hb => ?_)
  · dsimp only
    rw [simpleEscape?_byte hletter]
    cases hshort : shortEscape? letter with
    | some c =>
      rw [Option.map_some, Option.isSome_some, if_pos rfl]
      refine (hrest s').mono fun _ s'' hs'' => ?_
      obtain ⟨l, rfl⟩ := hs''
      exact ⟨.short letter c hshort :: l, by rw [hs]; rfl⟩
    | none =>
      rw [Option.map_none, if_neg (by simp)]
      split_ifs with hu
      · obtain rfl := (byte_inj hletter (by decide)).1 hu
        refine (after_hexEscape s').bind fun n s₁ hs₁ => ?_
        obtain ⟨a, b, c, d, rfl, -⟩ := hs₁
        refine (hrest s₁).mono fun _ s'' hs'' => ?_
        obtain ⟨l, rfl⟩ := hs''
        exact ⟨.code a b c d :: l, by rw [hs]; rfl⟩
      · exact after_refuse _
  · -- A byte that is no character of its own is no letter of an escape.
    dsimp only
    rw [simpleEscape?_of_le hb, if_neg (by simp), if_neg (ne_byte_of_le hb (by decide))]
    exact avoids_refuse _

/-- **Only a string is skipped**: the reader that does not care for the
characters is as strict about the grammar as the one that does. -/
theorem after_skipString (fuel : Nat) (s : List Char) :
    After (skipString fuel) s fun _ s' => ∃ l : Literal, s = l.inner ++ '"' :: s' := by
  induction fuel using Nat.strong_induction_on generalizing s with
  | _ fuel ih =>
    rcases fuel with _ | fuel
    · exact after_refuse _
    rcases s with _ | ⟨c, s⟩
    · rw [skipString]
      exact (reads_peek []).after_bind (after_refuse _)
    by_cases hquote : c = '"'
    · subst hquote
      refine (skipString_close s).after.mono fun _ s' hs' => ⟨[], ?_⟩
      rw [hs'.2]
      rfl
    by_cases hbackslash : c = '\\'
    · subst hbackslash
      exact after_skipString_escape (ih fuel (Nat.lt_succ_self fuel)) s
    by_cases hcontrol : 32 ≤ c.toNat
    · have hplain := isPlainChar_of_ne hcontrol hquote hbackslash
      refine passesRaw_skipString.after_cons hplain fun fuel' hless => ?_
      refine (ih fuel' hless s).mono fun _ s' hs' => ?_
      obtain ⟨l, rfl⟩ := hs'
      exact ⟨.plain c hplain :: l, rfl⟩
    · have hc : c.toNat < 128 := by omega
      rw [skipString]
      refine (reads_peek_cons hc s).after_bind ?_
      dsimp only
      rw [if_neg (mt (byte_inj hc (by decide)).1 hquote),
        if_neg (mt (byte_inj hc (by decide)).1 hbackslash), toNat_byte hc,
        if_pos (Nat.not_le.1 hcontrol)]
      exact after_refuse _

end SkipString

end Reader

end CertAuthority.Json
