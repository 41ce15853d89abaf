import CertAuthority.Json.Decode
import CertAuthority.Proofs.Json.Grammar
import CertAuthority.Proofs.Text.Utf8
import Mathlib.Data.List.TakeWhile

/-!
# Readers on texts

The readers of `Json.Reader` go by bytes and keep account of their place,
because faults are told by line and column. The grammar is one of characters,
and places do not matter to it. This module is the bridge: it says of each
small reader what it does to the characters that are ahead, from any place, so
that the readers of values are followed without a byte or a place in sight.

Two statements about a reader at a text put the one in terms of the other.
`Reads read s a s'`: with `s` ahead, from any place, it reads `a` and leaves
`s'`. `After read s Q`: if it reads anything with `s` ahead, then what it
reads and what it leaves are as `Q` says; so `After read s fun _ _ => False`
says that it refuses. The first is for what the grammar allows, the second for
the converse, that the reader allows nothing else. What a reader never reads
of any text it `Avoids`.

All three have a rule for one reader after another, and the readers of single
bytes, blanks and words have a lemma of each kind. A byte of the basic
alphabet is always a character of the text (`exists_cons_of_head?`), which is
all that the readers ever ask about a byte that is not inside a string.
-/

namespace CertAuthority.Json

open Text

/-! ## Texts ahead

Readers go over bytes, and a document is a text. The two agree as long as a
reader stops between characters, and it does: a byte of the basic alphabet is
a character, and others are taken off only inside strings, where all the bytes
of a character are. -/

/-- **The cursor with a text ahead.** Every cursor that a reader leaves is of
this form if the one it started from was: bytes come off in whole characters,
except inside strings. -/
def Cursor.facing (s : List Char) (p : Place) : Cursor := ⟨Utf8.encode s, p⟩

/-- A character of the basic alphabet is one byte of the text. -/
theorem encode_cons {c : Char} (h : c.toNat < 128) (s : List Char) :
    Utf8.encode (c :: s) = byte c :: Utf8.encode s := by
  show String.utf8EncodeChar c ++ Utf8.encode s = _
  rw [Utf8.utf8EncodeChar_eq_singleton h]
  rfl

theorem toNat_byte {c : Char} (h : c.toNat < 128) : (byte c).toNat = c.toNat :=
  Utf8.toNat_ofNat (by omega)

/-- A byte beyond the basic alphabet is that of none of its characters. -/
theorem ne_byte_of_le {b : UInt8} {c : Char} (hb : 128 ≤ b.toNat) (hc : c.toNat < 128) :
    b ≠ byte c := by
  rintro rfl
  rw [toNat_byte hc] at hb
  omega

theorem byte_inj {c d : Char} (hc : c.toNat < 128) (hd : d.toNat < 128) :
    byte c = byte d ↔ c = d := by
  constructor
  · intro h
    have hnat := congrArg UInt8.toNat h
    rw [toNat_byte hc, toNat_byte hd] at hnat
    rw [← Char.ofNat_toNat c, ← Char.ofNat_toNat d, hnat]
  · rintro rfl
    rfl

/-- All bytes of a character beyond the basic alphabet are beyond it. -/
theorem le_of_mem_utf8EncodeChar {c : Char} (h : 128 ≤ c.toNat) {b : UInt8}
    (hb : b ∈ String.utf8EncodeChar c) : 128 ≤ b.toNat := by
  have hv : c.val.toNat = c.toNat := rfl
  have hvalid : c.toNat < 0xd800 ∨ 0xdfff < c.toNat ∧ c.toNat < 0x110000 := c.valid
  have hlarge : ∀ n m : Nat, 128 ≤ m → m < 256 → n = m → 128 ≤ (UInt8.ofNat n).toNat := by
    rintro n m hlow hhigh rfl
    rwa [Utf8.toNat_ofNat hhigh]
  unfold String.utf8EncodeChar at hb
  simp only [hv] at hb
  rw [if_neg (by omega)] at hb
  split_ifs at hb
  all_goals
    simp only [List.mem_cons, List.not_mem_nil, or_false] at hb
    rcases hb with rfl | rfl | rfl | rfl <;> exact hlarge _ _ (by omega) (by omega) rfl

/-- No character is without bytes, so a text is at its end just when no byte is
ahead. -/
theorem utf8EncodeChar_ne_nil (c : Char) : String.utf8EncodeChar c ≠ [] := by
  unfold String.utf8EncodeChar
  dsimp only
  split_ifs <;> exact List.cons_ne_nil _ _

/-- **A byte of the basic alphabet is a character.** No other character has such
a byte among its own, so a reader that looks at one byte has seen all of the
character it belongs to. -/
theorem exists_cons_of_head? {s : List Char} {b : UInt8} (hb : (Utf8.encode s).head? = some b)
    (h : b.toNat < 128) : ∃ c s', s = c :: s' ∧ c.toNat < 128 ∧ b = byte c := by
  cases s with
  | nil => cases hb
  | cons c s =>
    by_cases hc : c.toNat < 128
    · rw [encode_cons hc] at hb
      exact ⟨c, s, rfl, hc, (Option.some.inj hb).symm⟩
    · obtain ⟨x, w, hw⟩ := List.exists_cons_of_ne_nil (utf8EncodeChar_ne_nil c)
      have hhead : (Utf8.encode (c :: s)).head? = some x := by
        show (String.utf8EncodeChar c ++ Utf8.encode s).head? = some x
        rw [hw]
        rfl
      rw [hhead] at hb
      have hx := le_of_mem_utf8EncodeChar (Nat.not_lt.1 hc) (b := x) (hw ▸ List.mem_cons_self)
      obtain rfl := Option.some.inj hb
      omega

/-- If the byte ahead is that of a character of the basic alphabet, that
character is ahead. -/
theorem cons_of_head? {s : List Char} {c : Char} (hc : c.toNat < 128)
    (hb : (Utf8.encode s).head? = some (byte c)) : ∃ s', s = c :: s' := by
  obtain ⟨c', s', rfl, hc', heq⟩ := exists_cons_of_head? hb (by rw [toNat_byte hc]; exact hc)
  rw [(byte_inj hc hc').1 heq]
  exact ⟨s', rfl⟩

namespace Reader

variable {α β : Type} {read : Reader α} {f : α → Reader β} {s s' s'' : List Char} {a : α} {b : β}

/-! ## What is read

There are two things to say of a reader: that it reads a value off a text, and
what is so if it has read one. Both are put together of parts along the
reader, and neither says where in the document the reader stands. -/

/-- **A reader that reads a value and leaves a text**, wherever it stands. The
place that it arrives at is left open: it is of use to faults only. -/
def Reads (read : Reader α) (s : List Char) (a : α) (s' : List Char) : Prop :=
  ∀ p, ∃ p', read (.facing s p) = .ok a (.facing s' p')

/-- **What is so after a reader has read a value**, if it has. It is a partial
statement: of a reader that refuses the text anything is so. -/
def After (read : Reader α) (s : List Char) (Q : α → List Char → Prop) : Prop :=
  ∀ p a c, read (.facing s p) = .ok a c → ∃ s' p', c = .facing s' p' ∧ Q a s'

/-- Two readers, one after the other, read a value just when the first reads one
and the second then reads that value. -/
theorem bind_eq_ok_iff {c c'' : Cursor} :
    (read >>= f) c = .ok b c'' ↔ ∃ a c', read c = .ok a c' ∧ f a c' = .ok b c'' := by
  show EStateM.bind read f c = .ok b c'' ↔ _
  unfold EStateM.bind
  cases read c with
  | ok a c' => simp
  | error e c' => simp

/-- The second reader goes on where the first has left off. -/
theorem bind_of_ok {c c' : Cursor} (h : read c = .ok a c') : (read >>= f) c = f a c' := by
  show EStateM.bind read f c = _
  unfold EStateM.bind
  rw [h]

/-- Only what the first reader does from here matters to what comes of both. -/
theorem bind_congr_at {read' : Reader α} {c c' : Cursor} (h : read c = read' c') :
    (read >>= f) c = (read' >>= f) c' := by
  show EStateM.bind read f c = EStateM.bind read' f c'
  unfold EStateM.bind
  rw [h]

/-- A reader may ask where it is, and is told. -/
theorem get_bind (f : Cursor → Reader β) (c : Cursor) : (get >>= f) c = f c c := rfl

/-- A reader may be put somewhere else, and goes on there. -/
theorem set_bind (f : PUnit → Reader β) (c c' : Cursor) : (set c' >>= f) c = f ⟨⟩ c' := rfl

/-- **One reader after another**: what the first leaves is what the second has
ahead. -/
theorem Reads.bind (h : Reads read s a s') (hf : Reads (f a) s' b s'') :
    Reads (read >>= f) s b s'' := by
  intro p
  obtain ⟨p', hp'⟩ := h p
  rw [bind_of_ok hp']
  exact hf p'

/-- A reader that only gives a value reads it off any text. -/
theorem reads_pure (a : α) (s : List Char) : Reads (pure a) s a s := fun p => ⟨p, rfl⟩

/-- What follows from what is so after a reader is so after it. -/
theorem After.mono {Q Q' : α → List Char → Prop} (h : After read s Q)
    (hQ : ∀ a s', Q a s' → Q' a s') : After read s Q' := by
  intro p a c hc
  obtain ⟨s', p', rfl, hq⟩ := h p a c hc
  exact ⟨s', p', rfl, hQ a s' hq⟩

/-- **One reader after another.** The second is followed from every value and
every text that the first may have read and left. -/
theorem After.bind {Q : α → List Char → Prop} {R : β → List Char → Prop} (h : After read s Q)
    (hf : ∀ a s', Q a s' → After (f a) s' R) : After (read >>= f) s R := by
  intro p b c'' hc
  obtain ⟨a, c', hread, hrest⟩ := bind_eq_ok_iff.1 hc
  obtain ⟨s', p', rfl, hq⟩ := h p a c' hread
  exact hf a s' hq p' b c'' hrest

/-- After a refusal there is no next reader, so the two refuse together. -/
theorem After.bind_left {R : β → List Char → Prop} (h : After read s fun _ _ => False) :
    After (read >>= f) s R :=
  h.bind fun _ _ hfalse => hfalse.elim

/-- After a reader that reads just this, the next one goes on. Most steps of a
converse are of this kind: the reader has no choice but to take off what was
seen to be ahead. -/
theorem Reads.after_bind {R : β → List Char → Prop} (h : Reads read s a s')
    (hf : After (f a) s' R) : After (read >>= f) s R := by
  intro p b c'' hc
  obtain ⟨p', hp'⟩ := h p
  rw [bind_of_ok hp'] at hc
  exact hf p' b c'' hc

/-- A reader that chooses is followed on both of its ways, each with what the
choice has told about the text. -/
theorem after_ite {Q : α → List Char → Prop} {c : Prop} [Decidable c] {read' : Reader α}
    (hpos : c → After read s Q) (hneg : ¬ c → After read' s Q) :
    After (if c then read else read') s Q := by
  split
  · exact hpos ‹_›
  · exact hneg ‹_›

/-- A reader reads one value at most of a text, so what it reads is what it was
shown to read. -/
theorem Reads.after (h : Reads read s a s') : After read s fun a' s'' => a' = a ∧ s'' = s' := by
  intro p a' c hc
  obtain ⟨p', hp'⟩ := h p
  obtain ⟨rfl, rfl⟩ : a = a' ∧ Cursor.facing s' p' = c := by
    rw [hp'] at hc
    injection hc with ha hc
    exact ⟨ha, hc⟩
  exact ⟨s', p', rfl, rfl, rfl⟩

/-- After a reader that only gives a value the text is as it was. -/
theorem after_pure {Q : α → List Char → Prop} (h : Q a s) : After (pure a) s Q := by
  intro p a' c hc
  cases hc
  exact ⟨s, p, rfl, h⟩

/-- A fault is no value, so after it anything is so. -/
theorem after_throw {Q : α → List Char → Prop} (e : Fault) : After (throw e) s Q := by
  intro p a c hc
  cases hc

theorem after_refuse {Q : α → List Char → Prop} (cause : Cause) : After (refuse cause) s Q := by
  intro p a c hc
  cases hc

theorem after_refuseNext {Q : α → List Char → Prop} (cause : Cause) :
    After (refuseNext cause) s Q := by
  intro p a c hc
  cases hc

/-! ## What is never read -/

/-- **A reader that never reads a value of some kind**, whatever the text. It is
said of all cursors, those in the middle of a character included, since it is
for parts of readers that are not followed any further. -/
def Avoids (read : Reader α) (P : α → Prop) : Prop := ∀ c a c', read c = .ok a c' → ¬ P a

section Avoids

variable {P : α → Prop} {Q : β → Prop}

/-- The last of two readers decides what both never read. -/
theorem Avoids.bind (hf : ∀ a, Avoids (f a) Q) : Avoids (read >>= f) Q := by
  intro c b c'' hc
  obtain ⟨a, c', -, hrest⟩ := bind_eq_ok_iff.1 hc
  exact hf a c' b c'' hrest

/-- Nothing is read after a refusal, by whichever reader comes next. -/
theorem Avoids.bind_left (h : Avoids read fun _ => True) : Avoids (read >>= f) Q := by
  intro c b c'' hc
  obtain ⟨a, c', hread, -⟩ := bind_eq_ok_iff.1 hc
  exact (h c a c' hread trivial).elim

/-- What neither way reads is not read, whichever is chosen. -/
theorem avoids_ite {c : Prop} [Decidable c] {read' : Reader α} (hpos : Avoids read P)
    (hneg : Avoids read' P) : Avoids (if c then read else read') P := by
  split
  · exact hpos
  · exact hneg

/-- A reader that only gives a value avoids every kind that this is not of. -/
theorem avoids_pure (h : ¬ P a) : Avoids (pure a) P := by
  intro c a' c' hc
  cases hc
  exact h

theorem avoids_throw (e : Fault) : Avoids (throw e) P := by
  intro c a c' hc
  cases hc

/-- A refusal where the reader stands is of no kind. -/
theorem avoids_refuse (cause : Cause) : Avoids (refuse cause) P := by
  intro c a c' hc
  cases hc

/-- A refusal of the next byte is of no kind, either. -/
theorem avoids_refuseNext (cause : Cause) : Avoids (refuseNext cause) P := by
  intro c a c' hc
  cases hc

/-- A reader that never reads anything refuses every text. -/
theorem Avoids.after (h : Avoids read fun _ => True) {Q : α → List Char → Prop} :
    After read s Q :=
  fun _ a c hc => absurd trivial (h _ a c hc)

end Avoids

/-! ## Single bytes

A byte can be looked at, skipped or taken off. In front of a known text each
of these is a step with one result; in front of an unknown one, what was seen
tells something about the text. -/

section Bytes

variable {c : Char} {f : Option UInt8 → Reader β} {R : β → List Char → Prop}

theorem peek_cons (b : UInt8) (rest : Bytes) (p : Place) :
    peek ⟨b :: rest, p⟩ = .ok (some b) ⟨b :: rest, p⟩ := rfl

/-- To skip a byte takes it off, and the place goes on by that byte. -/
theorem skip_cons (b : UInt8) (rest : Bytes) (p : Place) :
    skip ⟨b :: rest, p⟩ = .ok () ⟨rest, p.after b⟩ := rfl

/-- To take a byte off is to look at it and to skip it. -/
theorem next_cons (b : UInt8) (rest : Bytes) (p : Place) :
    next ⟨b :: rest, p⟩ = .ok (some b) ⟨rest, p.after b⟩ := rfl

/-- What is done after a look at the next byte is done with that byte, or with
none at the end of the text. -/
theorem peek_bind (f : Option UInt8 → Reader β) (c : Cursor) :
    (peek >>= f) c = f c.rest.head? c := rfl

/-- A look shows the first byte of the text ahead, and leaves all of it. -/
theorem reads_peek (s : List Char) : Reads peek s (Utf8.encode s).head? s := fun p => ⟨p, rfl⟩

/-- If a character of the basic alphabet is ahead, a look shows that character.
-/
theorem reads_peek_cons (h : c.toNat < 128) (s : List Char) :
    Reads peek (c :: s) (some (byte c)) (c :: s) := by
  have hread := reads_peek (c :: s)
  rw [encode_cons h] at hread
  exact hread

/-- How much is left is told in bytes. Readers that loop take it for the number
of their steps, of which there are enough then. -/
theorem reads_left (s : List Char) : Reads left s (Utf8.encode s).length s := fun p => ⟨p, rfl⟩

/-- A character of the basic alphabet is skipped in one step. -/
theorem reads_skip (h : c.toNat < 128) (s : List Char) : Reads skip (c :: s) () s := by
  intro p
  refine ⟨p.after (byte c), ?_⟩
  show EStateM.Result.ok () (Cursor.advance ⟨Utf8.encode (c :: s), p⟩) = _
  rw [encode_cons h]
  rfl

theorem reads_next (h : c.toNat < 128) (s : List Char) :
    Reads next (c :: s) (some (byte c)) s :=
  (reads_peek_cons h s).bind ((reads_skip h s).bind (reads_pure _ s))

/-- At the end of the text there is nothing to take off. -/
theorem reads_next_nil : Reads next [] none [] := fun p => ⟨p, rfl⟩

/-- **A byte that is taken off** is a character, if those beyond the basic
alphabet are refused. That is so of every reader outside strings, and it is why
such a reader never stops in the middle of a character. -/
theorem after_next_bind (hnil : s = [] → After (f none) [] R)
    (hcons : ∀ c s', s = c :: s' → c.toNat < 128 → After (f (some (byte c))) s' R)
    (hhigh : ∀ b : UInt8, 128 ≤ b.toNat → Avoids (f (some b)) fun _ => True) :
    After (next >>= f) s R := by
  cases s with
  | nil => exact reads_next_nil.after_bind (hnil rfl)
  | cons c s =>
    by_cases hc : c.toNat < 128
    · exact (reads_next hc s).after_bind (hcons c s rfl hc)
    · intro p a c' hread
      obtain ⟨b, c₁, hnext, hrest⟩ := bind_eq_ok_iff.1 hread
      obtain ⟨x, w, hw⟩ := List.exists_cons_of_ne_nil (utf8EncodeChar_ne_nil c)
      have hx := le_of_mem_utf8EncodeChar (Nat.not_lt.1 hc) (b := x) (hw ▸ List.mem_cons_self)
      have hhead : (Utf8.encode (c :: s)).head? = some x := by
        show (String.utf8EncodeChar c ++ Utf8.encode s).head? = some x
        rw [hw]
        rfl
      obtain rfl : (Utf8.encode (c :: s)).head? = b := by
        injection hnext with hb
      rw [hhead] at hrest
      exact (hhigh x hx c₁ a c' hrest trivial).elim

/-- A byte that is looked at is the head of what is left. -/
theorem after_peek_bind (h : After (f (Utf8.encode s).head?) s R) : After (peek >>= f) s R :=
  (reads_peek s).after_bind h

end Bytes

/-! ## Blanks and words

The blanks that the grammar allows are those that are skipped. There is no
telling how many of them were written once they are, so what comes after
blanks has to begin with something else, and then nothing is lost. -/

/-- The blanks among bytes are the blanks among characters. -/
theorem isSpace_byte {c : Char} (h : c.toNat < 128) : isSpace (byte c) = isSpaceChar c := by
  have hbyte : ∀ d : Char, d.toNat < 128 → (byte c == byte d) = (c == d) := by
    intro d hd
    rw [Bool.eq_iff_iff, beq_iff_eq, beq_iff_eq]
    exact byte_inj h hd
  unfold isSpace isSpaceChar
  rw [← hbyte ' ' (by decide), ← hbyte '\n' (by decide), ← hbyte '\t' (by decide),
    ← hbyte '\r' (by decide)]
  rfl

theorem isAscii_of_isSpaceChar {c : Char} (h : isSpaceChar c = true) : c.toNat < 128 := by
  simp only [isSpaceChar, Bool.or_eq_true, beq_iff_eq] at h
  rcases h with ((rfl | rfl) | rfl) | rfl <;> decide

/-- Skipping bytes that are blanks is dropping characters that are. The
induction is on the text; a character beyond the basic alphabet ends both. -/
theorem skipSpaces_encode (s : List Char) (p : Place) :
    ∃ p', skipSpaces p (Utf8.encode s) = .facing (s.dropWhile isSpaceChar) p' := by
  induction s generalizing p with
  | nil => exact ⟨p, rfl⟩
  | cons c s ih =>
    by_cases hspace : isSpaceChar c = true
    · have hc := isAscii_of_isSpaceChar hspace
      rw [encode_cons hc, skipSpaces, isSpace_byte hc, if_pos hspace,
        List.dropWhile_cons_of_pos hspace]
      exact ih _
    · rw [List.dropWhile_cons_of_neg hspace]
      refine ⟨p, ?_⟩
      by_cases hc : c.toNat < 128
      · rw [encode_cons hc, skipSpaces, isSpace_byte hc, if_neg hspace, Cursor.facing,
          encode_cons hc]
      · obtain ⟨x, w, hw⟩ := List.exists_cons_of_ne_nil (utf8EncodeChar_ne_nil c)
        have hx := le_of_mem_utf8EncodeChar (Nat.not_lt.1 hc) (b := x) (hw ▸ List.mem_cons_self)
        have hencode : Utf8.encode (c :: s) = x :: (w ++ Utf8.encode s) := by
          show String.utf8EncodeChar c ++ Utf8.encode s = _
          rw [hw]
          rfl
        have hno : isSpace x = false := by
          simp only [isSpace, Bool.or_eq_false_iff, beq_eq_false_iff_ne, ne_eq, ← UInt8.toNat_inj]
          refine ⟨⟨⟨?_, ?_⟩, ?_⟩, ?_⟩ <;> intro heq <;> rw [heq] at hx <;> exact absurd hx (by decide)
        rw [Cursor.facing, hencode, skipSpaces, hno]
        rfl

/-- **Blanks are dropped**, and what follows them is looked at. -/
theorem reads_blanks_dropWhile (s : List Char) :
    Reads blanks s (Utf8.encode (s.dropWhile isSpaceChar)).head? (s.dropWhile isSpaceChar) := by
  intro p
  obtain ⟨p', hp'⟩ := skipSpaces_encode s p
  refine ⟨p', ?_⟩
  show EStateM.Result.ok (skipSpaces p (Utf8.encode s)).rest.head? (skipSpaces p (Utf8.encode s)) = _
  rw [hp']
  rfl

/-- Blanks that are written before anything else are just those that are
dropped. -/
theorem dropWhile_blanks (b : Blanks) {s : List Char} (hs : ∀ c ∈ s.head?, isSpaceChar c = false) :
    (b.chars ++ s).dropWhile isSpaceChar = s := by
  rw [List.dropWhile_append_of_pos b.blank]
  cases s with
  | nil => rfl
  | cons c s => exact List.dropWhile_cons_of_neg (by rw [hs c rfl]; exact Bool.false_ne_true)

/-- **Blanks are skipped up to a character.** That character is not taken off:
its byte tells the reader what kind of value comes. -/
theorem reads_blanks {c : Char} (b : Blanks) (hc : c.toNat < 128) (hspace : isSpaceChar c = false)
    (s : List Char) : Reads blanks (b.chars ++ c :: s) (some (byte c)) (c :: s) := by
  have hread := reads_blanks_dropWhile (b.chars ++ c :: s)
  have hhead : ∀ d ∈ (c :: s).head?, isSpaceChar d = false := by
    intro d hd
    rw [← Option.some.inj hd]
    exact hspace
  rw [dropWhile_blanks b hhead, encode_cons hc] at hread
  exact hread

/-- Blanks at the end of a text are skipped, and nothing is seen behind them. -/
theorem reads_blanks_end (b : Blanks) : Reads blanks b.chars none [] := by
  have hread := reads_blanks_dropWhile (b.chars ++ [])
  rw [dropWhile_blanks b (by simp), List.append_nil] at hread
  exact hread

/-- **What has been skipped are blanks.** Whatever comes after them, they are
some that the grammar allows there. -/
theorem after_blanks_bind {f : Option UInt8 → Reader β} {R : β → List Char → Prop}
    (h : ∀ (b : Blanks) (s' : List Char), s = b.chars ++ s' →
      After (f (Utf8.encode s').head?) s' R) : After (blanks >>= f) s R := by
  refine (reads_blanks_dropWhile s).after_bind
    (h ⟨s.takeWhile isSpaceChar, fun c hc => List.mem_takeWhile_imp hc⟩ _ ?_)
  exact List.takeWhile_append_dropWhile.symm

/-- A word of the basic alphabet that is ahead is read. -/
theorem reads_word {w : List Char} (h : ∀ c ∈ w, c.toNat < 128) (s : List Char) :
    Reads (word w) (w ++ s) () s := by
  induction w with
  | nil => exact reads_pure () s
  | cons c w ih =>
    have hc := h c List.mem_cons_self
    refine (reads_next hc (w ++ s)).bind ?_
    dsimp only
    rw [if_pos rfl]
    exact ih fun d hd => h d (List.mem_cons_of_mem c hd)

theorem after_word {w : List Char} (h : ∀ c ∈ w, c.toNat < 128) (s : List Char) :
    After (word w) s fun _ s' => s = w ++ s' := by
  induction w generalizing s with
  | nil => exact after_pure rfl
  | cons c w ih =>
    have hc := h c List.mem_cons_self
    refine after_next_bind (fun _ => after_refuse _) (fun d s' hs hd => ?_) fun b hb => ?_
    · dsimp only
      split_ifs with heq
      · obtain rfl := (byte_inj hd hc).1 heq
        refine (ih (fun e he => h e (List.mem_cons_of_mem d he)) s').mono fun _ s'' hs' => ?_
        rw [hs, hs', List.cons_append]
      · exact after_refuse _
    · dsimp only
      rw [if_neg (ne_byte_of_le hb hc)]
      exact avoids_refuse _

end Reader

end CertAuthority.Json
