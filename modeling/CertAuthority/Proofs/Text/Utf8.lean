import CertAuthority.Text.Utf8
import Mathlib.Data.List.Basic
import Mathlib.Data.UInt

/-!
# Reading UTF-8 undoes writing it

A character is written in one to four bytes, and which of the four it is shows
in the first of them. The round trip is therefore one step for each length:
`lead?` recognises the first byte, `continuation` gathers the six bits of each
byte after it, and what has been gathered is the code point again.
`decodeFrom_encode` puts the steps together along the text.

The reader is stricter than the writer has to be. It refuses a character in
more bytes than it takes, one that is half of a surrogate pair, and one beyond
the last plane, and it tells all three from the second byte, whose range
depends on the first. So the two lemmas about long forms (`lead?_three`,
`lead?_four`) give that range with the first byte, and the proof about a
character has to see that its second byte is in it, which is where it is used
that a character is none of these.

For a text of the basic alphabet there is nothing to gather: its form is its
code points (`encode_eq_map`), and bytes of that alphabet are always a text
(`decode?_of_ascii`). Everything that is written as base64 or hexadecimal
digits is such a text, and so are the markers of blocks.
-/

namespace CertAuthority.Text.Utf8

/-! ## The basic alphabet -/

/-- A character of the basic alphabet is written as a single byte, its code
point. -/
theorem utf8EncodeChar_eq_singleton {c : Char} (h : c.toNat < 128) :
    String.utf8EncodeChar c = [UInt8.ofNat c.toNat] := by
  unfold String.utf8EncodeChar
  exact if_pos (Nat.le_of_lt_succ h)

/-- **The form of a text of the basic alphabet** is its code points. -/
theorem encode_eq_map {s : List Char} (h : ∀ c ∈ s, c.toNat < 128) :
    encode s = s.map fun c => UInt8.ofNat c.toNat := by
  induction s with
  | nil => rfl
  | cons c s ih =>
    have hc := utf8EncodeChar_eq_singleton (h c List.mem_cons_self)
    have hs := ih fun x hx => h x (List.mem_cons_of_mem c hx)
    show String.utf8EncodeChar c ++ encode s = _
    rw [hc, hs, List.map_cons, List.singleton_append]

/-- A byte of the basic alphabet is the code point of a character. -/
theorem toNat_charOfByte {b : UInt8} (h : b.toNat < 128) : (Char.ofNat b.toNat).toNat = b.toNat := by
  have hvalid : b.toNat.isValidChar := Or.inl (by omega)
  rw [Char.ofNat, dif_pos hvalid]
  rfl

/-- Bytes of the basic alphabet are the form of their characters. -/
theorem encode_map_charOfByte {b : Bytes} (h : ∀ x ∈ b, x.toNat < 128) :
    encode (b.map fun x => Char.ofNat x.toNat) = b := by
  have hascii : ∀ c ∈ b.map fun x => Char.ofNat x.toNat, c.toNat < 128 := by
    intro c hc
    obtain ⟨x, hx, rfl⟩ := List.mem_map.1 hc
    rw [toNat_charOfByte (h x hx)]
    exact h x hx
  rw [encode_eq_map hascii, List.map_map]
  refine (List.map_congr_left fun x hx => ?_).trans (List.map_id _)
  show UInt8.ofNat (Char.ofNat x.toNat).toNat = x
  rw [toNat_charOfByte (h x hx), UInt8.ofNat_toNat]

/-! ## One character -/

/-- A number below 256 is a byte, and that byte is the number. -/
theorem toNat_ofNat {n : Nat} (h : n < 256) : (UInt8.ofNat n).toNat = n :=
  UInt8.toNat_ofNat_of_lt' h

/-- A first byte and what belongs to it are one character. -/
theorem decodeFrom_cons {start code : Nat} {b : UInt8} {l : Lead} {rest rest' : Bytes}
    (hl : lead? b = some l)
    (hc : continuation start 1 l.following l.low l.high l.bits rest = .ok (code, rest')) :
    decodeFrom start (b :: rest) =
      match decodeFrom (start + 1 + l.following) rest' with
      | .error fault => .error fault
      | .ok chars => .ok (Char.ofNat code :: chars) := by
  rw [decodeFrom]
  simp only [hl]
  split
  · rename_i fault h
    exact absurd (hc.symm.trans h) (by simp)
  · rename_i code' rest'' h
    obtain ⟨rfl, rfl⟩ := Prod.mk.inj (Except.ok.inj (hc.symm.trans h))
    rfl

/-- A byte in its range is six more bits. The range is that of the second byte
of the character here, and the usual one from there on. -/
theorem continuation_cons {start seen left low high bits : Nat} {b : UInt8} {rest : Bytes}
    (h : low ≤ b.toNat ∧ b.toNat ≤ high) :
    continuation start seen (left + 1) low high bits (b :: rest)
      = continuation start (seen + 1) left 0x80 0xbf (bits * 64 + b.toNat % 64) rest := by
  rw [continuation, if_pos h]

/-- The byte that holds the last six bits of a number, with the mark of a byte
that is not the first. -/
def tailByte (n : Nat) : UInt8 := UInt8.ofNat (n % 64 + 128)

/-- The mark is in the two high bits, which six bits do not reach. -/
theorem toNat_tailByte (n : Nat) : (tailByte n).toNat = n % 64 + 128 :=
  toNat_ofNat (by omega)

/-- Such a byte is in the usual range, and gives its six bits back. -/
theorem continuation_tailByte {start seen left bits n : Nat} {rest : Bytes} :
    continuation start seen (left + 1) 0x80 0xbf bits (tailByte n :: rest)
      = continuation start (seen + 1) left 0x80 0xbf (bits * 64 + n % 64) rest := by
  have hb := toNat_tailByte n
  have hmod : (n % 64 + 128) % 64 = n % 64 := by omega
  rw [continuation_cons (by omega), hb, hmod]

/-! ## What first bytes announce

A first byte says how many others there are, and in some cases restricts the
one after it. These are the cases in which a number would have a shorter form,
or is none of a character. The four lengths are treated one by one, by what
their first bytes can be. -/

section Lead

variable {n : Nat}

/-- A code point below 128 is a first byte that announces no others. -/
theorem lead?_one (h : n < 0x80) : lead? (UInt8.ofNat n) = some ⟨0, 0, 0, n⟩ := by
  have hb := toNat_ofNat (show n < 256 by omega)
  simp only [lead?, hb]
  rw [if_pos (by omega)]

/-- One with up to eleven bits announces one other byte, of the usual range: a
shorter form would have begun differently. -/
theorem lead?_two (h : 0x80 ≤ n) (h' : n < 0x800) :
    lead? (UInt8.ofNat (n / 64 % 0x20 + 0xc0)) = some ⟨1, 0x80, 0xbf, n / 64⟩ := by
  have hb := toNat_ofNat (show n / 64 % 0x20 + 0xc0 < 256 by omega)
  have hbits : n / 64 % 0x20 + 0xc0 - 0xc0 = n / 64 := by omega
  simp only [lead?, hb, hbits]
  rw [if_neg (by omega), if_neg (by omega), if_pos (by omega)]

/-- One with up to sixteen bits announces two. The second byte tells overlong
forms and surrogates, so its range is narrower behind two of the first bytes. -/
theorem lead?_three (h : 0x800 ≤ n) (h' : n < 0x10000) :
    lead? (UInt8.ofNat (n / 4096 % 0x10 + 0xe0))
      = some ⟨2, if n / 4096 = 0 then 0xa0 else 0x80, if n / 4096 = 13 then 0x9f else 0xbf,
          n / 4096⟩ := by
  have hb := toNat_ofNat (show n / 4096 % 0x10 + 0xe0 < 256 by omega)
  have hlow : (n / 4096 % 0x10 + 0xe0 = 0xe0) = (n / 4096 = 0) := by
    rw [eq_iff_iff]; omega
  have hhigh : (n / 4096 % 0x10 + 0xe0 = 0xed) = (n / 4096 = 13) := by
    rw [eq_iff_iff]; omega
  have hbits : n / 4096 % 0x10 + 0xe0 - 0xe0 = n / 4096 := by omega
  simp only [lead?, hb, hlow, hhigh, hbits]
  rw [if_neg (by omega), if_neg (by omega), if_neg (by omega), if_pos (by omega)]

/-- A larger one announces three. The second byte tells overlong forms and too
large numbers. -/
theorem lead?_four (h : 0x10000 ≤ n) (h' : n < 0x110000) :
    lead? (UInt8.ofNat (n / 262144 % 0x08 + 0xf0))
      = some ⟨3, if n / 262144 = 0 then 0x90 else 0x80, if n / 262144 = 4 then 0x8f else 0xbf,
          n / 262144⟩ := by
  have hb := toNat_ofNat (show n / 262144 % 0x08 + 0xf0 < 256 by omega)
  have hlow : (n / 262144 % 0x08 + 0xf0 = 0xf0) = (n / 262144 = 0) := by
    rw [eq_iff_iff]; omega
  have hhigh : (n / 262144 % 0x08 + 0xf0 = 0xf4) = (n / 262144 = 4) := by
    rw [eq_iff_iff]; omega
  have hbits : n / 262144 % 0x08 + 0xf0 - 0xf0 = n / 262144 := by omega
  simp only [lead?, hb, hlow, hhigh, hbits]
  rw [if_neg (by omega), if_neg (by omega), if_neg (by omega), if_neg (by omega),
    if_pos (by omega)]

end Lead

/-- **A character that is encoded is decoded**, whichever length it has. -/
theorem decodeFrom_utf8EncodeChar (start : Nat) (c : Char) (rest : Bytes) :
    decodeFrom start (String.utf8EncodeChar c ++ rest) =
      match decodeFrom (start + (String.utf8EncodeChar c).length) rest with
      | .error fault => .error fault
      | .ok chars => .ok (c :: chars) := by
  have hchar : Char.ofNat c.toNat = c := Char.ofNat_toNat c
  have hvalid : c.toNat < 0xd800 ∨ 0xdfff < c.toNat ∧ c.toNat < 0x110000 := c.valid
  generalize hn : c.toNat = n at hchar hvalid
  have hv : c.val.toNat = n := hn
  unfold String.utf8EncodeChar
  simp only [hv]
  split_ifs with h₁ h₂ h₃
  · -- one byte: the code point itself
    rw [List.singleton_append, decodeFrom_cons (lead?_one (by omega)) rfl, hchar]
    rfl
  · -- two bytes
    have hc : continuation start 1 1 0x80 0xbf (n / 64) (tailByte n :: rest)
        = .ok (n, rest) := by
      have hcode : n / 64 * 64 + n % 64 = n := by omega
      rw [continuation_tailByte, hcode, continuation]
    exact (decodeFrom_cons (lead?_two (by omega) (by omega)) hc).trans (by rw [hchar]; rfl)
  · -- three bytes
    have hb : (UInt8.ofNat (n / 64 % 0x40 + 0x80)).toNat = n / 64 % 0x40 + 0x80 :=
      toNat_ofNat (by omega)
    have hc : continuation start 1 2 (if n / 4096 = 0 then 0xa0 else 0x80)
        (if n / 4096 = 13 then 0x9f else 0xbf) (n / 4096)
        (UInt8.ofNat (n / 64 % 0x40 + 0x80) :: tailByte n :: rest) = .ok (n, rest) := by
      have hcode : (n / 4096 * 64 + (n / 64 % 0x40 + 0x80) % 64) * 64 + n % 64 = n := by omega
      rw [continuation_cons (by rw [hb]; split_ifs <;> omega), hb, continuation_tailByte,
        hcode, continuation]
    exact (decodeFrom_cons (lead?_three (by omega) (by omega)) hc).trans (by rw [hchar]; rfl)
  · -- four bytes
    have hb : (UInt8.ofNat (n / 4096 % 0x40 + 0x80)).toNat = n / 4096 % 0x40 + 0x80 :=
      toNat_ofNat (by omega)
    have hc : continuation start 1 3 (if n / 262144 = 0 then 0x90 else 0x80)
        (if n / 262144 = 4 then 0x8f else 0xbf) (n / 262144)
        (UInt8.ofNat (n / 4096 % 0x40 + 0x80) :: tailByte (n / 64) :: tailByte n :: rest)
        = .ok (n, rest) := by
      have hcode : ((n / 262144 * 64 + (n / 4096 % 0x40 + 0x80) % 64) * 64 + n / 64 % 64) * 64
          + n % 64 = n := by omega
      rw [continuation_cons (by rw [hb]; split_ifs <;> omega), hb, continuation_tailByte,
        continuation_tailByte, hcode, continuation]
    exact (decodeFrom_cons (lead?_four (by omega) (by omega)) hc).trans (by rw [hchar]; rfl)

/-! ## Texts -/

/-- **Reading what was written**, from any offset on, by induction on the text.
The offset matters to errors only, and there are none. -/
theorem decodeFrom_encode (start : Nat) (s : List Char) : decodeFrom start (encode s) = .ok s := by
  induction s generalizing start with
  | nil => rw [encode_nil, decodeFrom]
  | cons c s ih =>
    show decodeFrom start (String.utf8EncodeChar c ++ encode s) = _
    rw [decodeFrom_utf8EncodeChar, ih]

/-- **Reading UTF-8 undoes writing it.** -/
@[simp] theorem decode_encode (s : List Char) : decode (encode s) = .ok s :=
  decodeFrom_encode 0 s

/-- **No two texts have the same form.** -/
theorem encode_injective : Function.Injective encode := fun s t h => by
  have hs := decode_encode s
  rw [h, decode_encode] at hs
  exact (Except.ok.inj hs).symm

@[simp] theorem decode?_encode (s : String) : decode? (encode s.toList) = some s := by
  rw [decode?, decode_encode]
  exact congrArg some String.ofList_toList

/-- **Bytes of the basic alphabet are a text**, however they are cut. -/
theorem decode?_of_ascii {b : Bytes} (h : ∀ x ∈ b, x.toNat < 128) :
    decode? b = some (String.ofList (b.map fun x => Char.ofNat x.toNat)) := by
  have hform : encode (String.ofList (b.map fun x => Char.ofNat x.toNat)).toList = b := by
    rw [String.toList_ofList, encode_map_charOfByte h]
  rw [← hform, decode?_encode, hform]

end CertAuthority.Text.Utf8
