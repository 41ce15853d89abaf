import CertAuthority.Der.Element
import CertAuthority.Der.Encode
import CertAuthority.Proofs.Bytes
import Mathlib.Tactic.SplitIfs

/-!
# What is written can be read

A reader *reads* a value from an encoding (`Der.Reads`) when it takes the
encoding off any byte string that begins with it and leaves the rest. That
property composes: an element is read when its content is, a sequence of items
when each item is. Every encoder of the authority is matched with the reader
of its type this way, from elements up to whole certificates.

The one thing that can go wrong with an encoding is that it is longer than a
length can say. `Reads` speaks of encodings below that size only (`IsSized`),
and the parts of an encoding are no longer than the whole, so the condition is
asked for once, of the whole, and handed down to the parts. It is also the
only one: an element that is longer is not read to its end
(`isSized_of_readElement?`), so what is read of an encoding has the size that
it must have.

Elements are encoded under a mark, the byte of their identifier. The authority
uses marks whose tag number fits that byte, which excludes one value of its
lower five bits, and every lemma about an element carries that as a hypothesis
that `decide` settles wherever the mark is given.
-/

namespace CertAuthority.Der

variable {α β : Type}

/-! ## Sizes -/

/-- **An encoding that a length can be given for.** Readers count in 64 bits and
refuse lengths beyond them. -/
def IsSized (b : Bytes) : Prop := b.length < 2 ^ 64

theorem length_le_encode (mark : UInt8) (content : Bytes) :
    content.length ≤ (encode mark content).length := by
  unfold encode
  rw [List.cons_append, List.length_cons, List.length_append]
  exact (Nat.le_add_left _ _).trans (Nat.le_succ _)

namespace IsSized

variable {a b : Bytes}

/-- The first part of an encoding that is sized is sized. -/
theorem left (h : IsSized (a ++ b)) : IsSized a := by
  rw [IsSized, List.length_append] at h
  exact (Nat.le_add_right _ _).trans_lt h

theorem right (h : IsSized (a ++ b)) : IsSized b := by
  rw [IsSized, List.length_append] at h
  exact (Nat.le_add_left _ _).trans_lt h

theorem content {mark : UInt8} (h : IsSized (encode mark a)) : IsSized a :=
  (length_le_encode mark a).trans_lt h

end IsSized

/-! ## Identifiers and lengths

A length is a byte, or a byte that says how many others there are and then
those. A writer does not check that their number fits its byte. So whether a
length can be read back depends on how large it is, and the bound is the one
condition on everything that is written. -/

/-- The identifier with a given byte: its class in two bits, its form in one,
and the tag number in the other five. -/
def identifierOf (mark : UInt8) : Identifier :=
  ⟨TagClass.ofBits (mark.toNat / 64), mark.toNat / 32 % 2 = 1, mark.toNat % 32⟩

/-- An identifier of one byte is read off, and the length comes next. -/
theorem readIdentifier?_cons {mark : UInt8} (hmark : mark.toNat % 32 ≠ 31) (rest : Bytes) :
    readIdentifier? (mark :: rest) = some (identifierOf mark, rest) :=
  if_neg hmark

/-- **A length can be read back if it can be counted**, and is refused if it
cannot. The bound is on the bytes that the number of its digits takes: beyond it
there is no byte for that number. -/
theorem readLength?_encodeLength_eq {n : Nat} (h : n < 256 ^ 126) (rest : Bytes) :
    readLength? (encodeLength n ++ rest) = if n < 2 ^ 64 then some (some n, rest) else none := by
  unfold encodeLength
  by_cases hshort : n < 128
  · have hbyte : (UInt8.ofNat n).toNat = n := by
      rw [UInt8.toNat_ofNat', Nat.mod_eq_of_lt (hshort.trans (by decide))]
    rw [if_pos hshort, if_pos (hshort.trans (by decide)), List.singleton_append]
    show (if (UInt8.ofNat n).toNat < 128 then _ else _) = _
    rw [hbyte, if_pos hshort]
  · have hn : n ≠ 0 := fun hzero => hshort (hzero ▸ by decide)
    obtain ⟨x, tail, hx, -⟩ := Bytes.ofNat_eq_cons hn
    have hpos : 1 ≤ (Bytes.ofNat n).length := by
      rw [hx]
      exact Nat.succ_pos _
    have hle : (Bytes.ofNat n).length ≤ 126 := Bytes.length_ofNat_le h
    have hbyte : (UInt8.ofNat (128 + (Bytes.ofNat n).length)).toNat
        = 128 + (Bytes.ofNat n).length := by
      rw [UInt8.toNat_ofNat', Nat.mod_eq_of_lt (by omega)]
    rw [if_neg hshort, List.cons_append]
    show (if (UInt8.ofNat (128 + (Bytes.ofNat n).length)).toNat < 128 then _ else _) = _
    rw [hbyte, if_neg (by omega), if_neg (by omega), if_neg (by omega), Nat.add_sub_cancel_left,
      Bytes.splitAt?_append]
    show (if Bytes.toNat (Bytes.ofNat n) < 2 ^ 64 then _ else _) = _
    rw [Bytes.toNat_ofNat]

theorem readLength?_encodeLength {n : Nat} (h : n < 2 ^ 64) (rest : Bytes) :
    readLength? (encodeLength n ++ rest) = some (some n, rest) := by
  rw [readLength?_encodeLength_eq (h.trans (by decide)), if_pos h]

/-- A length takes few bytes, and says less than can be counted. What is left
behind it is therefore almost as long as it was, which bounds an element that
holds all of it. -/
theorem readLength?_bounds {n : Nat} {b rest : Bytes} (h : readLength? b = some (some n, rest)) :
    n < 2 ^ 64 ∧ b.length ≤ rest.length + 127 := by
  match b with
  | [] => exact absurd h (by simp [readLength?])
  | x :: tail =>
    unfold readLength? at h
    dsimp only at h
    split_ifs at h with hshort hopen hlast
    · simp only [Option.some.injEq, Prod.mk.injEq] at h
      obtain ⟨rfl, rfl⟩ := h
      exact ⟨hshort.trans (by decide), by simp⟩
    · simp at h
    · simp only [Option.bind_eq_bind, Option.bind_eq_some_iff, Prod.exists] at h
      obtain ⟨digits, rest', hsplit, h⟩ := h
      obtain ⟨htail, hdigits⟩ := Bytes.eq_append_of_splitAt? hsplit
      split_ifs at h with hsmall
      simp only [Option.some.injEq, Prod.mk.injEq] at h
      obtain ⟨rfl, rfl⟩ := h
      have hx : x.toNat < 256 := UInt8.toNat_lt x
      refine ⟨hsmall, ?_⟩
      rw [List.length_cons, htail, List.length_append, hdigits]
      omega

/-! ## Elements

What is written is read back in front of anything. That is said of the reader
of an encoding, and not of a byte string alone (`Reads`), as the parts of a
certificate stand one after another. An element that is read inside of another
one is sized if that is, and so the bound is asked for once, on the outermost.
-/

/-- **A reader reads a value from an encoding**: it takes the encoding off any
byte string that begins with it. That the rest is left as it is makes one
reading go on where another has ended. -/
def Reads (read : Bytes → Option (α × Bytes)) (b : Bytes) (a : α) : Prop :=
  IsSized b → ∀ rest, read (b ++ rest) = some (a, rest)

/-- What comes after a value that is read goes on with what is left. -/
theorem Reads.bind {read : Bytes → Option (α × Bytes)} {b : Bytes} {a : α} (h : Reads read b a)
    (hsized : IsSized b) (rest : Bytes) (f : α × Bytes → Option β) :
    (read (b ++ rest) >>= f) = f (a, rest) := by
  rw [h hsized rest]
  rfl

/-- At the end of an encoding nothing is left. -/
theorem Reads.bind_last {read : Bytes → Option (α × Bytes)} {b : Bytes} {a : α}
    (h : Reads read b a) (hsized : IsSized b) (f : α × Bytes → Option β) :
    (read b >>= f) = f (a, []) := by
  have hbind := h.bind hsized [] f
  rwa [List.append_nil] at hbind

variable {mark : UInt8} {content : Bytes}

/-- Of an element first the identifier and the length are read. What is left is
its content, and all that comes after. -/
theorem readHeader?_encode (hmark : mark.toNat % 32 ≠ 31) (h : IsSized content) (rest : Bytes) :
    readHeader? (encode mark content ++ rest)
      = some ((identifierOf mark, content.length), content ++ rest) := by
  unfold readHeader? encode
  rw [List.cons_append, List.cons_append, readIdentifier?_cons hmark, List.append_assoc]
  show (readLength? (encodeLength content.length ++ (content ++ rest))).bind _ = _
  rw [readLength?_encodeLength h]
  rfl

/-- An element is read if the length of its content can be counted. -/
theorem readElement?_encode (hmark : mark.toNat % 32 ≠ 31) (h : IsSized content) (rest : Bytes) :
    readElement? (encode mark content ++ rest) = some (⟨identifierOf mark, content⟩, rest) := by
  unfold readElement?
  rw [readHeader?_encode hmark h]
  show (Bytes.splitAt? content.length (content ++ rest)).bind _ = _
  rw [Bytes.splitAt?_append]
  rfl

/-- **Elements are read**, whatever they hold. -/
theorem reads_element (hmark : mark.toNat % 32 ≠ 31) :
    Reads readElement? (encode mark content) ⟨identifierOf mark, content⟩ := fun h rest =>
  readElement?_encode hmark h.content rest

/-- **Only an element whose length can be counted is read whole.** A longer one
has a length that is refused or, if the number of its digits does not fit its
byte, one that is too small, so that something is left over. -/
theorem isSized_of_readElement? (hmark : mark.toNat % 32 ≠ 31) {e : Element}
    (h : readElement? (encode mark content) = some (e, [])) : IsSized content := by
  by_contra hlong
  have hlow : 2 ^ 64 ≤ content.length := Nat.le_of_not_lt hlong
  unfold readElement? readHeader? encode at h
  rw [List.cons_append, readIdentifier?_cons hmark] at h
  simp only [Option.bind_eq_bind, Option.bind_some] at h
  match hlength : readLength? (encodeLength content.length ++ content) with
  | none => simp [hlength] at h
  | some (none, rest) => simp [hlength] at h
  | some (some n, rest) =>
    -- the length that is read is that of all that is left
    have hrest : rest.length = n := by
      simp only [hlength, Option.bind_some, Option.bind_eq_some_iff, Prod.exists, Option.pure_def,
        Option.some.injEq, Prod.mk.injEq] at h
      obtain ⟨inner, last, hsplit, -, rfl⟩ := h
      obtain ⟨hinner, hsize⟩ := Bytes.eq_append_of_splitAt? hsplit
      rw [hinner, List.append_nil, hsize]
    obtain ⟨hsmall, hheader⟩ := readLength?_bounds hlength
    rw [List.length_append, hrest] at hheader
    have hhigh : content.length < 2 ^ 64 + 127 := by omega
    rw [readLength?_encodeLength_eq (hhigh.trans (by decide)), if_neg (Nat.not_lt.2 hlow)] at hlength
    exact absurd hlength (by simp)

/-- An element is read, too, by the reader that also takes elements without a
length, which run up to an end mark. -/
theorem reads_basic (hmark : mark.toNat % 32 ≠ 31) :
    Reads readBasic? (encode mark content) ⟨identifierOf mark, content⟩ := by
  intro h rest
  unfold readBasic? encode
  rw [List.cons_append, List.cons_append, readIdentifier?_cons hmark, List.append_assoc]
  show (readLength? (encodeLength content.length ++ (content ++ rest))).bind _ = _
  rw [readLength?_encodeLength h.content]
  show (Bytes.splitAt? content.length (content ++ rest)).bind _ = _
  rw [Bytes.splitAt?_append]
  rfl

/-- An element is read by a reader that expects its tag. -/
theorem readTagged?_encode (hmark : mark.toNat % 32 ≠ 31) (h : IsSized content) (rest : Bytes) :
    readTagged? (mark.toNat % 32) (encode mark content ++ rest)
      = some (⟨identifierOf mark, content⟩, rest) := by
  unfold readTagged?
  rw [readElement?_encode hmark h rest]
  exact if_pos rfl

/-- **Elements with the tag that is expected are read.** -/
theorem reads_tagged (hmark : mark.toNat % 32 ≠ 31) :
    Reads (readTagged? (mark.toNat % 32)) (encode mark content) ⟨identifierOf mark, content⟩ :=
  fun h rest => readTagged?_encode hmark h.content rest

/-- An element of the primitive form is read for its content, where that form is
asked for. -/
theorem reads_primitive (hmark : mark.toNat % 32 ≠ 31) (hform : mark.toNat / 32 % 2 ≠ 1) :
    Reads (readPrimitive? (mark.toNat % 32)) (encode mark content) content := by
  intro h rest
  unfold readPrimitive?
  rw [reads_tagged hmark h rest]
  have hprimitive : (identifierOf mark).constructed = false := decide_eq_false hform
  show (if (identifierOf mark).constructed then none else some (content, rest)) = _
  rw [hprimitive]
  rfl

/-- **An element is read when its content is**, whatever the reader of the
content leaves. Readers of fixed parts of a certificate look no further than the
parts they know. -/
theorem readInside?_encode {read : Bytes → Option (α × Bytes)} {a : α} {left : Bytes}
    (hmark : mark.toNat % 32 ≠ 31) (h : IsSized content) (hread : read content = some (a, left))
    (rest : Bytes) :
    readInside? (mark.toNat % 32) read (encode mark content ++ rest) = some (a, rest) := by
  unfold readInside?
  rw [readTagged?_encode hmark h rest]
  show (read content).bind _ = _
  rw [hread]
  rfl

/-- **What is inside an element is read**, if a reader reads it off the content.
-/
theorem reads_inside {read : Bytes → Option (α × Bytes)} {a : α} (hmark : mark.toNat % 32 ≠ 31)
    (hread : IsSized content → ∃ rest, read content = some (a, rest)) :
    Reads (readInside? (mark.toNat % 32) read) (encode mark content) a := by
  intro h rest
  obtain ⟨left, hleft⟩ := hread h.content
  exact readInside?_encode hmark h.content hleft rest

/-- **Only an element whose length can be counted is read to its end**, by a
reader of its content as well. -/
theorem isSized_of_readInside? {read : Bytes → Option (α × Bytes)} {a : α} {number : Nat}
    (hmark : mark.toNat % 32 ≠ 31)
    (h : readInside? number read (encode mark content) = some (a, [])) : IsSized content := by
  unfold readInside? readTagged? at h
  simp only [Option.bind_eq_bind, Option.bind_eq_some_iff, Prod.exists, Option.pure_def,
    Option.some.injEq, Prod.mk.injEq] at h
  obtain ⟨e, rest, ⟨e', rest', helement, htag⟩, a', left, -, -, rfl⟩ := h
  split_ifs at htag
  simp only [Option.some.injEq, Prod.mk.injEq] at htag
  obtain ⟨-, rfl⟩ := htag
  exact isSized_of_readElement? hmark helement

/-- No element is encoded as nothing, so a reader of items gets on with each. -/
theorem encode_ne_nil (mark : UInt8) (content : Bytes) : encode mark content ≠ [] :=
  List.cons_ne_nil _ _

/-! ## Items one after another -/

/-- **Items are read one by one** up to the end. Each has to be something, or
the reader would not know that it is there. -/
theorem readMany_flatten {read : Bytes → Option (β × Bytes)} (hnil : read [] = none)
    {enc : α → Bytes} {val : α → β} (xs : List α)
    (hread : ∀ x ∈ xs, Reads read (enc x) (val x)) (hne : ∀ x ∈ xs, enc x ≠ [])
    (h : IsSized (xs.map enc).flatten) :
    readMany read (xs.map enc).flatten = (xs.map val, []) := by
  induction xs with
  | nil =>
    rw [List.map_nil, List.flatten_nil, readMany, hnil]
    rfl
  | cons x xs ih =>
    rw [List.map_cons, List.flatten_cons] at h ⊢
    have hfirst := hread x List.mem_cons_self h.left (xs.map enc).flatten
    have hshorter : (xs.map enc).flatten.length < (enc x ++ (xs.map enc).flatten).length := by
      rw [List.length_append]
      exact Nat.lt_add_of_pos_left (List.length_pos_iff.2 (hne x List.mem_cons_self))
    rw [readMany, hfirst]
    dsimp only
    rw [dif_pos hshorter, ih (fun y hy => hread y (List.mem_cons_of_mem _ hy))
      (fun y hy => hne y (List.mem_cons_of_mem _ hy)) h.right]
    rfl

/-- Where all of a byte string has to be items, they are read and nothing is
left. -/
theorem readAll?_flatten {read : Bytes → Option (β × Bytes)} (hnil : read [] = none)
    {enc : α → Bytes} {val : α → β} (xs : List α)
    (hread : ∀ x ∈ xs, Reads read (enc x) (val x)) (hne : ∀ x ∈ xs, enc x ≠ [])
    (h : IsSized (xs.map enc).flatten) :
    readAll? read (xs.map enc).flatten = some (xs.map val) := by
  unfold readAll?
  rw [readMany_flatten hnil xs hread hne h]

/-! ## Values -/

theorem reads_oid (o : Oid) : Reads Oid.read? o.encode o := by
  intro h rest
  unfold Oid.read? Oid.encode
  rw [reads_element (by decide) h rest]
  rfl

/-- A bit string of whole bytes is read back. -/
theorem reads_bitString (b : Bytes) : Reads BitString.read? (bitString 0 b) ⟨0, b⟩ := by
  intro h rest
  have hexact : (⟨0, b⟩ : BitString).isExact = true := by
    unfold BitString.isExact
    cases b.getLast? with
    | none => rfl
    | some last =>
      show (decide (0 < 8) && last.toNat % 2 ^ 0 == 0) = true
      rw [Nat.pow_zero, Nat.mod_one]
      rfl
  unfold BitString.read?
  have hprimitive : readPrimitive? Tag.bitString (bitString 0 b ++ rest) = some (0 :: b, rest) :=
    reads_primitive (by decide) (by decide) h rest
  rw [hprimitive]
  show (if (⟨0, b⟩ : BitString).isExact = true then _ else _) = _
  rw [hexact]
  rfl

/-- The content of an integer says the number. A zero byte may stand before it,
to keep the sign. -/
theorem toNat_integerContent (n : Nat) : Bytes.toNat (integerContent n) = n := by
  have hn := Bytes.toNat_ofNat n
  unfold integerContent
  cases hb : Bytes.ofNat n with
  | nil =>
    rw [hb] at hn
    exact hn
  | cons b rest =>
    rw [hb] at hn
    show Bytes.toNat (if b.toNat < 128 then b :: rest else 0 :: b :: rest) = n
    split_ifs
    · exact hn
    · rw [Bytes.toNat_cons, hn]
      show 0 * _ + n = n
      rw [Nat.zero_mul, Nat.zero_add]

end CertAuthority.Der
