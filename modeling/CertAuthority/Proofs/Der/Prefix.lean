import CertAuthority.Certificate.Contents
import CertAuthority.Proofs.Bytes
import Mathlib.Tactic.SplitIfs

/-!
# What a reader takes

A reader takes the beginning of a byte string and leaves the rest. It is
*local* (`Der.IsLocal`) when the rest does not matter: the beginning is a byte
string of its own, and the reader takes it off whatever it is put in front of.
The readers of elements are local, and so are those that are put together from
local ones. A reader that goes on to the end of what it is given is not, which
is why items one after another are read inside an element only.

So an element that was cut out of a certificate is still the element that was
read there, and a public key that was kept as bytes can be read from them once
more. What exactly is cut out of a longer byte string by a reader that keeps
the bytes is said in `exists_header_of_readKept?`.

Locality is also why encodings are prefix-free. If a reader takes all of a
byte string, it takes nothing of a proper beginning of it: on the longer one
it would have stopped there (`IsLocal.read_eq_none`).
-/

namespace CertAuthority.Der

variable {α β : Type}

/-- **A reader to which the rest does not matter.** The bytes that it has taken
are there, in front of what is left, and it takes them wherever they are. -/
def IsLocal (read : Bytes → Option (α × Bytes)) : Prop :=
  ∀ ⦃b a rest⦄, read b = some (a, rest) →
    ∃ taken, b = taken ++ rest ∧ ∀ rest', read (taken ++ rest') = some (a, rest')

/-- What was read is found again in front of anything else. -/
theorem IsLocal.read_append {read : Bytes → Option (α × Bytes)} (hread : IsLocal read) {b : Bytes}
    {a : α} (h : read b = some (a, [])) (rest : Bytes) : read (b ++ rest) = some (a, rest) := by
  obtain ⟨taken, htaken, htake⟩ := hread h
  rw [List.append_nil] at htaken
  exact htaken ▸ htake rest

/-- **Nothing is read of a beginning** of what is read to its end. -/
theorem IsLocal.read_eq_none {read : Bytes → Option (α × Bytes)} (hread : IsLocal read)
    {b b' : Bytes} {a : α} (h : read b = some (a, [])) (hstart : b' <+: b) (hne : b' ≠ b) :
    read b' = none := by
  obtain ⟨s, rfl⟩ := hstart
  match hb' : read b' with
  | none => rfl
  | some (a', rest) =>
    -- what was read of the beginning would leave something of the whole
    obtain ⟨taken, rfl, htake⟩ := hread hb'
    rw [List.append_assoc, htake] at h
    have hnil := (Prod.mk.inj (Option.some.inj h)).2
    rw [(List.append_eq_nil_iff.1 hnil).2, List.append_nil] at hne
    exact absurd rfl hne

/-- One reader after the other. -/
theorem IsLocal.bind {read : Bytes → Option (α × Bytes)} {next : α → Bytes → Option (β × Bytes)}
    (hread : IsLocal read) (hnext : ∀ a, IsLocal (next a)) :
    IsLocal fun b => (read b).bind fun x => next x.1 x.2 := by
  intro b c rest h
  obtain ⟨⟨a, middle⟩, ha, hc⟩ := Option.bind_eq_some_iff.1 h
  obtain ⟨first, rfl, hfirst⟩ := hread ha
  obtain ⟨second, rfl, hsecond⟩ := hnext a hc
  refine ⟨first ++ second, (List.append_assoc _ _ _).symm, fun rest' => ?_⟩
  dsimp only
  rw [List.append_assoc, hfirst, Option.bind_some]
  exact hsecond rest'

/-- A value that is made of what was read, if it can be. -/
theorem IsLocal.check {read : Bytes → Option (α × Bytes)} (hread : IsLocal read)
    (make : α → Option β) : IsLocal fun b => (read b).bind fun x => (make x.1).map (·, x.2) := by
  have hmake : ∀ a, IsLocal fun b => (make a).map (·, b) := by
    intro a b c rest h
    obtain ⟨c', hc, hpair⟩ := Option.map_eq_some_iff.1 h
    obtain ⟨rfl, rfl⟩ := Prod.mk.inj hpair
    refine ⟨[], rfl, fun rest' => ?_⟩
    rw [List.nil_append, hc]
    rfl
  exact hread.bind hmake

/-! ## Elements

The reader of an element is put together of readers of its tag number, its
length and its content, and each of them says in its first bytes how many it
takes. That is kept when one follows another, and when the content is read by
whatever reader, because the content is cut out beforehand. -/

/-- A long tag number ends at the first byte that says so. -/
theorem isLocal_readLongTag? (left acc : Nat) : IsLocal (readLongTag? left acc) := by
  induction left generalizing acc with
  | zero =>
    intro b a rest h
    cases h
  | succ left ih =>
    intro b a rest h
    cases b with
    | nil => cases h
    | cons x b =>
      unfold readLongTag? at h
      dsimp only at h
      split_ifs at h with hlast
      · obtain ⟨rfl, rfl⟩ := Prod.mk.inj (Option.some.inj h)
        exact ⟨[x], rfl, fun rest' => if_pos hlast⟩
      · obtain ⟨taken, rfl, htaken⟩ := ih _ h
        exact ⟨x :: taken, rfl, fun rest' => (if_neg hlast).trans (htaken rest')⟩

/-- An identifier is a byte, or a byte and a long tag number. -/
theorem isLocal_readIdentifier? : IsLocal readIdentifier? := by
  intro b a rest h
  cases b with
  | nil => cases h
  | cons x b =>
    unfold readIdentifier? at h
    dsimp only at h
    split_ifs at h with hlong
    · obtain ⟨⟨number, rest'⟩, hnumber, hpair⟩ := Option.map_eq_some_iff.1 h
      obtain ⟨rfl, rfl⟩ := Prod.mk.inj hpair
      obtain ⟨taken, rfl, htaken⟩ := isLocal_readLongTag? 5 0 hnumber
      refine ⟨x :: taken, rfl, fun rest'' => ?_⟩
      rw [List.cons_append]
      show (if x.toNat % 32 = 31 then _ else _) = _
      rw [if_pos hlong, htaken]
      rfl
    · obtain ⟨rfl, rfl⟩ := Prod.mk.inj (Option.some.inj h)
      exact ⟨[x], rfl, fun rest' => if_neg hlong⟩

/-- So many bytes are the same bytes in front of anything. -/
theorem isLocal_splitAt? (n : Nat) : IsLocal (Bytes.splitAt? n) := by
  intro b a rest h
  obtain ⟨rfl, rfl⟩ := Bytes.eq_append_of_splitAt? h
  exact ⟨a, rfl, Bytes.splitAt?_append a⟩

/-- A length is a byte, or as many as that byte says. -/
theorem isLocal_readLength? : IsLocal readLength? := by
  intro b a rest h
  cases b with
  | nil => cases h
  | cons x b =>
    unfold readLength? at h
    dsimp only at h
    split_ifs at h with hshort hopen hlast
    · obtain ⟨rfl, rfl⟩ := Prod.mk.inj (Option.some.inj h)
      exact ⟨[x], rfl, fun rest' => if_pos hshort⟩
    · obtain ⟨rfl, rfl⟩ := Prod.mk.inj (Option.some.inj h)
      exact ⟨[x], rfl, fun rest' => (if_neg hshort).trans (if_pos hopen)⟩
    · obtain ⟨⟨digits, rest'⟩, hdigits, h⟩ := Option.bind_eq_some_iff.1 h
      dsimp only at h
      split_ifs at h with hsmall
      obtain ⟨rfl, rfl⟩ := Prod.mk.inj (Option.some.inj h)
      obtain ⟨taken, rfl, htaken⟩ := isLocal_splitAt? _ hdigits
      refine ⟨x :: taken, rfl, fun rest'' => ?_⟩
      rw [List.cons_append]
      show (if x.toNat < 128 then _ else _) = _
      rw [if_neg hshort, if_neg hopen, if_neg hlast, htaken]
      exact if_pos hsmall

theorem isLocal_readHeader? : IsLocal readHeader? := by
  have hlength : ∀ identifier : Identifier, IsLocal fun b =>
      (readLength? b).bind fun x => (x.1.map (identifier, ·)).map (·, x.2) := fun identifier =>
    isLocal_readLength?.check fun length => length.map (identifier, ·)
  have heq : readHeader? = fun b => (readIdentifier? b).bind fun x =>
      (readLength? x.2).bind fun y => (y.1.map (x.1, ·)).map (·, y.2) := by
    funext b
    unfold readHeader?
    refine Option.bind_congr fun x _ => Option.bind_congr fun y _ => ?_
    obtain ⟨length, rest⟩ := y
    cases length <;> rfl
  rw [heq]
  exact isLocal_readIdentifier?.bind hlength

/-- **An element is a header and a content of the length that it says.** -/
theorem readElement?_eq_some_iff {b rest : Bytes} {e : Element} :
    readElement? b = some (e, rest)
      ↔ readHeader? b = some ((e.identifier, e.content.length), e.content ++ rest) := by
  obtain ⟨identifier, content⟩ := e
  unfold readElement?
  constructor
  · intro h
    obtain ⟨⟨⟨identifier', length⟩, body⟩, hheader, h⟩ := Option.bind_eq_some_iff.1 h
    obtain ⟨⟨content', rest'⟩, hsplit, h⟩ := Option.bind_eq_some_iff.1 h
    cases h
    obtain ⟨rfl, rfl⟩ := Bytes.eq_append_of_splitAt? hsplit
    exact hheader
  · intro h
    rw [h]
    show (Bytes.splitAt? content.length (content ++ rest)).bind _ = _
    rw [Bytes.splitAt?_append]
    rfl

/-- **Elements are read locally**: a header says where its element ends. -/
theorem isLocal_readElement? : IsLocal readElement? := by
  intro b e rest h
  obtain ⟨header, rfl, hheader⟩ := isLocal_readHeader? (readElement?_eq_some_iff.1 h)
  refine ⟨header ++ e.content, (List.append_assoc _ _ _).symm, fun rest' => ?_⟩
  rw [readElement?_eq_some_iff, List.append_assoc]
  exact hheader _

/-- A reader that expects a tag reads the elements that have it. -/
theorem readTagged?_eq_some_iff {number : Nat} {b rest : Bytes} {e : Element} :
    readTagged? number b = some (e, rest) ↔ readElement? b = some (e, rest) ∧ e.number = number := by
  unfold readTagged?
  constructor
  · intro h
    obtain ⟨⟨e', rest'⟩, helement, h⟩ := Option.bind_eq_some_iff.1 h
    dsimp only at h
    split_ifs at h with hnumber
    obtain ⟨rfl, rfl⟩ := Prod.mk.inj (Option.some.inj h)
    exact ⟨helement, hnumber⟩
  · rintro ⟨helement, hnumber⟩
    rw [helement]
    exact if_pos hnumber

/-- **To read inside an element** is to read the element and then its content.
What is left of the content is dropped. -/
theorem readInside?_eq_some_iff {number : Nat} {read : Bytes → Option (α × Bytes)} {b rest : Bytes}
    {a : α} : readInside? number read b = some (a, rest)
      ↔ ∃ e left, readElement? b = some (e, rest) ∧ e.number = number
        ∧ read e.content = some (a, left) := by
  unfold readInside?
  constructor
  · intro h
    obtain ⟨⟨e, rest'⟩, htagged, h⟩ := Option.bind_eq_some_iff.1 h
    obtain ⟨⟨a', left⟩, hread, h⟩ := Option.bind_eq_some_iff.1 h
    obtain ⟨rfl, rfl⟩ := Prod.mk.inj (Option.some.inj h)
    obtain ⟨helement, hnumber⟩ := readTagged?_eq_some_iff.1 htagged
    exact ⟨e, left, helement, hnumber, hread⟩
  · rintro ⟨e, left, helement, hnumber, hread⟩
    rw [readTagged?_eq_some_iff.2 ⟨helement, hnumber⟩]
    show (read e.content).bind _ = _
    rw [hread]
    rfl

/-- What is read inside of an element does not make its reader less local,
whatever is read there. -/
theorem isLocal_readInside? (number : Nat) (read : Bytes → Option (α × Bytes)) :
    IsLocal (readInside? number read) := by
  intro b a rest h
  obtain ⟨e, left, helement, hnumber, hread⟩ := readInside?_eq_some_iff.1 h
  obtain ⟨taken, rfl, htaken⟩ := isLocal_readElement? helement
  exact ⟨taken, rfl, fun rest' => readInside?_eq_some_iff.2 ⟨e, left, htaken rest', hnumber, hread⟩⟩

/-- A content that is asked for in the primitive form is read locally. -/
theorem isLocal_readPrimitive? (number : Nat) : IsLocal (readPrimitive? number) := by
  intro b content rest h
  unfold readPrimitive? at h
  obtain ⟨⟨e, rest'⟩, htagged, h⟩ := Option.bind_eq_some_iff.1 h
  dsimp only at h
  split_ifs at h with hform
  obtain ⟨rfl, rfl⟩ := Prod.mk.inj (Option.some.inj h)
  obtain ⟨helement, hnumber⟩ := readTagged?_eq_some_iff.1 htagged
  obtain ⟨taken, rfl, htaken⟩ := isLocal_readElement? helement
  refine ⟨taken, rfl, fun rest'' => ?_⟩
  unfold readPrimitive?
  rw [readTagged?_eq_some_iff.2 ⟨htaken rest'', hnumber⟩]
  exact if_neg hform

theorem isLocal_readBitString? : IsLocal BitString.read? := by
  have heq : BitString.read? = fun b => (readPrimitive? Tag.bitString b).bind fun x =>
      ((BitString.ofContent? x.1).filter BitString.isExact).map (·, x.2) := by
    funext b
    unfold BitString.read?
    refine Option.bind_congr fun x _ => ?_
    obtain ⟨content, rest⟩ := x
    dsimp only
    cases BitString.ofContent? content with
    | none => rfl
    | some s =>
      rw [Option.bind_eq_bind, Option.bind_some, Option.filter_some]
      split_ifs
      · rfl
      · rfl
  rw [heq]
  exact (isLocal_readPrimitive? _).check fun content =>
    (BitString.ofContent? content).filter BitString.isExact

/-! ## What is kept of an element -/

/-- **What a reader that keeps the bytes keeps**: the header of an element,
and of its content what the reader of the content took. -/
theorem exists_header_of_readKept? {read : Bytes → Option (α × Bytes)} {b bytes rest : Bytes} {a : α}
    (h : readKept? read b = some ((a, bytes), rest)) :
    ∃ header identifier content left,
      (∀ body, readHeader? (header ++ body) = some ((identifier, content.length), body))
        ∧ b = header ++ content ++ rest ∧ read content = some (a, left)
        ∧ bytes = header ++ content.take (content.length - left.length) := by
  unfold readKept? at h
  obtain ⟨⟨⟨identifier, length⟩, body⟩, hheader, h⟩ := Option.bind_eq_some_iff.1 h
  obtain ⟨⟨e, rest'⟩, htagged, h⟩ := Option.bind_eq_some_iff.1 h
  obtain ⟨⟨a', left⟩, hread, h⟩ := Option.bind_eq_some_iff.1 h
  cases h
  -- the header was read twice, with the same outcome
  have hsame := (readElement?_eq_some_iff.1 (readTagged?_eq_some_iff.1 htagged).1).symm.trans hheader
  obtain ⟨hfirst, rfl⟩ := Prod.mk.inj (Option.some.inj hsame)
  obtain ⟨rfl, rfl⟩ := Prod.mk.inj hfirst
  obtain ⟨header, rfl, hlocal⟩ := isLocal_readHeader? hheader
  refine ⟨header, e.identifier, e.content, left, hlocal, (List.append_assoc _ _ _).symm, hread, ?_⟩
  have hlength : (header ++ (e.content ++ rest)).length - (e.content ++ rest).length
      = header.length := by rw [List.length_append, Nat.add_sub_cancel]
  rw [hlength, List.take_length_add_append, List.take_append_of_le_length (Nat.sub_le _ _)]

/-- A reader that takes the whole content keeps the whole element. -/
theorem readElement?_of_readKept? {read : Bytes → Option (α × Bytes)} {b bytes rest : Bytes} {a : α}
    (h : readKept? read b = some ((a, bytes), rest))
    (hwhole : ∀ content left, read content = some (a, left) → left = []) :
    ∃ e, readElement? b = some (e, rest) ∧ read e.content = some (a, []) ∧ b = bytes ++ rest := by
  obtain ⟨header, identifier, content, left, hheader, rfl, hread, rfl⟩ :=
    exists_header_of_readKept? h
  obtain rfl := hwhole content left hread
  refine ⟨⟨identifier, content⟩, readElement?_eq_some_iff.2 ?_, hread, ?_⟩
  · rw [List.append_assoc]
    exact hheader _
  · rw [List.length_nil, Nat.sub_zero, List.take_length]

end CertAuthority.Der
