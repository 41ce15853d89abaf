import CertAuthority.Proofs.Der.Prefix

/-!
# Items one after another

A byte string is a *series* (`Der.Series`) if it can be cut into pieces of
which each is one item and nothing else. A reader that takes items as long as
there are any, and has to come to the end, reads exactly the series, and as
the items that they are cut into (`readAll?_eq_some_iff`), provided that the
reader of an item is local and does not read items off nothing. So there is
one way at most to cut a series, and no byte of it is passed over.

The value of an extension is read as a sequence of elements up to the end of
that sequence and no further. `BeginsWith` says all there is to such a value,
the bytes behind the sequence included, and `IsSequence` that it is a sequence
and nothing else.
-/

namespace CertAuthority.Der

variable {α β : Type} {read : Bytes → Option (α × Bytes)}

/-- **A byte string that is items, one after another**, each of them read with
all of its bytes. -/
inductive Series (read : Bytes → Option (α × Bytes)) : Bytes → List α → Prop
  /-- No bytes are no items. -/
  | nil : Series read [] []
  /-- One item, and then others. -/
  | cons {item b : Bytes} {a : α} {as : List α} (first : read item = some (a, []))
      (others : Series read b as) : Series read (item ++ b) (a :: as)

/-- What is read first is the first item. -/
theorem readMany_of_shorter {b rest : Bytes} {a : α} (h : read b = some (a, rest))
    (hshorter : rest.length < b.length) :
    readMany read b = (a :: (readMany read rest).1, (readMany read rest).2) := by
  rw [readMany, h]
  exact dif_pos hshorter

/-- What was read item by item up to the end is a series. -/
theorem series_of_readMany (hlocal : IsLocal read) (hnil : read [] = none) {b : Bytes}
    {as : List α} (h : readMany read b = (as, [])) : Series read b as := by
  induction b using readMany.induct read generalizing as with
  | case1 b hnone =>
    rw [readMany, hnone] at h
    obtain ⟨rfl, rfl⟩ := Prod.mk.inj h
    exact .nil
  | case2 b a rest hread hshorter as' last hmany ih =>
    rw [readMany_of_shorter hread hshorter] at h
    obtain ⟨rfl, hlast⟩ := Prod.mk.inj h
    obtain ⟨item, rfl, hitem⟩ := hlocal hread
    have hfirst := hitem []
    rw [List.append_nil] at hfirst
    exact .cons hfirst (ih (Prod.ext rfl hlast))
  | case3 b a rest hread hlonger =>
    rw [readMany, hread] at h
    dsimp only at h
    rw [dif_neg hlonger] at h
    obtain ⟨rfl, rfl⟩ := Prod.mk.inj h
    rw [hnil] at hread
    cases hread

/-- A series is read item by item up to its end. -/
theorem Series.readMany (hlocal : IsLocal read) (hnil : read [] = none) {b : Bytes} {as : List α}
    (h : Series read b as) : readMany read b = (as, []) := by
  induction h with
  | nil =>
    rw [Der.readMany, hnil]
  | @cons item b a as first others ih =>
    have hread := hlocal.read_append first b
    have hitem : item ≠ [] := by
      rintro rfl
      rw [hnil] at first
      cases first
    have hshorter : b.length < (item ++ b).length := by
      rw [List.length_append]
      exact Nat.lt_add_of_pos_left (List.length_pos_iff.2 hitem)
    rw [readMany_of_shorter hread hshorter, ih]

/-- **All of a byte string is read as items exactly if it is these items**, one
after another. -/
theorem readAll?_eq_some_iff (hlocal : IsLocal read) (hnil : read [] = none) {b : Bytes}
    {as : List α} : readAll? read b = some as ↔ Series read b as := by
  unfold readAll?
  constructor
  · intro h
    split at h
    · rename_i as' hmany
      obtain rfl := Option.some.inj h
      exact series_of_readMany hlocal hnil hmany
    · cases h
  · intro h
    rw [h.readMany hlocal hnil]

/-- **What an element holds**: items and nothing else. What comes after the
element does not matter. -/
theorem readInside?_readAll?_eq_some_iff (hlocal : IsLocal read) (hnil : read [] = none)
    {number : Nat} {b rest : Bytes} {as : List α} :
    readInside? number (fun b => (readAll? read b).map (·, [])) b = some (as, rest)
      ↔ ∃ e, readElement? b = some (e, rest) ∧ e.number = number ∧ Series read e.content as := by
  rw [readInside?_eq_some_iff]
  constructor
  · rintro ⟨e, left, helement, hnumber, hread⟩
    obtain ⟨as', has, hpair⟩ := Option.map_eq_some_iff.1 hread
    obtain ⟨rfl, -⟩ := Prod.mk.inj hpair
    exact ⟨e, helement, hnumber, (readAll?_eq_some_iff hlocal hnil).1 has⟩
  · rintro ⟨e, helement, hnumber, hseries⟩
    refine ⟨e, [], helement, hnumber, ?_⟩
    rw [(readAll?_eq_some_iff hlocal hnil).2 hseries]
    rfl

/-- **Items that are made of other items**, one of each. -/
theorem series_check_iff {make : α → Option β} {b : Bytes} {cs : List β} :
    Series (fun b => (read b).bind fun x => (make x.1).map (·, x.2)) b cs
      ↔ ∃ as, Series read b as ∧ as.mapM make = some cs := by
  constructor
  · intro h
    induction h with
    | nil => exact ⟨[], .nil, rfl⟩
    | cons first others ih =>
      obtain ⟨as, hseries, hmake⟩ := ih
      obtain ⟨⟨a, rest⟩, hread, hpair⟩ := Option.bind_eq_some_iff.1 first
      obtain ⟨c, hc, hpair⟩ := Option.map_eq_some_iff.1 hpair
      obtain ⟨rfl, rfl⟩ := Prod.mk.inj hpair
      refine ⟨a :: as, .cons hread hseries, ?_⟩
      rw [List.mapM_cons, hc, hmake]
      rfl
  · rintro ⟨as, hseries, hmake⟩
    induction hseries generalizing cs with
    | nil =>
      obtain rfl := Option.some.inj hmake
      exact .nil
    | @cons item b a as first others ih =>
      rw [List.mapM_cons] at hmake
      obtain ⟨c, hc, hmake⟩ := Option.bind_eq_some_iff.1 hmake
      obtain ⟨cs', hcs, hmake⟩ := Option.bind_eq_some_iff.1 hmake
      obtain rfl := Option.some.inj hmake
      refine .cons ?_ (ih hcs)
      rw [first, Option.bind_some, hc]
      rfl

/-! ## Values that are sequences -/

theorem readAll?_readElement?_eq_some_iff {b : Bytes} {entries : List Element} :
    readAll? readElement? b = some entries ↔ Series readElement? b entries :=
  readAll?_eq_some_iff isLocal_readElement? rfl

/-- **What a value begins with**: a sequence of elements, with some bytes behind
it. Of the tag of the sequence only the number is looked at. -/
structure BeginsWith (value : Bytes) (sequence : Element) (entries : List Element)
    (rest : Bytes) : Prop where
  /-- The sequence is the first element. -/
  read : readElement? value = some (sequence, rest)
  /-- Its tag has the number of sequences. -/
  number : sequence.number = Tag.sequence
  /-- It holds the entries and nothing else. -/
  series : Series readElement? sequence.content entries

/-- A value begins with one sequence. -/
theorem BeginsWith.unique {value rest rest' : Bytes} {sequence sequence' : Element}
    {entries entries' : List Element} (h : BeginsWith value sequence entries rest)
    (h' : BeginsWith value sequence' entries' rest') :
    sequence' = sequence ∧ entries' = entries ∧ rest' = rest := by
  obtain ⟨rfl, rfl⟩ := Prod.mk.inj (Option.some.inj (h'.read.symm.trans h.read))
  have hentries := (readAll?_readElement?_eq_some_iff.2 h'.series).symm.trans
    (readAll?_readElement?_eq_some_iff.2 h.series)
  exact ⟨rfl, Option.some.inj hentries, rfl⟩

/-- The identifier of a sequence. -/
def sequenceIdentifier : Identifier := ⟨.universal, true, Tag.sequence⟩

/-- **A value that is a sequence** of the given elements: it is tagged as one,
and there is nothing behind it. -/
def IsSequence (value : Bytes) (entries : List Element) : Prop :=
  ∃ content, BeginsWith value ⟨sequenceIdentifier, content⟩ entries []

end CertAuthority.Der
