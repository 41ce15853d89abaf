import CertAuthority.Certificate.Name
import CertAuthority.Proofs.Bytes
import Mathlib.Tactic.Push
import Mathlib.Tactic.SplitIfs

/-!
# What the text of a name tells

The text of a name is its attributes one after the other, each a label and a
value, with a separator before each but the first. It is made from what the
name *shows*, the labels and the texts of the values (`Name.shown?`), and from
nothing else.

Labels have none of the marks in them that the text is put together with
(`AttributeType.not_mem_marks_of_mem_label`), but values may. A value that has
a separator, a label and an equality sign in it cannot be told from two
attributes. If there is no such value, the text tells all that the name shows:
`Name.text_eq_text_iff` says so of two names without such values, even if one
of them, or both, have a value that cannot be decoded.

The text is cut into segments for the proof, each of a separator, a label, an
equality sign and a value, with a separator put in front of the first. Two
ways of cutting one text could only differ if a segment of the one began
inside a value of the other, or across the end of one. The former is what the
values are not to allow. For the latter it is shown that what begins a segment
overlaps with no other beginning (`eq_nil_of_separator_append`), so that the
parts of a segment that stick out of a value already fill it. Segments show
which attributes begin a set, since the separators differ, and hence the sets
are told apart as well.
-/

namespace CertAuthority

open Der (Oid)

/-- What is in a joined text is in one of the parts or in what joins them. -/
theorem mem_of_mem_intercalate {separator : String} {parts : List String} {c : Char}
    (h : c ∈ (separator.intercalate parts).toList) :
    c ∈ separator.toList ∨ ∃ part ∈ parts, c ∈ part.toList := by
  induction parts with
  | nil =>
    rw [String.intercalate_nil] at h
    cases h
  | cons part parts ih =>
    cases parts with
    | nil =>
      rw [String.intercalate_singleton] at h
      exact Or.inr ⟨part, List.mem_cons_self, h⟩
    | cons part' parts =>
      rw [String.intercalate_cons_cons, String.toList_append, String.toList_append,
        List.mem_append, List.mem_append] at h
      rcases h with (h | h) | h
      · exact Or.inr ⟨part, List.mem_cons_self, h⟩
      · exact Or.inl h
      · rcases ih h with hseparator | ⟨x, hx, hc⟩
        · exact Or.inl hseparator
        · exact Or.inr ⟨x, List.mem_cons_of_mem _ hx, hc⟩

/-- Texts that go on with the same character are told apart at its first
occurrence. -/
theorem append_cons_inj_of_first {α : Type} {a b r t : List α} {x : α} (ha : x ∉ a) (hb : x ∉ b)
    (h : a ++ x :: r = b ++ x :: t) : a = b ∧ r = t := by
  have hother : ∀ {c : List α}, x ∉ c → ∀ y ∈ c, ¬ y = x := fun hc y hy heq => hc (heq ▸ hy)
  obtain ⟨hfront, -, hback⟩ := append_cons_inj_of_not (hother ha) rfl (hother hb) rfl h
  exact ⟨hfront, hback⟩

/-! ## Items that are read one by one -/

section ReadOneByOne

variable {α β γ : Type}

/-- Items that are read one by one and then changed. -/
theorem mapM_option_map (read : α → Option β) (change : β → γ) (xs : List α) :
    xs.mapM (fun x => (read x).map change) = (xs.mapM read).map (List.map change) := by
  induction xs with
  | nil => rfl
  | cons x xs ih =>
    rw [List.mapM_cons, List.mapM_cons, ih]
    cases read x with
    | none => rfl
    | some y =>
      cases xs.mapM read with
      | none => rfl
      | some ys => rfl

/-- What was read was read from one of the items. -/
theorem exists_of_mem_mapM {read : α → Option β} {xs : List α} {ys : List β}
    (h : xs.mapM read = some ys) {y : β} (hy : y ∈ ys) : ∃ x ∈ xs, read x = some y := by
  induction xs generalizing ys with
  | nil =>
    obtain rfl := Option.some.inj h
    cases hy
  | cons x xs ih =>
    rw [List.mapM_cons] at h
    obtain ⟨z, hz, h⟩ := Option.bind_eq_some_iff.1 h
    obtain ⟨zs, hzs, h⟩ := Option.bind_eq_some_iff.1 h
    obtain rfl := Option.some.inj h
    rcases List.mem_cons.1 hy with rfl | hy
    · exact ⟨x, List.mem_cons_self, hz⟩
    · obtain ⟨x', hx', hread⟩ := ih hzs hy
      exact ⟨x', List.mem_cons_of_mem _ hx', hread⟩

theorem ne_nil_of_mapM {read : α → Option β} {xs : List α} {ys : List β}
    (h : xs.mapM read = some ys) (hne : xs ≠ []) : ys ≠ [] := by
  obtain ⟨x, xs, rfl⟩ := List.exists_cons_of_ne_nil hne
  rw [List.mapM_cons] at h
  obtain ⟨z, -, h⟩ := Option.bind_eq_some_iff.1 h
  obtain ⟨zs, -, h⟩ := Option.bind_eq_some_iff.1 h
  obtain rfl := Option.some.inj h
  exact List.cons_ne_nil z zs

/-- Items are told apart by what is read from them if each of them is. -/
theorem mapM_inj {read : α → Option β} {xs ys : List α} {zs : List β}
    (hxs : xs.mapM read = some zs) (hys : ys.mapM read = some zs)
    (hread : ∀ x ∈ xs, ∀ y ∈ ys, ∀ z, read x = some z → read y = some z → x = y) : xs = ys := by
  induction xs generalizing ys zs with
  | nil =>
    obtain rfl := Option.some.inj hxs
    by_contra hne
    exact ne_nil_of_mapM hys (Ne.symm hne) rfl
  | cons x xs ih =>
    have hne : ys ≠ [] := by
      rintro rfl
      obtain rfl := Option.some.inj hys
      exact ne_nil_of_mapM hxs (List.cons_ne_nil x xs) rfl
    obtain ⟨y, ys, rfl⟩ := List.exists_cons_of_ne_nil hne
    rw [List.mapM_cons] at hxs hys
    obtain ⟨z, hz, hxs⟩ := Option.bind_eq_some_iff.1 hxs
    obtain ⟨zs', hzs, hxs⟩ := Option.bind_eq_some_iff.1 hxs
    obtain ⟨z', hz', hys⟩ := Option.bind_eq_some_iff.1 hys
    obtain ⟨zs'', hzs', hys⟩ := Option.bind_eq_some_iff.1 hys
    obtain rfl := Option.some.inj hxs
    obtain ⟨rfl, rfl⟩ := List.cons.inj (Option.some.inj hys)
    rw [hread x List.mem_cons_self y List.mem_cons_self _ hz hz',
      ih hzs hzs' fun a ha b hb => hread a (List.mem_cons_of_mem _ ha) b (List.mem_cons_of_mem _ hb)]

end ReadOneByOne

/-! ## Labels -/

namespace AttributeType

/-- The characters that a text is put together with. -/
def marks : List Char := ['=', ',', '+']

theorem not_mem_marks_of_isDigit {c : Char} (h : c.isDigit = true) : c ∉ marks := by
  intro hmem
  have hmarks : (marks.all fun x => !x.isDigit) = true := by decide
  have hnot := List.all_eq_true.1 hmarks c hmem
  rw [h] at hnot
  cases hnot

theorem not_mem_marks_of_mem_hexPair {b : UInt8} {c : Char} (h : c ∈ Bytes.hexPair b) :
    c ∉ marks := by
  have hdigit : ∀ n < 16, Bytes.hexDigit n ∉ marks := by decide
  have hb : b.toNat < 256 := UInt8.toNat_lt b
  have hpair : c = Bytes.hexDigit (b.toNat / 16) ∨ c = Bytes.hexDigit (b.toNat % 16) := by
    simpa [Bytes.hexPair] using h
  rcases hpair with rfl | rfl
  · exact hdigit _ (Nat.div_lt_of_lt_mul hb)
  · exact hdigit _ (Nat.mod_lt _ (by decide))

/-- There is no mark in the text of an object identifier, which is of digits and
points. -/
theorem not_mem_marks_of_mem_text {o : Oid} {c : Char} (h : c ∈ o.text.toList) : c ∉ marks := by
  unfold Oid.text at h
  split_ifs at h
  · rcases mem_of_mem_intercalate h with hseparator | ⟨part, hpart, hc⟩
    · rw [List.mem_singleton.1 hseparator]
      decide
    · obtain ⟨b, -, rfl⟩ := List.mem_map.1 hpart
      rw [String.toList_ofList] at hc
      exact not_mem_marks_of_mem_hexPair hc
  · rcases mem_of_mem_intercalate h with hseparator | ⟨part, hpart, hc⟩
    · rw [List.mem_singleton.1 hseparator]
      decide
    · obtain ⟨n, -, rfl⟩ := List.mem_map.1 hpart
      rw [Nat.toString_eq_repr, Nat.toList_repr] at hc
      exact not_mem_marks_of_isDigit (Nat.isDigit_of_mem_toDigits (by decide) (by decide) hc)

/-- **A label has no mark in it.** -/
theorem not_mem_marks_of_mem_label {o : Oid} {c : Char} (h : c ∈ (label o).toList) : c ∉ marks := by
  have hnames : (names.all fun x => x.2.toList.all fun c => decide (c ∉ marks)) = true := by
    decide +kernel
  unfold label at h
  cases hlookup : names.lookup o with
  | some name =>
    rw [hlookup, Option.getD_some] at h
    obtain ⟨before, after, hsplit, -⟩ := List.lookup_eq_some_iff.1 hlookup
    have hmem : (o, name) ∈ names := by
      rw [hsplit]
      exact List.mem_append_right _ List.mem_cons_self
    exact of_decide_eq_true (List.all_eq_true.1 (List.all_eq_true.1 hnames _ hmem) c h)
  | none =>
    rw [hlookup, Option.getD_none, String.toList_append, String.toList_append, List.mem_append,
      List.mem_append] at h
    have hframe : (("OID(".toList ++ ")".toList).all fun x => decide (x ∉ marks)) = true := by
      decide
    rcases h with (h | h) | h
    · exact of_decide_eq_true (List.all_eq_true.1 hframe c (List.mem_append_left _ h))
    · exact not_mem_marks_of_mem_text h
    · exact of_decide_eq_true (List.all_eq_true.1 hframe c (List.mem_append_right _ h))

end AttributeType

/-! ## Segments of a text

With a separator in front of the first attribute, too, the text is a row of
segments of one form. Where a segment begins can be seen from a separator, a
label and an equality sign together, and a value in which these do not occur
cannot be taken for the beginning of one. -/

namespace Name

open AttributeType (marks)

/-- What stands before an attribute in the text of a name, but for the first:
a comma before the first attribute of a set, a plus sign before the others. -/
def separators : List (List Char) := [[',', ' '], [' ', '+', ' ']]

/-- **An attribute in the text of a name**, with the separator before it. -/
@[ext]
structure Segment where
  /-- The separator. -/
  separator : List Char
  /-- The label. -/
  label : List Char
  /-- The text of the value. -/
  value : List Char

namespace Segment

/-- What comes before the value. -/
def opening (x : Segment) : List Char := x.separator ++ x.label ++ ['=']

/-- A segment as it stands in the text. -/
def chars (x : Segment) : List Char := x.opening ++ x.value

/-- **A segment of an attribute**: it begins with a separator and the label of
a type. -/
structure IsSound (x : Segment) : Prop where
  /-- It begins with a separator. -/
  separator : x.separator ∈ separators
  /-- The label follows. -/
  label : ∃ type, x.label = (AttributeType.label type).toList

end Segment

/-- **A text in which another attribute seems to begin**: a separator, a label
and an equality sign occur in it. -/
def SeemsToSplit (value : List Char) : Prop :=
  ∃ separator ∈ separators, ∃ type, separator ++ (AttributeType.label type).toList ++ ['='] <:+: value

/-- No attribute begins in a text without equality signs. -/
theorem not_seemsToSplit_of_equals {value : List Char} (hequals : '=' ∉ value) :
    ¬ SeemsToSplit value := by
  rintro ⟨separator, -, type, hoccurs⟩
  exact hequals (hoccurs.subset (List.mem_append_right _ List.mem_cons_self))

/-- **A separator and a label have no end that is one again**, but for the
whole. -/
theorem eq_nil_of_separator_append {s s' l l' w : List Char} (hs : s ∈ separators)
    (hs' : s' ∈ separators) (hl : ∀ c ∈ l, c ∉ marks) (h : s ++ l = w ++ (s' ++ l')) : w = [] := by
  have hcomma : ',' ∉ l := fun hmem => hl _ hmem (by decide)
  have hplus : '+' ∉ l := fun hmem => hl _ hmem (by decide)
  have hs : s = [',', ' '] ∨ s = [' ', '+', ' '] := by simpa [separators] using hs
  have hs' : s' = [',', ' '] ∨ s' = [' ', '+', ' '] := by simpa [separators] using hs'
  -- the mark in the separator occurs only once on either side
  have hcount := congrArg (List.count ',') h
  have hcount' := congrArg (List.count '+') h
  rw [List.count_append, List.count_append, List.count_append, List.count_eq_zero.2 hcomma] at hcount
  rw [List.count_append, List.count_append, List.count_append, List.count_eq_zero.2 hplus] at hcount'
  rcases hs with rfl | rfl <;> rcases hs' with rfl | rfl
  · cases w with
    | nil => rfl
    | cons c w =>
      obtain ⟨rfl, -⟩ := List.cons.inj h
      simp only [List.count_cons_self] at hcount
      omega
  · have hone : List.count '+' [' ', '+', ' '] = 1 := by decide
    have hnone : List.count '+' [',', ' '] = 0 := by decide
    omega
  · have hone : List.count ',' [',', ' '] = 1 := by decide
    have hnone : List.count ',' [' ', '+', ' '] = 0 := by decide
    omega
  · match w with
    | [] => rfl
    | [c] => simp at h
    | c :: c' :: w =>
      obtain ⟨rfl, htail⟩ := List.cons.inj h
      obtain ⟨rfl, -⟩ := List.cons.inj htail
      have hone : List.count '+' [' ', '+', ' '] = 1 := by decide
      have htwo : List.count '+' (' ' :: '+' :: w) = List.count '+' w + 1 := by
        rw [List.count_cons_of_ne (by decide), List.count_cons_self]
      omega

/-- Separators and labels are told apart. -/
theorem separator_append_inj {s s' l l' : List Char} (hs : s ∈ separators) (hs' : s' ∈ separators)
    (h : s ++ l = s' ++ l') : s = s' ∧ l = l' := by
  have hs : s = [',', ' '] ∨ s = [' ', '+', ' '] := by simpa [separators] using hs
  have hs' : s' = [',', ' '] ∨ s' = [' ', '+', ' '] := by simpa [separators] using hs'
  rcases hs with rfl | rfl <;> rcases hs' with rfl | rfl
  · exact ⟨rfl, List.append_cancel_left h⟩
  · exact absurd (List.cons.inj h).1 (by decide)
  · exact absurd (List.cons.inj h).1 (by decide)
  · exact ⟨rfl, List.append_cancel_left h⟩

/-- What occurs in a text occurs in every text that has it. -/
theorem SeemsToSplit.mono {v w : List Char} (h : SeemsToSplit v) (hoccurs : v <:+: w) :
    SeemsToSplit w := by
  obtain ⟨separator, hseparator, type, hv⟩ := h
  exact ⟨separator, hseparator, type, hv.trans hoccurs⟩

namespace Segment

variable {x y : Segment} {xs ys : List Segment}

theorem IsSound.seemsToSplit (hx : x.IsSound) : SeemsToSplit x.opening := by
  obtain ⟨type, hlabel⟩ := hx.label
  refine ⟨x.separator, hx.separator, type, ?_⟩
  rw [← hlabel]
  exact List.infix_refl _

theorem IsSound.not_mem_marks (hx : x.IsSound) {c : Char} (h : c ∈ x.label) : c ∉ marks := by
  obtain ⟨type, hlabel⟩ := hx.label
  rw [hlabel] at h
  exact AttributeType.not_mem_marks_of_mem_label h

/-- There is no equality sign before the one that ends the opening. -/
theorem IsSound.equals_not_mem (hx : x.IsSound) : '=' ∉ x.separator ++ x.label := by
  have hseparators : ∀ s ∈ separators, '=' ∉ s := by decide
  rw [List.mem_append, not_or]
  exact ⟨hseparators _ hx.separator, fun hmem => hx.not_mem_marks hmem (by decide)⟩

/-- A segment and what follows it. -/
theorem chars_append (x : Segment) (rest : List Char) :
    x.chars ++ rest = (x.separator ++ x.label) ++ '=' :: (x.value ++ rest) := by
  unfold chars opening
  rw [List.append_assoc, List.append_assoc, List.singleton_append]

/-- **No segment begins elsewhere**: if segments are a text and then segments
again, and in the text none seems to begin, there is no text. -/
theorem eq_nil_of_flatMap_chars {w : List Char} (hxs : ∀ x ∈ xs, x.IsSound)
    (hys : ∀ y ∈ ys, y.IsSound) (hw : ¬ SeemsToSplit w)
    (h : xs.flatMap chars = w ++ ys.flatMap chars) : w = [] := by
  cases xs with
  | nil => exact (List.append_eq_nil_iff.1 h.symm).1
  | cons x xs =>
    have hx := hxs x List.mem_cons_self
    have hopening : x.opening ++ (x.value ++ xs.flatMap chars) = w ++ ys.flatMap chars := by
      rw [← h, List.flatMap_cons, chars, List.append_assoc]
    rcases List.append_eq_append_iff.1 hopening with ⟨u, rfl, -⟩ | ⟨u, hu, hys'⟩
    · -- the whole opening is in the text
      exact absurd (hx.seemsToSplit.mono (List.prefix_append _ _).isInfix) hw
    · rcases List.eq_nil_or_concat u with rfl | ⟨u, c, rfl⟩
      · rw [List.append_nil] at hu
        exact absurd (hu ▸ hx.seemsToSplit) hw
      · -- an end of the opening is the opening of the next segment
        rw [List.concat_eq_append, ← List.append_assoc] at hu
        have hopens : x.separator ++ x.label ++ ['='] = w ++ u ++ [c] := hu
        obtain ⟨hbefore, rfl⟩ := List.append_singleton_inj.1 hopens
        rw [List.concat_eq_append, List.append_assoc, List.singleton_append] at hys'
        cases ys with
        | nil => exact absurd hys'.symm (by simp)
        | cons y ys =>
          have hy := hys y List.mem_cons_self
          rw [List.flatMap_cons, chars_append] at hys'
          have hfree : '=' ∉ u := fun hmem => hx.equals_not_mem (hbefore ▸ List.mem_append_right _ hmem)
          obtain ⟨rfl, -⟩ := append_cons_inj_of_first hy.equals_not_mem hfree hys'
          exact eq_nil_of_separator_append hx.separator hy.separator
            (fun c hc => hx.not_mem_marks hc) hbefore

/-- A text and the segments after it are told apart if no segment seems to begin
in the text. -/
theorem append_flatMap_chars_inj {v v' : List Char} (hxs : ∀ x ∈ xs, x.IsSound)
    (hys : ∀ y ∈ ys, y.IsSound) (hv : ¬ SeemsToSplit v) (hv' : ¬ SeemsToSplit v')
    (h : v ++ xs.flatMap chars = v' ++ ys.flatMap chars) :
    v = v' ∧ xs.flatMap chars = ys.flatMap chars := by
  rcases List.append_eq_append_iff.1 h with ⟨w, rfl, hw⟩ | ⟨w, rfl, hw⟩
  · obtain rfl := eq_nil_of_flatMap_chars hxs hys
      (fun hsplit => hv' (hsplit.mono (List.suffix_append _ _).isInfix)) hw
    exact ⟨(List.append_nil v).symm, hw⟩
  · obtain rfl := eq_nil_of_flatMap_chars hys hxs
      (fun hsplit => hv (hsplit.mono (List.suffix_append _ _).isInfix)) hw
    exact ⟨List.append_nil v', hw.symm⟩

/-- **Segments are told apart by what they are in the text**, if none seems to
begin in a value. -/
theorem flatMap_chars_inj (hxs : ∀ x ∈ xs, x.IsSound ∧ ¬ SeemsToSplit x.value)
    (hys : ∀ y ∈ ys, y.IsSound ∧ ¬ SeemsToSplit y.value)
    (h : xs.flatMap chars = ys.flatMap chars) : xs = ys := by
  induction xs generalizing ys with
  | nil =>
    cases ys with
    | nil => rfl
    | cons y ys =>
      rw [List.flatMap_cons, chars_append] at h
      exact absurd h.symm (by simp)
  | cons x xs ih =>
    cases ys with
    | nil =>
      rw [List.flatMap_cons, chars_append] at h
      exact absurd h (by simp)
    | cons y ys =>
      obtain ⟨⟨hx, hxvalue⟩, hxs'⟩ := List.forall_mem_cons.1 hxs
      obtain ⟨⟨hy, hyvalue⟩, hys'⟩ := List.forall_mem_cons.1 hys
      rw [List.flatMap_cons, List.flatMap_cons, chars_append, chars_append] at h
      obtain ⟨hopening, hrest⟩ := append_cons_inj_of_first hx.equals_not_mem hy.equals_not_mem h
      obtain ⟨hseparator, hlabel⟩ := separator_append_inj hx.separator hy.separator hopening
      obtain ⟨hvalue, hchars⟩ := append_flatMap_chars_inj (fun z hz => (hxs' z hz).1)
        (fun z hz => (hys' z hz).1) hxvalue hyvalue hrest
      rw [ih hxs' hys' hchars, Segment.ext hseparator hlabel hvalue]

end Segment

/-! ## What a name shows

What is shown of a name is less than the name. Types without a label of their
own show by their numbers, but how a value was encoded does not show, nor does
the form of its tag. A name with a value that cannot be decoded shows nothing
at all. -/

end Name

/-- **What an attribute shows**: its label and the text of its value, if the
value can be decoded. -/
def Attribute.shown? (a : Attribute) : Option (String × String) :=
  a.valueText?.map (AttributeType.label a.type, ·)

namespace Name

/-- **What a name shows**: what its attributes show, set by set, if all values
can be decoded. -/
def shown? (n : Name) : Option (List (List (String × String))) :=
  n.parts.mapM (·.mapM Attribute.shown?)

/-- The text of a set of attributes. -/
def partText (part : List (String × String)) : String :=
  " + ".intercalate (part.map fun x => x.1 ++ "=" ++ x.2)

/-- The text of sets of attributes. -/
def lineText (parts : List (List (String × String))) : String :=
  ", ".intercalate (parts.map partText)

/-- **The text of a name is that of what it shows.** -/
theorem text_eq (n : Name) : n.text = (n.shown?.map lineText).getD unreadable := by
  have hattribute : ∀ a : Attribute, a.text? = a.shown?.map fun x => x.1 ++ "=" ++ x.2 := by
    intro a
    unfold Attribute.text? Attribute.shown?
    rw [Option.map_map]
    rfl
  have hpart : (fun part : List Attribute => (part.mapM Attribute.text?).map (" + ".intercalate ·))
      = fun part => (part.mapM Attribute.shown?).map partText := by
    funext part
    rw [funext hattribute, mapM_option_map, Option.map_map]
    rfl
  have hshown : n.parts.mapM (fun part => part.mapM Attribute.shown?) = n.shown? := rfl
  unfold text
  rw [hpart, mapM_option_map, hshown]
  cases n.shown? with
  | none => rfl
  | some parts => rfl

/-! ## Segments of what is shown

Sets of attributes are flattened to segments and found again by their
separators, which are of one kind in front of the first attribute of a set and
of another in front of the others. -/

/-- The segment of an attribute that begins a set. -/
def firstSegment (x : String × String) : Segment := ⟨[',', ' '], x.1.toList, x.2.toList⟩

/-- The segment of an attribute that does not. -/
def nextSegment (x : String × String) : Segment := ⟨[' ', '+', ' '], x.1.toList, x.2.toList⟩

/-- The segments of a set of attributes. -/
def partSegments : List (String × String) → List Segment
  | [] => []
  | x :: xs => firstSegment x :: xs.map nextSegment

/-- Labels and values are told apart by their characters. -/
theorem toList_inj_pair {x y : String × String} (h : x.1.toList = y.1.toList)
    (h' : x.2.toList = y.2.toList) : x = y :=
  Prod.ext (String.toList_inj.1 h) (String.toList_inj.1 h')

theorem firstSegment_inj {x y : String × String} (h : firstSegment x = firstSegment y) : x = y :=
  toList_inj_pair (congrArg Segment.label h) (congrArg Segment.value h)

theorem nextSegment_inj {x y : String × String} (h : nextSegment x = nextSegment y) : x = y :=
  toList_inj_pair (congrArg Segment.label h) (congrArg Segment.value h)

/-- The separator tells which of the two an attribute is. -/
theorem firstSegment_ne_nextSegment (x y : String × String) : firstSegment x ≠ nextSegment y := by
  intro h
  have hseparator : [',', ' '] = [' ', '+', ' '] := congrArg Segment.separator h
  exact absurd hseparator (by decide)

/-- **The text of a set** is its segments, but for the first separator. -/
theorem toList_partText (x : String × String) (xs : List (String × String)) :
    [',', ' '] ++ (partText (x :: xs)).toList = (partSegments (x :: xs)).flatMap Segment.chars := by
  have hequals : "=".toList = ['='] := by decide
  have hplus : " + ".toList = [' ', '+', ' '] := by decide
  have hrest : ∀ (ys : List (String × String)) (y : String × String),
      (partText (y :: ys)).toList
        = y.1.toList ++ ['='] ++ y.2.toList ++ (ys.map nextSegment).flatMap Segment.chars := by
    intro ys
    induction ys with
    | nil =>
      intro y
      show (y.1 ++ "=" ++ y.2).toList = _
      rw [String.toList_append, String.toList_append, hequals]
      exact (List.append_nil _).symm
    | cons z ys ih =>
      intro y
      have hcons : partText (y :: z :: ys) = y.1 ++ "=" ++ y.2 ++ " + " ++ partText (z :: ys) :=
        String.intercalate_cons_cons
      rw [hcons, String.toList_append, String.toList_append, String.toList_append,
        String.toList_append, ih, List.map_cons, List.flatMap_cons, hequals, hplus]
      show _ = _ ++ ([' ', '+', ' '] ++ z.1.toList ++ ['='] ++ z.2.toList ++ _)
      simp only [List.append_assoc]
  rw [hrest, partSegments, List.flatMap_cons]
  show _ = [',', ' '] ++ x.1.toList ++ ['='] ++ x.2.toList ++ _
  simp only [List.append_assoc]

/-- The text of several sets. -/
theorem toList_lineText {parts : List (List (String × String))} (hne : parts ≠ [])
    (hparts : ∀ part ∈ parts, part ≠ []) :
    [',', ' '] ++ (lineText parts).toList = (parts.flatMap partSegments).flatMap Segment.chars := by
  have hcomma : ", ".toList = [',', ' '] := by decide
  induction parts with
  | nil => exact absurd rfl hne
  | cons part parts ih =>
    obtain ⟨hpart, hrest⟩ := List.forall_mem_cons.1 hparts
    obtain ⟨x, xs, rfl⟩ := List.exists_cons_of_ne_nil hpart
    rw [List.flatMap_cons, List.flatMap_append, ← toList_partText]
    cases parts with
    | nil =>
      show _ = _ ++ []
      rw [List.append_nil]
      rfl
    | cons part' parts =>
      have hcons : lineText ((x :: xs) :: part' :: parts)
          = partText (x :: xs) ++ ", " ++ lineText (part' :: parts) := String.intercalate_cons_cons
      rw [hcons, String.toList_append, String.toList_append, hcomma, ← ih (by simp) hrest]
      simp only [List.append_assoc]

/-- The segments of the later attributes of a set end where the next set
begins. -/
theorem map_nextSegment_append_inj {xs ys : List (String × String)}
    {parts parts' : List (List (String × String))} (hparts : ∀ part ∈ parts, part ≠ [])
    (hparts' : ∀ part ∈ parts', part ≠ [])
    (h : xs.map nextSegment ++ parts.flatMap partSegments
      = ys.map nextSegment ++ parts'.flatMap partSegments) :
    xs = ys ∧ parts.flatMap partSegments = parts'.flatMap partSegments := by
  have hbegin : ∀ {ps : List (List (String × String))} {x : String × String} {rest : List Segment},
      (∀ part ∈ ps, part ≠ []) → ps.flatMap partSegments ≠ nextSegment x :: rest := by
    intro ps x rest hps heq
    cases ps with
    | nil => cases heq
    | cons part ps =>
      obtain ⟨y, ys, rfl⟩ := List.exists_cons_of_ne_nil (hps part List.mem_cons_self)
      exact firstSegment_ne_nextSegment _ _ (List.cons.inj heq).1
  induction xs generalizing ys with
  | nil =>
    cases ys with
    | nil => exact ⟨rfl, h⟩
    | cons y ys => exact absurd h (hbegin hparts)
  | cons x xs ih =>
    cases ys with
    | nil => exact absurd h.symm (hbegin hparts')
    | cons y ys =>
      obtain ⟨hxy, hrest⟩ := List.cons.inj h
      obtain ⟨rfl, hsame⟩ := ih hrest
      exact ⟨by rw [nextSegment_inj hxy], hsame⟩

/-- **Sets of attributes are told apart by their segments.** -/
theorem flatMap_partSegments_inj {parts parts' : List (List (String × String))}
    (hparts : ∀ part ∈ parts, part ≠ []) (hparts' : ∀ part ∈ parts', part ≠ [])
    (h : parts.flatMap partSegments = parts'.flatMap partSegments) : parts = parts' := by
  induction parts generalizing parts' with
  | nil =>
    cases parts' with
    | nil => rfl
    | cons part parts' =>
      obtain ⟨x, xs, rfl⟩ := List.exists_cons_of_ne_nil (hparts' part List.mem_cons_self)
      cases h
  | cons part parts ih =>
    obtain ⟨hpart, hrest⟩ := List.forall_mem_cons.1 hparts
    obtain ⟨x, xs, rfl⟩ := List.exists_cons_of_ne_nil hpart
    cases parts' with
    | nil => cases h
    | cons part' parts' =>
      obtain ⟨hpart', hrest'⟩ := List.forall_mem_cons.1 hparts'
      obtain ⟨y, ys, rfl⟩ := List.exists_cons_of_ne_nil hpart'
      obtain ⟨hxy, htail⟩ := List.cons.inj h
      obtain ⟨rfl, hsame⟩ := map_nextSegment_append_inj hrest hrest' htail
      rw [firstSegment_inj hxy, ih hrest hrest' hsame]

/-! ## Names that the text tells apart

Two names may have one text without showing the same only if one of them is
not clear. The text that stands for names that cannot be read is no other
name's, since there is no equality sign in it. -/

/-- **What is shown is clear** if it is shown by types and values and no
attribute seems to begin in a value. -/
structure IsClearLine (parts : List (List (String × String))) : Prop where
  /-- There is an attribute in each set. -/
  ne_nil : ∀ part ∈ parts, part ≠ []
  /-- The labels are labels of types. -/
  label : ∀ part ∈ parts, ∀ x ∈ part, ∃ type, x.1 = AttributeType.label type
  /-- No attribute seems to begin in a value. -/
  value : ∀ part ∈ parts, ∀ x ∈ part, ¬ SeemsToSplit x.2.toList

variable {parts parts' : List (List (String × String))}

/-- The segments of what is clear are sound, and none seems to begin in their
values. -/
theorem IsClearLine.isSound (h : IsClearLine parts) :
    ∀ x ∈ parts.flatMap partSegments, x.IsSound ∧ ¬ SeemsToSplit x.value := by
  intro x hx
  obtain ⟨part, hpart, hx⟩ := List.mem_flatMap.1 hx
  cases part with
  | nil => cases hx
  | cons y ys =>
    rcases List.mem_cons.1 hx with rfl | hx
    · obtain ⟨type, htype⟩ := h.label _ hpart y List.mem_cons_self
      exact ⟨⟨List.mem_cons_self, type, congrArg String.toList htype⟩,
        h.value _ hpart y List.mem_cons_self⟩
    · obtain ⟨z, hz, rfl⟩ := List.mem_map.1 hx
      obtain ⟨type, htype⟩ := h.label _ hpart z (List.mem_cons_of_mem _ hz)
      exact ⟨⟨List.mem_cons_of_mem _ List.mem_cons_self, type, congrArg String.toList htype⟩,
        h.value _ hpart z (List.mem_cons_of_mem _ hz)⟩

/-- There is an equality sign in the text of anything. -/
theorem equals_mem_lineText (hne : parts ≠ []) (hparts : ∀ part ∈ parts, part ≠ []) :
    '=' ∈ (lineText parts).toList := by
  have hmem : '=' ∈ [',', ' '] ++ (lineText parts).toList := by
    rw [toList_lineText hne hparts]
    obtain ⟨part, parts, rfl⟩ := List.exists_cons_of_ne_nil hne
    obtain ⟨x, xs, rfl⟩ := List.exists_cons_of_ne_nil (hparts part List.mem_cons_self)
    rw [List.flatMap_cons, List.flatMap_append]
    show '=' ∈ (Segment.chars _ ++ _) ++ _
    rw [Segment.chars_append]
    simp
  rcases List.mem_append.1 hmem with hseparator | hline
  · exact absurd hseparator (by decide)
  · exact hline

/-- **What is clear is told by its text.** -/
theorem lineText_inj (h : IsClearLine parts) (h' : IsClearLine parts')
    (htext : lineText parts = lineText parts') : parts = parts' := by
  by_cases hne : parts = []
  · by_cases hne' : parts' = []
    · rw [hne, hne']
    · subst hne
      have hmem := equals_mem_lineText hne' h'.ne_nil
      rw [← htext] at hmem
      cases hmem
  · by_cases hne' : parts' = []
    · subst hne'
      have hmem := equals_mem_lineText hne h.ne_nil
      rw [htext] at hmem
      cases hmem
    · have hchars : [',', ' '] ++ (lineText parts).toList
          = [',', ' '] ++ (lineText parts').toList := by rw [htext]
      rw [toList_lineText hne h.ne_nil, toList_lineText hne' h'.ne_nil] at hchars
      exact flatMap_partSegments_inj h.ne_nil h'.ne_nil
        (Segment.flatMap_chars_inj h.isSound h'.isSound hchars)

/-- **A name that is clear**: no attribute seems to begin in a value. -/
def IsClear (n : Name) : Prop :=
  ∀ a ∈ n.attributes, ∀ value, a.valueText? = some value → ¬ SeemsToSplit value.toList

variable {n m : Name}

theorem IsClear.isClearLine (hn : n.IsClear) (hne : ∀ part ∈ n.parts, part ≠ [])
    (h : n.shown? = some parts) : IsClearLine parts := by
  have hattribute : ∀ part ∈ parts, ∀ x ∈ part, ∃ a ∈ n.attributes, a.shown? = some x := by
    intro part hpart x hx
    obtain ⟨attributes, hattributes, hshown⟩ := exists_of_mem_mapM h hpart
    obtain ⟨a, ha, hax⟩ := exists_of_mem_mapM hshown hx
    exact ⟨a, List.mem_flatten.2 ⟨attributes, hattributes, ha⟩, hax⟩
  refine ⟨fun part hpart => ?_, fun part hpart x hx => ?_, fun part hpart x hx => ?_⟩
  · obtain ⟨attributes, hattributes, hshown⟩ := exists_of_mem_mapM h hpart
    exact ne_nil_of_mapM hshown (hne attributes hattributes)
  · obtain ⟨a, -, hax⟩ := hattribute part hpart x hx
    obtain ⟨value, -, rfl⟩ := Option.map_eq_some_iff.1 hax
    exact ⟨a.type, rfl⟩
  · obtain ⟨a, ha, hax⟩ := hattribute part hpart x hx
    obtain ⟨value, hvalue, rfl⟩ := Option.map_eq_some_iff.1 hax
    exact hn a ha value hvalue

/-- The text of a name that cannot be read is no other name's. -/
theorem lineText_ne_unreadable (hne : ∀ part ∈ parts, part ≠ []) : lineText parts ≠ unreadable := by
  intro h
  by_cases hnil : parts = []
  · subst hnil
    exact absurd (congrArg String.toList h) (by decide +kernel)
  · have hmem := equals_mem_lineText hnil hne
    rw [h] at hmem
    exact absurd hmem (by decide +kernel)

/-- **Clear names are told apart by their texts as far as they show a
difference.** -/
theorem text_eq_text_iff (hn : n.IsClear) (hm : m.IsClear) (hne : ∀ part ∈ n.parts, part ≠ [])
    (hme : ∀ part ∈ m.parts, part ≠ []) : n.text = m.text ↔ n.shown? = m.shown? := by
  rw [text_eq, text_eq]
  match hshown : n.shown?, hshown' : m.shown? with
  | none, none => exact iff_of_true rfl rfl
  | none, some parts =>
    have hother := lineText_ne_unreadable (hm.isClearLine hme hshown').ne_nil
    exact iff_of_false (fun h => hother h.symm) (by simp)
  | some parts, none =>
    exact iff_of_false (lineText_ne_unreadable (hn.isClearLine hne hshown).ne_nil) (by simp)
  | some parts, some parts' =>
    refine ⟨fun h => ?_, fun h => ?_⟩
    · rw [lineText_inj (hn.isClearLine hne hshown) (hm.isClearLine hme hshown') h]
    · rw [h]

/-- **Names that show the same are the same** if their attributes are. -/
theorem eq_of_shown?_eq (h : n.shown? = some parts) (h' : m.shown? = some parts)
    (hattributes : ∀ a ∈ n.attributes, ∀ b ∈ m.attributes, a.shown? = b.shown? → a = b) :
    n = m := by
  obtain ⟨sets⟩ := n
  obtain ⟨sets'⟩ := m
  refine congrArg Name.mk (mapM_inj h h' fun set hset set' hset' part hpart hpart' => ?_)
  refine mapM_inj hpart hpart' fun a ha b hb x hax hbx => ?_
  exact hattributes a (List.mem_flatten.2 ⟨set, hset, ha⟩) b (List.mem_flatten.2 ⟨set', hset', hb⟩)
    (hax.trans hbx.symm)

end Name

end CertAuthority
