import CertAuthority.IpAddress
import Mathlib.Data.List.Basic
import Mathlib.Data.Nat.Digits.Defs
import Mathlib.Tactic.SplitIfs

/-!
# The text of an address is read as the address

`parse?_text`, for addresses of both versions. Numbers are written without
leading zeros and end where no digit follows, so that each is read as it was
written. Of the segments of version 6, what a double colon leaves out is a run
of zeros (`isRun_longestRun`), and how many they were is known from what is
left: a double colon stands for at least two. The reader tries the notation of
version 4 at each segment, and it fails there for want of a point
(`readV4?_eq_none`).

The reader takes more than the texts that are written: several notations of
one address, with leading zeros in its segments, capital letters, or its last
two segments in points. No matter, since the round trip asks only for what is
written. It does need that a reader stops where it should, and so each lemma
about reading says what follows the text: nothing that a number could go on
with (`EndsDigits`), nothing or a colon (`EndsSegment`), nothing or a double
colon (`EndsSegments`).

An address that embeds one of version 4 is written with points, and its text
has a reading of its own (`readV6?_embedding`). All others are eight segments,
with the longest run of zeros left out if it has at least two.
-/

namespace CertAuthority.IpAddress

/-! ## Digits -/

section Digits

variable {base : Nat} {s : List Char}

/-- Whether no digit comes next. -/
def EndsDigits (base : Nat) (s : List Char) : Prop := ∀ c ∈ s.head?, digitValue? base c = none

/-- The character of a digit has the value of the digit, in any base up to
sixteen. -/
theorem digitValue?_digitChar (hbase : base ≤ 16) {d : Nat} (hd : d < base) :
    digitValue? base (Nat.digitChar d) = some d := by
  have hvalue : ∀ d < 16, Bytes.hexValue? (Nat.digitChar d) = some d := by decide
  rw [digitValue?, hvalue d (hd.trans_le hbase), Option.filter_some, if_pos (decide_eq_true hd)]

/-- Where no digit comes next there is nothing to read. -/
theorem readDigits_of_ends (h : EndsDigits base s) (count acc : Nat) :
    readDigits base count acc s = ((count, acc), s) := by
  cases s with
  | nil => rfl
  | cons c s => rw [readDigits, h c rfl]

/-- A digit that comes next is read as the last one so far. -/
theorem readDigits_cons (hbase : base ≤ 16) {d : Nat} (hd : d < base) (count acc : Nat)
    (s : List Char) : readDigits base count acc (Nat.digitChar d :: s)
      = readDigits base (count + 1) (acc * base + d) s := by
  rw [readDigits, digitValue?_digitChar hbase hd]

/-- **A number is read as it is written**: how many digits it has, and what it
is. -/
theorem readDigits_toDigits (hlow : 1 < base) (hbase : base ≤ 16) (n : Nat) (s : List Char)
    (count : Nat) : readDigits base count 0 (Nat.toDigits base n ++ s)
      = readDigits base (count + (Nat.toDigits base n).length) n s := by
  induction n using Nat.strongRecOn generalizing s with
  | ind n ih =>
    rcases Nat.lt_or_ge n base with hn | hn
    · rw [Nat.toDigits_of_lt_base hn, List.singleton_append, readDigits_cons hbase hn,
        Nat.zero_mul, Nat.zero_add, List.length_singleton]
    · have hdiv : n / base < n := Nat.div_lt_self (by omega) hlow
      have hmod : n % base < base := Nat.mod_lt n (by omega)
      rw [Nat.toDigits_of_base_le hlow hn, List.append_assoc, ih _ hdiv, List.singleton_append,
        readDigits_cons hbase hmod, List.length_append, List.length_singleton, Nat.div_add_mod',
        Nat.add_assoc]

/-- Only zero begins with a zero. -/
theorem head?_toDigits (hlow : 1 < base) (hbase : base ≤ 16) {n : Nat} (hn : n ≠ 0) :
    (Nat.toDigits base n).head? ≠ some '0' := by
  induction n using Nat.strongRecOn with
  | ind n ih =>
    rcases Nat.lt_or_ge n base with hlt | hge
    · have hdigit : ∀ d < 16, d ≠ 0 → Nat.digitChar d ≠ '0' := by decide
      rw [Nat.toDigits_of_lt_base hlt, List.head?_singleton]
      exact fun h => hdigit n (hlt.trans_le hbase) hn (Option.some.inj h)
    · have hdiv : n / base < n := Nat.div_lt_self (by omega) hlow
      have hpos : n / base ≠ 0 := Nat.ne_of_gt (Nat.div_pos hge (by omega))
      rw [Nat.toDigits_of_base_le hlow hge, List.head?_append_of_ne_nil _ Nat.toDigits_ne_nil]
      exact ih _ hdiv hpos

/-- Digits are no marks. -/
theorem ne_of_mem_toDigits (hlow : 1 < base) (hbase : base ≤ 16) {n : Nat} {c mark : Char}
    (hmark : Bytes.hexValue? mark = none) (hc : c ∈ Nat.toDigits base n) : c ≠ mark := by
  have hvalue : ∀ d < 16, Bytes.hexValue? (Nat.digitChar d) = some d := by decide
  have hdigit : ∀ d < base, Nat.digitChar d ≠ mark := by
    rintro d hd rfl
    rw [hvalue d (hd.trans_le hbase)] at hmark
    cases hmark
  induction n using Nat.strongRecOn with
  | ind n ih =>
    rcases Nat.lt_or_ge n base with hlt | hge
    · rw [Nat.toDigits_of_lt_base hlt, List.mem_singleton] at hc
      exact hc ▸ hdigit n hlt
    · have hdiv : n / base < n := Nat.div_lt_self (by omega) hlow
      rw [Nat.toDigits_of_base_le hlow hge, List.mem_append, List.mem_singleton] at hc
      rcases hc with hc | rfl
      · exact ih _ hdiv hc
      · exact hdigit _ (Nat.mod_lt n (by omega))

end Digits

/-! ## Version 4 -/

variable {s : List Char}

theorem afterMark?_cons (mark : Char) (s : List Char) : afterMark? mark (mark :: s) = some s := by
  rw [afterMark?, if_pos rfl]

/-- **An octet is read.** It has three digits at most and no zero in front,
unless it is zero. -/
theorem readOctet?_toDigits (x : UInt8) (h : EndsDigits 10 s) :
    readOctet? (Nat.toDigits 10 x.toNat ++ s) = some (x, s) := by
  have hx : x.toNat < 256 := UInt8.toNat_lt x
  have hlength : (Nat.toDigits 10 x.toNat).length ≤ 3 :=
    Nat.toDigits_length 10 x.toNat 3 (by decide) (by omega)
  have hpos : 0 < (Nat.toDigits 10 x.toNat).length := Nat.length_toDigits_pos
  have hzero : ¬ (1 < (Nat.toDigits 10 x.toNat).length
      ∧ (Nat.toDigits 10 x.toNat ++ s).head? = some '0') := by
    rintro ⟨hlong, hhead⟩
    rw [List.head?_append_of_ne_nil _ Nat.toDigits_ne_nil] at hhead
    have hx0 : x.toNat = 0 := by
      by_contra hne
      exact head?_toDigits (by decide) (by decide) hne hhead
    rw [hx0, Nat.toDigits_zero] at hlong
    exact absurd hlong (by decide)
  unfold readOctet?
  rw [readDigits_toDigits (by decide) (by decide), readDigits_of_ends h, Nat.zero_add]
  dsimp only
  rw [if_neg, UInt8.ofNat_toNat]
  rintro (hnone | hlong | hlarge | hlead)
  · omega
  · omega
  · omega
  · exact hzero hlead

/-- The text of an address of version 4: four numbers with points between them.
-/
theorem toList_dotted (a b c d : UInt8) : (dotted a b c d).toList
    = Nat.toDigits 10 a.toNat ++ '.' :: (Nat.toDigits 10 b.toNat
      ++ '.' :: (Nat.toDigits 10 c.toNat ++ '.' :: Nat.toDigits 10 d.toNat)) := by
  have hdigits : ∀ x : UInt8, (toString x.toNat).toList = Nat.toDigits 10 x.toNat :=
    fun x => Nat.toList_repr
  rw [dotted, String.toList_intercalate]
  simp only [List.map_cons, List.map_nil, hdigits]
  simp [List.intercalate]

/-- A character that is no digit ends a number. -/
theorem endsDigits_cons {base : Nat} {c : Char} (h : digitValue? base c = none) (s : List Char) :
    EndsDigits base (c :: s) := by
  intro c' hc'
  obtain rfl := Option.some.inj hc'
  exact h

/-- **An address of version 4 is read.** -/
theorem readV4?_dotted (a b c d : UInt8) (h : EndsDigits 10 s) :
    readV4? ((dotted a b c d).toList ++ s) = some ((a, b, c, d), s) := by
  have hpoint : ∀ s, EndsDigits 10 ('.' :: s) := endsDigits_cons (by decide)
  rw [toList_dotted]
  simp only [List.append_assoc, List.cons_append]
  unfold readV4?
  simp only [readOctet?_toDigits, hpoint, afterMark?_cons, h, bind, Option.bind_some]
  rfl

/-- What the digits leave does not begin with a point, if there is none up to
where they are bound to end. -/
theorem head?_readDigits_ne {w : List Char} (hw : ∀ c ∈ w, c ≠ '.') (hs : EndsDigits 10 s)
    (hpoint : s.head? ≠ some '.') (count acc : Nat) :
    (readDigits 10 count acc (w ++ s)).2.head? ≠ some '.' := by
  induction w generalizing count acc with
  | nil =>
    rw [List.nil_append, readDigits_of_ends hs]
    exact hpoint
  | cons c w ih =>
    rw [List.forall_mem_cons] at hw
    rw [List.cons_append, readDigits]
    cases digitValue? 10 c with
    | some d => exact ih hw.2 _ _
    | none => exact fun h => hw.1 (Option.some.inj h)

/-- **Without a point** there is no address of version 4. -/
theorem readV4?_eq_none {w : List Char} (hw : ∀ c ∈ w, c ≠ '.') (hs : EndsDigits 10 s)
    (hpoint : s.head? ≠ some '.') : readV4? (w ++ s) = none := by
  have hmark : ∀ {x rest}, readOctet? (w ++ s) = some (x, rest) → afterMark? '.' rest = none := by
    intro x rest h
    unfold readOctet? at h
    dsimp only at h
    split_ifs at h
    obtain ⟨-, rfl⟩ := Prod.mk.inj (Option.some.inj h)
    have hne := head?_readDigits_ne hw hs hpoint 0 0
    cases hrest : (readDigits 10 0 0 (w ++ s)).2 with
    | nil => rfl
    | cons c rest =>
      rw [hrest] at hne
      exact if_neg fun hc => hne (congrArg some hc)
  unfold readV4?
  cases hoctet : readOctet? (w ++ s) with
  | none => rfl
  | some octet => simp only [hmark hoctet, bind, Option.bind_some, Option.bind_none]

/-! ## Segments

The reader of segments is greedy, and tries at each of them whether the rest
is an address of version 4. Both are settled by what stands behind the
segment: a colon, or nothing, so that it is read in full and what it begins is
no dotted address. -/

/-- The digits of a segment. -/
abbrev segmentDigits (x : UInt16) : List Char := Nat.toDigits 16 x.toNat

/-- Whether a text ends segments: nothing is left, or a colon comes next. -/
def EndsSegment (s : List Char) : Prop := s = [] ∨ ∃ s', s = ':' :: s'

theorem EndsSegment.endsDigits (h : EndsSegment s) {base : Nat} : EndsDigits base s := by
  obtain rfl | ⟨s', rfl⟩ := h
  · exact fun c hc => by cases hc
  · exact endsDigits_cons (by simp [digitValue?, show Bytes.hexValue? ':' = none from by decide]) s'

theorem EndsSegment.head?_ne (h : EndsSegment s) : s.head? ≠ some '.' := by
  obtain rfl | ⟨s', rfl⟩ := h
  · exact fun h => by cases h
  · exact fun h => absurd (Option.some.inj h) (by decide)

/-- At a segment there is no address of version 4. -/
theorem readV4?_segment (x : UInt16) (h : EndsSegment s) :
    readV4? (segmentDigits x ++ s) = none :=
  readV4?_eq_none (fun _ hc => ne_of_mem_toDigits (by decide) (by decide) (by decide) hc)
    h.endsDigits h.head?_ne

/-- At the end of segments there is none either. -/
theorem readV4?_ends (h : EndsSegment s) : readV4? s = none :=
  readV4?_eq_none (w := []) (List.forall_mem_nil _) h.endsDigits h.head?_ne

/-- **A segment is read.** -/
theorem readSegment?_toDigits (x : UInt16) (h : EndsSegment s) :
    readSegment? (segmentDigits x ++ s) = some (x, s) := by
  have hx : x.toNat < 65536 := UInt16.toNat_lt x
  have hlength : (Nat.toDigits 16 x.toNat).length ≤ 4 :=
    Nat.toDigits_length 16 x.toNat 4 (by decide) (by omega)
  have hpos : 0 < (Nat.toDigits 16 x.toNat).length := Nat.length_toDigits_pos
  unfold readSegment?
  rw [readDigits_toDigits (by decide) (by decide), readDigits_of_ends h.endsDigits, Nat.zero_add]
  dsimp only
  rw [if_neg, UInt16.ofNat_toNat]
  rintro (hnone | hlong) <;> omega

theorem readSegment?_ends (h : EndsSegment s) : readSegment? s = none := by
  unfold readSegment?
  rw [readDigits_of_ends h.endsDigits]
  exact if_pos (Or.inl rfl)

/-- The mark before a segment that is not the first. -/
def lead (first : Bool) : List Char := if first then [] else [':']

/-- **Segments go on** with a segment. -/
theorem readSegments_segment (first : Bool) (limit : Nat) (x : UInt16) (h : EndsSegment s) :
    readSegments first (limit + 1) (lead first ++ (segmentDigits x ++ s))
      = ((x :: (readSegments false limit s).1.1, (readSegments false limit s).1.2),
        (readSegments false limit s).2) := by
  have hlead : (if first then some (lead first ++ (segmentDigits x ++ s))
      else afterMark? ':' (lead first ++ (segmentDigits x ++ s)))
        = some (segmentDigits x ++ s) := by
    cases first
    · exact afterMark?_cons ':' _
    · rfl
  have hv4 : (if limit = 0 then none else readV4? (segmentDigits x ++ s)) = none := by
    rw [readV4?_segment x h, ite_self]
  rw [readSegments, hlead]
  dsimp only
  rw [hv4, readSegment?_toDigits x h]

/-- Whether segments end here: nothing is left, or a double colon. -/
def EndsSegments (s : List Char) : Prop := s = [] ∨ ∃ s', s = ':' :: ':' :: s'

/-- What ends all the segments ends the last one. -/
theorem EndsSegments.endsSegment (h : EndsSegments s) : EndsSegment s :=
  h.imp_right fun ⟨s', hs'⟩ => ⟨':' :: s', hs'⟩

theorem EndsSegments.readSegments (h : EndsSegments s) (first : Bool) (limit : Nat) :
    readSegments first limit s = (([], false), s) := by
  cases limit with
  | zero => rfl
  | succ limit =>
    have hstop : ∀ t, EndsSegment t →
        (if limit = 0 then none else readV4? t) = none ∧ readSegment? t = none :=
      fun t ht => ⟨by rw [readV4?_ends ht, ite_self], readSegment?_ends ht⟩
    rw [IpAddress.readSegments]
    cases first with
    | true =>
      obtain ⟨hv4, hsegment⟩ := hstop s h.endsSegment
      rw [if_pos rfl]
      dsimp only
      rw [hv4, hsegment]
    | false =>
      obtain rfl | ⟨s', rfl⟩ := h
      · rfl
      · obtain ⟨hv4, hsegment⟩ := hstop (':' :: s') (Or.inr ⟨s', rfl⟩)
        rw [if_neg Bool.false_ne_true, afterMark?_cons]
        dsimp only
        rw [hv4, hsegment]

/-- The text of segments that are not the first ones. -/
def afterColons (segments : List UInt16) : List Char :=
  segments.flatMap fun x => ':' :: segmentDigits x

/-- Other segments end a segment, for they begin with a colon. -/
theorem endsSegment_afterColons (segments : List UInt16) (h : EndsSegment s) :
    EndsSegment (afterColons segments ++ s) := by
  cases segments with
  | nil => exact h
  | cons x segments => exact Or.inr ⟨_, rfl⟩

/-- **Segments that are not the first ones are read** as they are written, by
induction on them. -/
theorem readSegments_afterColons {segments : List UInt16} {limit : Nat}
    (hlimit : segments.length ≤ limit) (h : EndsSegments s) :
    readSegments false limit (afterColons segments ++ s) = ((segments, false), s) := by
  induction segments generalizing limit with
  | nil => exact h.readSegments false limit
  | cons x segments ih =>
    obtain ⟨limit, rfl⟩ := Nat.exists_eq_succ_of_ne_zero (Nat.ne_of_gt (Nat.zero_lt_of_lt hlimit))
    have hrest := ih (Nat.le_of_succ_le_succ hlimit)
    have hread := readSegments_segment false limit x (endsSegment_afterColons segments h.endsSegment)
    rw [hrest] at hread
    have htext : afterColons (x :: segments) ++ s
        = lead false ++ (segmentDigits x ++ (afterColons segments ++ s)) := by
      simp [afterColons, lead]
    rw [htext]
    exact hread

theorem toList_hexText (x : UInt16) : (hexText x.toNat).toList = segmentDigits x :=
  String.toList_ofList

theorem toList_colons_cons (x : UInt16) (segments : List UInt16) :
    (colons (x :: segments)).toList = segmentDigits x ++ afterColons segments := by
  induction segments generalizing x with
  | nil =>
    rw [colons, List.map_singleton, String.intercalate_singleton, toList_hexText]
    exact (List.append_nil _).symm
  | cons y segments ih =>
    have hcons : colons (x :: y :: segments) = hexText x.toNat ++ ":" ++ colons (y :: segments) :=
      String.intercalate_cons_cons
    rw [hcons, String.toList_append, String.toList_append, ih, toList_hexText, List.append_assoc]
    rfl

/-- **Segments are read as they are written**, if there are not too many. -/
theorem readSegments_colons {segments : List UInt16} {limit : Nat}
    (hlimit : segments.length ≤ limit) (h : EndsSegments s) :
    readSegments true limit ((colons segments).toList ++ s) = ((segments, false), s) := by
  cases segments with
  | nil => exact h.readSegments true limit
  | cons x segments =>
    obtain ⟨limit, rfl⟩ := Nat.exists_eq_succ_of_ne_zero (Nat.ne_of_gt (Nat.zero_lt_of_lt hlimit))
    have hread := readSegments_segment true limit x (endsSegment_afterColons segments h.endsSegment)
    rw [readSegments_afterColons (Nat.le_of_succ_le_succ hlimit) h] at hread
    rw [toList_colons_cons, List.append_assoc]
    exact hread

/-! ## Runs of zeros

The search for the longest run of zeros goes over the segments once, with the
longest run so far and the one that it is in. What it finds is a run, which is
all that reading the text back depends on; that it is the longest one matters
to nobody but those who look at the text. -/

/-- **A run of zeros among segments**: none, or as many as it says from where it
says on. -/
def IsRun (segments : List UInt16) (run : Run) : Prop :=
  run.length = 0 ∨ ∃ front back, front.length = run.start
    ∧ segments = front ++ List.replicate run.length 0 ++ back

/-- A run is one still with more segments behind it. -/
theorem IsRun.append {segments : List UInt16} {run : Run} (h : IsRun segments run)
    (more : List UInt16) : IsRun (segments ++ more) run := by
  refine h.imp_right ?_
  rintro ⟨front, back, hfront, rfl⟩
  exact ⟨front, back ++ more, hfront, by simp only [List.append_assoc]⟩

/-- A run of zeros that reaches the end. -/
def IsLastRun (segments : List UInt16) (run : Run) : Prop :=
  run.length = 0 ∨ ∃ front, front.length = run.start
    ∧ segments = front ++ List.replicate run.length 0

/-- A run that reaches the end is a run. -/
theorem IsLastRun.isRun {segments : List UInt16} {run : Run} (h : IsLastRun segments run) :
    IsRun segments run := by
  refine h.imp_right ?_
  rintro ⟨front, hfront, rfl⟩
  exact ⟨front, [], hfront, (List.append_nil _).symm⟩

/-- One more zero. -/
theorem IsLastRun.zero {segments : List UInt16} {run : Run} (h : IsLastRun segments run) :
    IsLastRun (segments ++ [0])
      (if run.length = 0 then ⟨segments.length, 1⟩ else ⟨run.start, run.length + 1⟩) := by
  split_ifs with hzero
  · exact Or.inr ⟨segments, rfl, rfl⟩
  · obtain ⟨front, hfront, rfl⟩ := h.resolve_left hzero
    refine Or.inr ⟨front, hfront, ?_⟩
    rw [List.append_assoc, ← List.replicate_succ']

/-- **What is found is a run of zeros.** The longest one so far is one of the
segments gone by, and the present one reaches up to them. -/
theorem isRun_longestRun {before : List UInt16} {longest current : Run}
    (hlongest : IsRun before longest) (hcurrent : IsLastRun before current)
    (segments : List UInt16) :
    IsRun (before ++ segments) (longestRun before.length longest current segments) := by
  induction segments generalizing before longest current with
  | nil =>
    rw [List.append_nil]
    exact hlongest
  | cons x segments ih =>
    have hlength : before.length + 1 = (before ++ [x]).length := by simp
    rw [longestRun, ← List.singleton_append, ← List.append_assoc, hlength]
    by_cases hx : x = 0
    · subst hx
      rw [if_pos rfl]
      have hzero := hcurrent.zero
      dsimp only
      generalize (if current.length = 0 then (⟨before.length, 1⟩ : Run)
        else ⟨current.start, current.length + 1⟩) = current' at hzero ⊢
      refine ih ?_ hzero
      split
      · exact hzero.isRun
      · exact hlongest.append [0]
    · rw [if_neg hx]
      exact ih (hlongest.append [x]) (Or.inl rfl)

/-! ## Version 6 -/

/-- The segments on both sides of a run that is left out. -/
theorem eq_of_isRun {segments : List UInt16} {run : Run} (h : IsRun segments run)
    (hlong : ¬ run.length ≤ 1) :
    segments.take run.start ++ List.replicate run.length 0
      ++ segments.drop (run.start + run.length) = segments := by
  obtain hzero | ⟨front, back, hfront, rfl⟩ := h
  · omega
  · rw [← hfront]
    simp

/-- **Eight segments in full are read** as these eight, and nothing is left. -/
theorem readV6?_of_all {segments : List UInt16} (h : segments.length = 8) :
    readV6? (colons segments).toList = some (segments, []) := by
  have hread := readSegments_colons (s := []) (Nat.le_of_eq h) (Or.inl rfl)
  rw [List.append_nil] at hread
  rw [readV6?, hread]
  exact if_pos h

/-- What a double colon leaves out is made up for. -/
theorem readV6?_doubleColon {front back : List UInt16} {embedded : Bool}
    (hlength : front.length + back.length ≤ 6)
    (hback : readSegments true (7 - front.length) s = ((back, embedded), [])) :
    readV6? ((colons front).toList ++ ':' :: ':' :: s)
      = some (front ++ List.replicate (8 - front.length - back.length) 0 ++ back, []) := by
  rw [readV6?, readSegments_colons (by omega) (Or.inr ⟨s, rfl⟩)]
  dsimp only
  rw [if_neg (by omega), if_neg Bool.false_ne_true, afterMark?_cons]
  simp only [bind, Option.bind_some, afterMark?_cons, hback]
  rfl

/-- The text of the two last segments in the notation of version 4. -/
theorem readSegments_embedded (limit : Nat) (a b c d : UInt8) :
    readSegments false (limit + 2) (':' :: (dotted a b c d).toList)
      = (([UInt16.ofNat (a.toNat * 256 + b.toNat), UInt16.ofNat (c.toNat * 256 + d.toNat)], true),
        []) := by
  have hread := readV4?_dotted (s := []) a b c d fun _ hc => by cases hc
  rw [List.append_nil] at hread
  rw [readSegments, if_neg Bool.false_ne_true, afterMark?_cons]
  dsimp only
  rw [if_neg (by omega), hread]

/-- The two octets of a segment make up the segment. -/
theorem ofNat_halves (x : UInt16) :
    UInt16.ofNat ((UInt8.ofNat (x.toNat / 256)).toNat * 256 + (UInt8.ofNat (x.toNat % 256)).toNat)
      = x := by
  have hx : x.toNat < 65536 := UInt16.toNat_lt x
  rw [UInt8.toNat_ofNat_of_lt' (by show _ < 256; omega),
    UInt8.toNat_ofNat_of_lt' (by show _ < 256; omega), Nat.div_add_mod', UInt16.ofNat_toNat]

/-- An address that embeds one of version 4 is read from its notation. -/
theorem readV6?_embedding (a b c d : UInt8) :
    readV6? ("::ffff:" ++ dotted a b c d).toList
      = some ([0, 0, 0, 0, 0, 0xffff, UInt16.ofNat (a.toNat * 256 + b.toNat),
          UInt16.ofNat (c.toNat * 256 + d.toNat)], []) := by
  have hembedded : readSegments false 6 (':' :: (dotted a b c d).toList)
      = (([UInt16.ofNat (a.toNat * 256 + b.toNat), UInt16.ofNat (c.toNat * 256 + d.toNat)], true),
        []) := readSegments_embedded 4 a b c d
  have hback := readSegments_segment (s := ':' :: (dotted a b c d).toList) true 6 0xffff
    (Or.inr ⟨_, rfl⟩)
  simp only [hembedded] at hback
  rw [String.toList_append]
  exact @readV6?_doubleColon _ [] _ _ (by simp) hback

/-- **The text of an address of version 6 is read.** -/
theorem readV6?_segmentsText {segments : List UInt16} (h : segments.length = 8) :
    readV6? (segmentsText segments).toList = some (segments, []) := by
  unfold segmentsText
  split
  · rw [readV6?_embedding, ofNat_halves, ofNat_halves]
  · dsimp only
    have hlast : IsLastRun [] ⟨0, 0⟩ := Or.inl rfl
    have hrun : IsRun segments (longestRun 0 ⟨0, 0⟩ ⟨0, 0⟩ segments) :=
      isRun_longestRun hlast.isRun hlast segments
    generalize longestRun 0 ⟨0, 0⟩ ⟨0, 0⟩ segments = run at hrun ⊢
    split_ifs with hshort
    · exact readV6?_of_all h
    · have hsides := eq_of_isRun hrun hshort
      generalize segments.take run.start = front at hsides ⊢
      generalize segments.drop (run.start + run.length) = back at hsides ⊢
      rw [← hsides, List.length_append, List.length_append, List.length_replicate] at h
      have hlimit : back.length ≤ 7 - front.length := by omega
      have hback := readSegments_colons hlimit (Or.inl rfl)
      have hzeros : 8 - front.length - back.length = run.length := by omega
      rw [List.append_nil] at hback
      have htext : (colons front ++ "::" ++ colons back).toList
          = (colons front).toList ++ ':' :: ':' :: (colons back).toList := by
        rw [String.toList_append, String.toList_append, List.append_assoc]
        rfl
      rw [htext, readV6?_doubleColon (by omega) hback, hzeros, hsides]

/-- The text of segments begins with a segment or a colon. -/
theorem readV4?_segmentsText {segments : List UInt16} (h : segments.length = 8) :
    readV4? (segmentsText segments).toList = none := by
  have hcolon : ∀ s : List Char, readV4? (':' :: s) = none := fun s =>
    readV4?_ends (Or.inr ⟨s, rfl⟩)
  have hcolons : ∀ (x : UInt16) (rest : List UInt16) {s : List Char}, EndsSegment s →
      readV4? ((colons (x :: rest)).toList ++ s) = none := by
    intro x rest s hs
    rw [toList_colons_cons, List.append_assoc]
    exact readV4?_segment x (endsSegment_afterColons rest hs)
  unfold segmentsText
  split
  · rw [String.toList_append]
    exact hcolon _
  · dsimp only
    generalize longestRun 0 ⟨0, 0⟩ ⟨0, 0⟩ segments = run
    split_ifs
    · obtain ⟨x, rest, rfl⟩ := List.exists_cons_of_length_pos (by omega : 0 < segments.length)
      have hall := hcolons x rest (Or.inl rfl)
      rwa [List.append_nil] at hall
    · rw [String.toList_append, String.toList_append, List.append_assoc]
      cases segments.take run.start with
      | nil => exact hcolon _
      | cons x rest => exact hcolons x rest (Or.inr ⟨_, rfl⟩)

/-- **The text of an address is read as the address.** -/
theorem parse?_text (a : IpAddress) : parse? a.text = some a := by
  cases a with
  | v4 a b c d =>
    have hread := readV4?_dotted (s := []) a b c d fun _ hc => by cases hc
    rw [List.append_nil] at hread
    rw [parse?, text, hread]
  | v6 segments eight =>
    rw [parse?, text, readV4?_segmentsText eight, readV6?_segmentsText eight]
    exact dif_pos eight

/-- **Addresses have different texts.** -/
theorem text_injective : Function.Injective text := by
  intro a b h
  have hread := congrArg parse? h
  rw [parse?_text, parse?_text] at hread
  exact Option.some.inj hread

end CertAuthority.IpAddress
