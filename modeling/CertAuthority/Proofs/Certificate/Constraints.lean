import CertAuthority.Proofs.Certificate.Acceptance
import CertAuthority.Proofs.Der.Series

/-!
# Who is an authority

The value of the basic constraints is a sequence of a flag, a limit on the
length of chains, both or neither (`Extension.Constraints`). What its reader
takes for one is said by `Extension.authority?_eq_some_iff`: it asks for the tag
numbers of the elements and for a limit that fits thirty-two bits, and does not
mind bytes behind the sequence. What a value should be is said by
`Extension.Says`.

Two such extensions are refused, whatever they say, and no certificate is that
of an authority without a flag that is set
(`Certificate.ofDer_followsConstraints`). But a value that cannot be read is not
refused. It makes no authority, as if it were not there, and that includes a
flag that is set beside a limit that is too large. So the outcome is the one
that the constraints ask for exactly if they say something, and do not say both.
-/

namespace CertAuthority

open Der

namespace Extension

/-! ## Flags and limits -/

/-- **A flag**: a boolean of one byte. -/
structure IsFlag (e : Element) : Prop where
  /-- It has a tag of the notation itself. -/
  tagClass : e.identifier.tagClass = .universal
  /-- Its tag has the number of booleans. -/
  number : e.number = Tag.boolean
  /-- There is one byte. -/
  byte : e.content.length = 1

/-- Whether a flag is set, which any byte but zero does. -/
def isSet (e : Element) : Bool := e.content != [0]

/-- **A number**, as far as its tag says so. Whether its digits are in the
shortest form, and how large it is, are conditions of their own, since the
reader asks for the one and not for the other. -/
structure IsNumber (e : Element) : Prop where
  /-- It has a tag of the notation itself. -/
  tagClass : e.identifier.tagClass = .universal
  /-- Its tag has the number of integers. -/
  number : e.number = Tag.integer

/-- **What is read as a flag** is one, and set unless its byte is zero. -/
theorem flag?_eq_some_iff {e : Element} {b : Bool} :
    flag? e = some b ↔ IsFlag e ∧ b = isSet e := by
  obtain ⟨⟨tagClass, constructed, number⟩, content⟩ := e
  constructor
  · intro h
    unfold flag? at h
    split at h
    · rename_i x hclass hcontent
      obtain rfl : tagClass = .universal := hclass
      obtain rfl : content = [x] := hcontent
      split_ifs at h with hnumber
      obtain rfl := Option.some.inj h
      refine ⟨⟨rfl, hnumber, rfl⟩, ?_⟩
      simp [isSet, bne]
    · cases h
  · rintro ⟨⟨hclass, hnumber, hbyte⟩, rfl⟩
    obtain ⟨x, rfl⟩ := List.length_eq_one_iff.1 hbyte
    obtain rfl : tagClass = .universal := hclass
    unfold flag?
    dsimp only
    rw [if_pos hnumber]
    simp [isSet, bne]

/-- **What is taken for a limit** is a number of thirty-two bits at most. -/
theorem isLimit_iff {e : Element} :
    isLimit e = true ↔ IsNumber e ∧ Bytes.toNat e.content < Nat.pow 2 32 := by
  simp only [isLimit, Bool.and_eq_true, beq_iff_eq, decide_eq_true_eq]
  exact ⟨fun ⟨⟨hclass, hnumber⟩, hfits⟩ => ⟨⟨hclass, hnumber⟩, hfits⟩,
    fun ⟨⟨hclass, hnumber⟩, hfits⟩ => ⟨⟨hclass, hnumber⟩, hfits⟩⟩

/-- No flag is a number. -/
theorem flag?_of_isNumber {e : Element} (h : IsNumber e) : flag? e = none := by
  rw [Option.eq_none_iff_forall_ne_some]
  intro b hb
  have hnumber := (flag?_eq_some_iff.1 hb).1.number
  rw [h.number] at hnumber
  cases hnumber

/-! ## Constraints

What constraints may be made of is said without a reader: a flag and a limit,
each of which may be missing. As they are told apart by their types, the
elements of a value are those of one such pair at most, and so a value says
one thing or nothing. -/

/-- **What basic constraints are made of.** Both parts may be missing. They are
kept as the elements they are, so that one can ask of them what the notation
asks and what the reader does. -/
structure Constraints where
  /-- Whether the subject is an authority. -/
  flag : Option Element
  /-- How long a chain from it may be. -/
  limit : Option Element

namespace Constraints

variable (p : Constraints)

/-- The elements, in their order. -/
def entries : List Element := p.flag.toList ++ p.limit.toList

/-- The elements are a flag and a number, where they are there. This is what
makes it possible to tell which is which. -/
structure IsTyped : Prop where
  /-- The flag is one. -/
  flag : ∀ e ∈ p.flag, IsFlag e
  /-- The limit is a number. -/
  limit : ∀ e ∈ p.limit, IsNumber e

/-- **The elements are as they should be**: primitive, and the limit neither
negative nor longer than it needs to be. -/
structure IsProper : Prop extends IsTyped p where
  /-- The form of the elements. -/
  form : ∀ e ∈ p.entries, e.constructed = false
  /-- The limit has no needless byte. -/
  minimal : ∀ e ∈ p.limit, isMinimalInteger e.content = true
  /-- The limit is not negative. -/
  sign : ∀ e ∈ p.limit, (e.content.headD 0).toNat < 128

/-- **Whether the subject is an authority.** Without a flag it is none, and with
one it is unless the byte is zero. -/
def authority : Bool := p.flag.any isSet

/-- The limit fits thirty-two bits, which is all that the reader has for it. A
number is read here without its sign. -/
def Fits : Prop := ∀ e ∈ p.limit, Bytes.toNat e.content < Nat.pow 2 32

variable {p}

/-- **The elements tell what is the flag and what the limit.** -/
theorem IsTyped.eq_of_entries {q : Constraints} (hp : p.IsTyped) (hq : q.IsTyped)
    (h : p.entries = q.entries) : p = q := by
  have hne : ∀ {e e' : Element}, IsFlag e → IsNumber e' → e ≠ e' := by
    rintro e e' hflag hnumber rfl
    exact absurd (hflag.number.symm.trans hnumber.number) (by decide)
  obtain ⟨flag, limit⟩ := p
  obtain ⟨flag', limit'⟩ := q
  match flag, limit, flag', limit', hp, hq, h with
  | none, none, none, none, _, _, _ => rfl
  | none, some _, none, some _, _, _, h => cases h; rfl
  | some _, none, some _, none, _, _, h => cases h; rfl
  | some _, some _, some _, some _, _, _, h => cases h; rfl
  | none, some e, some e', none, hp, hq, h =>
    exact absurd (List.cons.inj h).1.symm (hne (hq.flag e' rfl) (hp.limit e rfl))
  | some e, none, none, some e', hp, hq, h =>
    exact absurd (List.cons.inj h).1 (hne (hp.flag e rfl) (hq.limit e' rfl))

end Constraints

/-- **What a value says as basic constraints**: it is a sequence of a proper flag
and a proper limit, as far as they are there. -/
structure Says (value : Bytes) (p : Constraints) : Prop where
  /-- The value is a sequence of the elements. -/
  sequence : IsSequence value p.entries
  /-- The elements are as they should be. -/
  proper : p.IsProper

/-! ## The reader of constraints

The reader asks for less than a proper value and, in one respect, for more. It
takes elements of any form, numbers with needless bytes and bytes behind the
sequence; but a limit that does not fit thirty-two bits it cannot hold, and
then it does not read the flag in front of it either. -/

/-- What the reader makes of the elements. -/
def authorityOf? : List Element → Option Bool
  | [] => some false
  | [e] =>
    match flag? e with
    | some flag => some flag
    | none => if isLimit e then some false else none
  | [e, limit] => if isLimit limit then flag? e else none
  | _ => none

/-- The reader looks at the elements of the sequence, and not behind it. -/
theorem authority?_of_beginsWith {value rest : Bytes} {sequence : Element}
    {entries : List Element} (h : BeginsWith value sequence entries rest)
    (hform : sequence.constructed = true) : authority? value = authorityOf? entries := by
  unfold authority?
  rw [readTagged?_eq_some_iff.2 ⟨h.read, h.number⟩, Option.bind_eq_bind, Option.bind_some]
  dsimp only
  rw [hform, readAll?_readElement?_eq_some_iff.2 h.series]
  rfl

/-- Of a flag and a limit that fits it makes what the flag says. -/
theorem Constraints.IsTyped.authorityOf? {p : Constraints} (htyped : p.IsTyped) (hfits : p.Fits) :
    authorityOf? p.entries = some p.authority := by
  have hflag : ∀ e ∈ p.flag, flag? e = some (isSet e) := fun e he =>
    flag?_eq_some_iff.2 ⟨htyped.flag e he, rfl⟩
  have hlimit : ∀ e ∈ p.limit, isLimit e = true := fun e he =>
    isLimit_iff.2 ⟨htyped.limit e he, hfits e he⟩
  obtain ⟨flag, limit⟩ := p
  match flag, limit with
  | none, none => rfl
  | some e, none =>
    show (match flag? e with | some flag => some flag | none => _) = _
    rw [hflag e rfl]
    rfl
  | none, some e =>
    show (match flag? e with | some flag => some flag | none => _) = _
    rw [flag?_of_isNumber (htyped.limit e rfl)]
    exact if_pos (hlimit e rfl)
  | some e, some e' =>
    show (if isLimit e' then flag? e else none) = _
    rw [if_pos (hlimit e' rfl), hflag e rfl]
    rfl

/-- **The elements are those of constraints**, if the reader makes anything of
them. -/
theorem authorityOf?_eq_some_iff {entries : List Element} {b : Bool} :
    authorityOf? entries = some b ↔
      ∃ p : Constraints, p.IsTyped ∧ p.Fits ∧ entries = p.entries ∧ p.authority = b := by
  constructor
  · intro h
    have hnone : ∀ {q : Element → Prop}, ∀ e ∈ (none : Option Element), q e := by simp
    -- There are at most two entries. A single one is a flag or a limit, by its tag.
    match entries, h with
    | [], h =>
      obtain rfl := Option.some.inj h
      exact ⟨⟨none, none⟩, ⟨hnone, hnone⟩, hnone, rfl, rfl⟩
    | [e], h =>
      simp only [authorityOf?] at h
      split at h
      · rename_i flag hflag
        obtain rfl := Option.some.inj h
        obtain ⟨hisFlag, rfl⟩ := flag?_eq_some_iff.1 hflag
        exact ⟨⟨some e, none⟩, ⟨by simpa using hisFlag, hnone⟩, hnone, rfl, by simp [Constraints.authority]⟩
      · split_ifs at h with hlimit
        obtain rfl := Option.some.inj h
        obtain ⟨hnumber, hfits⟩ := isLimit_iff.1 hlimit
        exact ⟨⟨none, some e⟩, ⟨hnone, by simpa using hnumber⟩,
          by simpa [Constraints.Fits] using hfits, rfl, rfl⟩
    | [e, limit], h =>
      simp only [authorityOf?] at h
      split_ifs at h with hlimit
      obtain ⟨hnumber, hfits⟩ := isLimit_iff.1 hlimit
      obtain ⟨hflag, rfl⟩ := flag?_eq_some_iff.1 h
      exact ⟨⟨some e, some limit⟩, ⟨by simpa using hflag, by simpa using hnumber⟩,
        by simpa [Constraints.Fits] using hfits, rfl, by simp [Constraints.authority]⟩
    | _ :: _ :: _ :: _, h => cases h
  · rintro ⟨p, htyped, hfits, rfl, rfl⟩
    exact htyped.authorityOf? hfits

/-- **What is taken for basic constraints**, and what is made of it. -/
theorem authority?_eq_some_iff {value : Bytes} {b : Bool} :
    authority? value = some b ↔
      ∃ sequence rest p, BeginsWith value sequence (Constraints.entries p) rest
        ∧ sequence.constructed = true ∧ p.IsTyped ∧ p.Fits ∧ p.authority = b := by
  constructor
  · intro h
    obtain ⟨⟨sequence, rest⟩, htagged, h'⟩ := Option.bind_eq_some_iff.1 h
    obtain ⟨hread, hnumber⟩ := readTagged?_eq_some_iff.1 htagged
    dsimp only at h'
    split_ifs at h' with hform
    have hform : sequence.constructed = true := by simpa using hform
    obtain ⟨entries, hentries, -⟩ := Option.bind_eq_some_iff.1 h'
    have hbegins : BeginsWith value sequence entries rest :=
      ⟨hread, hnumber, readAll?_readElement?_eq_some_iff.1 hentries⟩
    rw [authority?_of_beginsWith hbegins hform] at h
    obtain ⟨p, htyped, hfits, rfl, hb⟩ := authorityOf?_eq_some_iff.1 h
    exact ⟨sequence, rest, p, hbegins, hform, htyped, hfits, hb⟩
  · rintro ⟨sequence, rest, p, hbegins, hform, htyped, hfits, rfl⟩
    rw [authority?_of_beginsWith hbegins hform, htyped.authorityOf? hfits]

/-- **What makes an authority**: constraints that fit, with a flag that is
set. -/
theorem getD_authority?_eq_true_iff {value : Bytes} : (authority? value).getD false = true ↔
    ∃ sequence rest p, BeginsWith value sequence (Constraints.entries p) rest
      ∧ sequence.constructed = true ∧ p.IsTyped ∧ p.Fits ∧ p.authority = true := by
  have htrue : (authority? value).getD false = true ↔ authority? value = some true := by
    cases authority? value <;> simp
  rw [htrue, authority?_eq_some_iff]

/-- A value says one thing. -/
theorem Says.unique {value : Bytes} {p q : Constraints} (hp : Says value p) (hq : Says value q) :
    p = q := by
  obtain ⟨content, hbegins⟩ := hp.sequence
  obtain ⟨content', hbegins'⟩ := hq.sequence
  exact hp.proper.toIsTyped.eq_of_entries hq.proper.toIsTyped (hbegins'.unique hbegins).2.1

/-- Constraints that say something make an authority if they say so and
fit. -/
theorem Says.getD_authority? {value : Bytes} {p : Constraints} (h : Says value p) :
    (authority? value).getD false = true ↔ p.authority = true ∧ p.Fits := by
  obtain ⟨content, hbegins⟩ := h.sequence
  rw [getD_authority?_eq_true_iff]
  constructor
  · rintro ⟨sequence, rest, q, hbegins', -, htyped, hfits, hauthority⟩
    obtain rfl := htyped.eq_of_entries h.proper.toIsTyped (hbegins.unique hbegins').2.1
    exact ⟨hauthority, hfits⟩
  · rintro ⟨hauthority, hfits⟩
    exact ⟨_, [], p, hbegins, rfl, h.proper.toIsTyped, hfits, hauthority⟩

end Extension

/-! ## Certificates

A value that cannot be read is treated as one that says that the subject is no
authority. So there are two ways in which the outcome can differ from what the
value asks for: the value says something and is taken for another thing, or it
says nothing and the certificate is accepted all the same. -/

namespace Certificate

/-- The outcome is the right one if there is nothing that is passed over. -/
theorem follows_constraints_iff {c : Certificate} {value : Bytes}
    (hca : c.isCa = (Extension.authority? value).getD false) :
    Follows (.ok c) (Extension.Says value) (fun c p => c.isCa = p.authority)
      ↔ ∃ p, Extension.Says value p ∧ (p.authority = true → p.Fits) := by
  rw [follows_ok_iff fun p q hp hq => hp.unique hq]
  refine exists_congr fun p => and_congr_right fun hp => ?_
  rw [hca, Bool.eq_iff_iff, hp.getD_authority?]
  exact and_iff_left_iff_imp

/-- **Who is an authority.** A byte string that is a certificate has at most one
extension with basic constraints. Without one it is the certificate of no
authority, and with one it is that of an authority exactly if the value begins
with constraints that fit and whose flag is set. Two of them are refused. A
byte string that is a certificate but for the value of the one that it has is
accepted, whatever the value is, and that is the outcome that the value asks
for exactly if it says something that is no authority, or one with a limit that
fits. -/
theorem ofDer_followsConstraints (der : Bytes) :
    (∀ c, ofDer der = .ok c →
      (Extension.ofType Extension.basicConstraints c.extensions = [] ∧ c.isCa = false)
        ∨ ∃ e, Extension.ofType Extension.basicConstraints c.extensions = [e]
          ∧ (c.isCa = true ↔ ∃ sequence rest p,
            BeginsWith e.value sequence (Extension.Constraints.entries p) rest
              ∧ sequence.constructed = true ∧ p.IsTyped ∧ p.Fits ∧ p.authority = true))
    ∧ ∀ contents, Contents.read? der = some (contents, []) →
      (2 ≤ (Extension.ofType Extension.basicConstraints contents.statement.extensions).length →
        ofDer der = .error (.encoding (.basicConstraints .duplicate)))
      ∧ ∀ san, Facts.readSan contents.statement.extensions = .ok san →
        (Extension.ofType Extension.basicConstraints contents.statement.extensions = [] →
          ∃ c, ofDer der = .ok c ∧ c.isCa = false)
        ∧ ∀ e, Extension.ofType Extension.basicConstraints contents.statement.extensions = [e] →
          (∃ c, ofDer der = .ok c)
            ∧ (Follows (ofDer der) (Extension.Says e.value) (fun c p => c.isCa = p.authority)
              ↔ ∃ p, Extension.Says e.value p ∧ (p.authority = true → p.Fits)) := by
  refine ⟨fun c _ => ?_, fun contents hread => ⟨fun hmore => ?_, fun san hsan => ⟨?_, ?_⟩⟩⟩
  · have hca := c.read_der.2.1
    rcases Extension.ofType_cases Extension.basicConstraints c.extensions with
      hnone | ⟨e, hone⟩ | hmore
    · rw [Facts.readIsCa_of_none hnone] at hca
      exact Or.inl ⟨hnone, (Except.ok.inj hca).symm⟩
    · rw [Facts.readIsCa_of_one hone] at hca
      refine Or.inr ⟨e, hone, ?_⟩
      rw [← Except.ok.inj hca, Extension.getD_authority?_eq_true_iff]
    · rw [Facts.readIsCa_of_more hmore] at hca
      cases hca
  · exact ofDer_of_readIsCa_error hread (Facts.readIsCa_of_more hmore)
  · intro hnone
    obtain ⟨c, hc, hfacts⟩ := exists_ofDer hread (Facts.readIsCa_of_none hnone) hsan
    exact ⟨c, hc, congrArg Facts.isCa hfacts⟩
  · intro e hone
    obtain ⟨c, hc, hfacts⟩ := exists_ofDer hread (Facts.readIsCa_of_one hone) hsan
    rw [hc]
    exact ⟨⟨c, rfl⟩, follows_constraints_iff (congrArg Facts.isCa hfacts)⟩

/-- A flag that is set. -/
def setFlag : Element := ⟨⟨.universal, false, Tag.boolean⟩, [0xff]⟩

theorem isFlag_setFlag : Extension.IsFlag setFlag := ⟨rfl, rfl, rfl⟩

/-- **The constraints of an authority** are followed. -/
theorem followsConstraints_authority :
    (∃ c, ofDer (smallDer [authorityExtension]) = .ok c ∧ c.isCa = true)
      ∧ Follows (ofDer (smallDer [authorityExtension])) (Extension.Says authorityExtension.value)
        (fun c p => c.isCa = p.authority) := by
  obtain ⟨c, hc, hcheck⟩ := exists_ofDer_of_check (smallDer [authorityExtension])
    (fun c => c.isCa && (c.extensions == [authorityExtension] && c.san == [])) (by decide +kernel)
  simp only [Bool.and_eq_true, beq_iff_eq] at hcheck
  obtain ⟨hisCa, hextensions, hsan⟩ := hcheck
  obtain ⟨hread, -, hreadSan⟩ := c.read_der
  rw [ofDer_eq_ok_iff.1 hc] at hread
  have hone : Extension.ofType Extension.basicConstraints c.extensions = [authorityExtension] := by
    rw [hextensions]
    decide +kernel
  refine ⟨⟨c, hc, hisCa⟩, ?_⟩
  rw [(((ofDer_followsConstraints _).2 _ hread).2 _ hreadSan).2 _ hone |>.2]
  refine ⟨⟨some setFlag, none⟩, ⟨?_, ?_⟩, fun _ => ?_⟩
  · exact ⟨_, rfl, rfl, readAll?_readElement?_eq_some_iff.1 (by decide +kernel)⟩
  · exact ⟨⟨by simpa using isFlag_setFlag, by simp⟩,
      by simp [Extension.Constraints.entries, setFlag], by simp, by simp⟩
  · simp [Extension.Constraints.Fits]

/-- Basic constraints with a null for a value. -/
def nullExtension : Extension := ⟨Extension.basicConstraints, true, [0x05, 0x00]⟩

/-- A limit of thirty-three bits. -/
def longLimit : Element :=
  ⟨⟨.universal, false, Tag.integer⟩, [0x01, 0x00, 0x00, 0x00, 0x00]⟩

/-- The constraints of an authority with such a limit. -/
def longExtension : Extension :=
  ⟨Extension.basicConstraints, true,
    [0x30, 0x0a, 0x01, 0x01, 0xff, 0x02, 0x05, 0x01, 0x00, 0x00, 0x00, 0x00]⟩

/-- **Constraints that are passed over.** A null says nothing about authorities,
and is accepted for the certificate of none. So is a flag that is set, if the
limit beside it is too large. -/
theorem not_followsConstraints_small :
    ((∃ c, ofDer (smallDer [nullExtension]) = .ok c ∧ c.isCa = false
        ∧ c.extensions = [nullExtension])
      ∧ ∀ p, ¬ Extension.Says nullExtension.value p)
    ∧ (∃ c, ofDer (smallDer [longExtension]) = .ok c ∧ c.isCa = false
        ∧ c.extensions = [longExtension])
      ∧ ∃ p, Extension.Says longExtension.value p ∧ p.authority = true := by
  have haccepted : ∀ e, e = nullExtension ∨ e = longExtension →
      ∃ c, ofDer (smallDer [e]) = .ok c ∧ c.isCa = false ∧ c.extensions = [e] := by
    intro e he
    obtain ⟨c, hc, hcheck⟩ := exists_ofDer_of_check (smallDer [e])
      (fun c => c.isCa == false && c.extensions == [e])
      (by rcases he with rfl | rfl <;> decide +kernel)
    simp only [Bool.and_eq_true, beq_iff_eq] at hcheck
    exact ⟨c, hc, hcheck.1, hcheck.2⟩
  refine ⟨⟨haccepted _ (Or.inl rfl), fun p hp => ?_⟩, haccepted _ (Or.inr rfl),
    ⟨some setFlag, some longLimit⟩, ⟨?_, ?_⟩, rfl⟩
  · obtain ⟨content, hbegins⟩ := hp.sequence
    have hnull : readElement? nullExtension.value = some (⟨⟨.universal, false, 5⟩, []⟩, []) := rfl
    cases hnull.symm.trans hbegins.read
  · exact ⟨_, rfl, rfl, readAll?_readElement?_eq_some_iff.1 (by decide +kernel)⟩
  · have hlimit : Extension.IsNumber longLimit := ⟨rfl, rfl⟩
    exact ⟨⟨by simpa using isFlag_setFlag, by simpa using hlimit⟩,
      by simp [Extension.Constraints.entries, setFlag, longLimit],
      by simp [isMinimalInteger, longLimit], by simp [longLimit]⟩

end Certificate

end CertAuthority
