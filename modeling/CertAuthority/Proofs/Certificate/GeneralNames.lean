import CertAuthority.Proofs.Certificate.Acceptance
import CertAuthority.Proofs.Certificate.Extensions
import CertAuthority.Proofs.Der.Series
import CertAuthority.Proofs.Text.Utf8Canonical

/-!
# Which alternative names a certificate has

The value of the extension is a sequence of general names. Of these the host
names are shown as their texts, and the addresses of four or sixteen bytes as
those addresses; the others are skipped (`AltName.Shown`). What the reader takes
for such a value is said by `AltName.ofExtension?_eq_some_iff`, in which no entry
is passed over: one that is no general name makes the value unreadable.

It is only the bytes behind the sequence that do not count, and the form of an
entry. So a certificate has the names that the value lists
(`Certificate.ofDer_followsNames`), and it is refused if the value lists none,
except where the value begins with a list that is not quite one.
-/

namespace CertAuthority

open Der

/-! ## Addresses -/

namespace IpAddress

/-- The segment that is made of two bytes has these bytes. -/
theorem segmentBytes_ofNat (a b : UInt8) :
    segmentBytes (UInt16.ofNat (a.toNat * 256 + b.toNat)) = [a, b] := by
  have ha := a.toNat_lt
  have hb := b.toNat_lt
  have hsegment : (UInt16.ofNat (a.toNat * 256 + b.toNat)).toNat = a.toNat * 256 + b.toNat := by
    rw [UInt16.toNat_ofNat', Nat.mod_eq_of_lt (by omega)]
  have hhigh : (a.toNat * 256 + b.toNat) / 256 = a.toNat := by omega
  have hlow : (a.toNat * 256 + b.toNat) % 256 = b.toNat := by omega
  unfold segmentBytes
  rw [hsegment, hhigh, hlow, UInt8.ofNat_toNat, UInt8.ofNat_toNat]

/-- **Bytes in pairs are the bytes of their segments.** -/
theorem flatMap_segmentsOf {n : Nat} {b : Bytes} (h : b.length = 2 * n) :
    (segmentsOf b).flatMap segmentBytes = b ∧ (segmentsOf b).length = n := by
  induction n generalizing b with
  | zero =>
    obtain rfl := List.eq_nil_of_length_eq_zero h
    exact ⟨rfl, rfl⟩
  | succ n ih =>
    match b, h with
    | x :: y :: rest, h =>
      obtain ⟨hbytes, hlength⟩ := ih (b := rest) (by simpa [Nat.mul_add] using h)
      rw [segmentsOf, List.flatMap_cons, segmentBytes_ofNat, hbytes, List.length_cons, hlength]
      exact ⟨rfl, rfl⟩

theorem length_bytes (a : IpAddress) : a.bytes.length = 4 ∨ a.bytes.length = 16 := by
  cases a with
  | v4 a b c d => exact Or.inl rfl
  | v6 segments eight =>
    refine Or.inr ?_
    show (segments.flatMap segmentBytes).length = 16
    rw [length_flatMap_segmentBytes, eight]

/-- **Four or sixteen bytes are an address.** -/
theorem exists_bytes_eq {b : Bytes} (h : b.length = 4 ∨ b.length = 16) :
    ∃ a : IpAddress, a.bytes = b := by
  rcases h with h | h
  · obtain ⟨w, x, y, z, rfl⟩ := List.length_eq_four.1 h
    exact ⟨v4 w x y z, rfl⟩
  · obtain ⟨hbytes, hlength⟩ := flatMap_segmentsOf (n := 8) h
    exact ⟨v6 (segmentsOf b) hlength, hbytes⟩

/-- **The address with these bytes**, and no other. -/
theorem ofBytes?_eq_some_iff {b : Bytes} {a : IpAddress} : ofBytes? b = some a ↔ a.bytes = b := by
  constructor
  · intro h
    have hlength : b.length = 4 ∨ b.length = 16 := by
      unfold ofBytes? at h
      split at h
      · exact Or.inl rfl
      · split_ifs at h with hboth
        exact Or.inr hboth.2
    obtain ⟨a', rfl⟩ := exists_bytes_eq hlength
    rw [ofBytes?_bytes] at h
    obtain rfl := Option.some.inj h
    rfl
  · rintro rfl
    exact ofBytes?_bytes a

theorem ofBytes?_eq_none_iff {b : Bytes} :
    ofBytes? b = none ↔ b.length ≠ 4 ∧ b.length ≠ 16 := by
  rw [← not_or, Option.eq_none_iff_forall_ne_some, ← not_exists, not_iff_not]
  simp only [ofBytes?_eq_some_iff]
  constructor
  · rintro ⟨a, rfl⟩
    exact a.length_bytes
  · exact exists_bytes_eq

end IpAddress

/-! ## General names

There are nine kinds of general names. The reader decodes the contents of six
of them and refuses the value if one cannot be decoded; what it keeps are host
names and addresses. -/

/-- **What a general name of a kind holds.** An entry of a foreign kind begins
with the identifier of that kind, texts are UTF-8, and a directory name is a
name. What is in the entries of three further kinds does not matter, nor what
bytes there are in an address. -/
def GeneralName.Holds (kind : Nat) (content : Bytes) : Prop :=
  match kind with
  | 0 => ∃ type rest, Oid.read? content = some (type, rest)
  | 1 | 2 | 6 => ∃ text : String, content = Text.Utf8.encode text.toList
  | 4 => ∃ name, Name.read? content = some (name, [])
  | 3 | 5 | 7 | 8 => True
  | _ => False

/-- **An element that is a general name**: a field of one of the nine kinds. -/
@[mk_iff] structure IsGeneralName (e : Element) : Prop where
  /-- It is told apart by its position. -/
  tagClass : e.identifier.tagClass = .contextSpecific
  /-- Its content is of its kind. -/
  holds : GeneralName.Holds e.number e.content

namespace AltName

/-- **The name that a host name or an address is shown as.** Host names are
compared by the bytes of their texts, and addresses by their octets, of which
there are four or sixteen. -/
def IsShownAs (e : Element) : AltName → Prop
  | .dns name => e.number = 2 ∧ e.content = Text.Utf8.encode name.toList
  | .ip address => e.number = 7 ∧ e.content = address.bytes

/-- A general name that is skipped: one of another kind, or an address of
another length. -/
def IsSkipped (e : Element) : Prop :=
  e.number ≠ 2 ∧ (e.number = 7 → e.content.length ≠ 4 ∧ e.content.length ≠ 16)

/-- **The names that are shown of a list of general names**, in its order. -/
inductive Shown : List Element → List AltName → Prop
  /-- No names. -/
  | nil : Shown [] []
  /-- A name that is shown, and then others. -/
  | shown {e : Element} {es : List Element} {n : AltName} {ns : List AltName}
      (first : IsShownAs e n) (others : Shown es ns) : Shown (e :: es) (n :: ns)
  /-- A name that is skipped, and then others. -/
  | skipped {e : Element} {es : List Element} {ns : List AltName}
      (first : IsSkipped e) (others : Shown es ns) : Shown (e :: es) ns

end AltName

namespace GeneralName

/-- What is read as a general name is told apart by its position. -/
theorem tagClass_of_ofElement? {e : Element} {g : GeneralName} (h : ofElement? e = some g) :
    e.identifier.tagClass = .contextSpecific := by
  by_contra hclass
  have hnone : ofElement? e = none := if_pos hclass
  rw [hnone] at h
  cases h

/-- A directory name is a name and nothing else. -/
theorem name_of_read {content : Bytes} {g : GeneralName}
    (h : (match Name.read? content with
      | some (_, []) => some other
      | _ => none) = some g) : (∃ name, Name.read? content = some (name, [])) ∧ g = other := by
  split at h
  · rename_i name hname
    exact ⟨⟨name, hname⟩, (Option.some.inj h).symm⟩
  · cases h

/-- **What an element is read as**: a host name, an address or another name. -/
theorem ofElement?_cases {e : Element} {g : GeneralName} (h : ofElement? e = some g) :
    (e.number = 2 ∧ ∃ name, g = .dns name ∧ e.content = Text.Utf8.encode name.toList)
      ∨ (e.number = 7 ∧ g = .ip e.content) ∨ (e.number ≠ 2 ∧ e.number ≠ 7 ∧ g = .other) := by
  have hclass := tagClass_of_ofElement? h
  obtain ⟨⟨tagClass, constructed, kind⟩, content⟩ := e
  obtain rfl : tagClass = .contextSpecific := hclass
  have hother : ∀ {α : Type} {read : Option α}, read.map (fun _ => other) = some g → g = other := by
    intro α read hread
    obtain ⟨_, -, rfl⟩ := Option.map_eq_some_iff.1 hread
    rfl
  show (kind = 2 ∧ ∃ name, g = .dns name ∧ content = Text.Utf8.encode name.toList)
    ∨ (kind = 7 ∧ g = .ip content) ∨ (kind ≠ 2 ∧ kind ≠ 7 ∧ g = .other)
  match kind, h with
  | 2, h =>
    obtain ⟨name, hname, rfl⟩ := Option.map_eq_some_iff.1 h
    exact Or.inl ⟨rfl, name, rfl, Text.Utf8.decode?_eq_some_iff.1 hname⟩
  | 7, h => exact Or.inr (Or.inl ⟨rfl, (Option.some.inj h).symm⟩)
  | 0, h | 1, h | 6, h => exact Or.inr (Or.inr ⟨by decide, by decide, hother h⟩)
  | 4, h => exact Or.inr (Or.inr ⟨by decide, by decide, (name_of_read h).2⟩)
  | 3, h | 5, h | 8, h => exact Or.inr (Or.inr ⟨by decide, by decide, (Option.some.inj h).symm⟩)
  | _ + 9, h => cases h

/-- **What is read as a general name is one**, and nothing else is read. -/
theorem isSome_ofElement?_iff {e : Element} : (ofElement? e).isSome ↔ IsGeneralName e := by
  obtain ⟨⟨tagClass, constructed, kind⟩, content⟩ := e
  rw [isGeneralName_iff]
  by_cases hclass : tagClass = .contextSpecific
  · subst hclass
    have htext : (Text.Utf8.decode? content).isSome
        ↔ ∃ text : String, content = Text.Utf8.encode text.toList := by
      rw [Option.isSome_iff_exists]
      exact exists_congr fun text => Text.Utf8.decode?_eq_some_iff
    match kind with
    | 0 => simp [ofElement?, Holds, Option.isSome_iff_exists]
    | 1 | 2 | 6 => simp [ofElement?, Holds, htext]
    | 3 | 5 | 7 | 8 => simp [ofElement?, Holds]
    | 4 =>
      refine (Option.isSome_iff_exists.trans ⟨?_, ?_⟩).trans (and_iff_right rfl).symm
      · rintro ⟨g, hg⟩
        exact (name_of_read hg).1
      · rintro ⟨name, hname⟩
        have hread : Name.read? content = some (name, []) := hname
        exact ⟨other, by simp [ofElement?, hread]⟩
    | _ + 9 => simp [ofElement?, Holds]
  · have hnone : ofElement? ⟨⟨tagClass, constructed, kind⟩, content⟩ = none := if_pos hclass
    rw [hnone]
    exact iff_of_false (by simp) fun h => hclass h.1

/-- The reader of a general name reads an element and looks at it. -/
theorem read?_eq : read? = fun b =>
    (readElement? b).bind fun x => (ofElement? x.1).map (·, x.2) := by
  funext b
  unfold read?
  cases readElement? b with
  | none => rfl
  | some x =>
    show (ofElement? x.1).bind (fun g => some (g, x.2)) = (ofElement? x.1).map (·, x.2)
    rw [Option.map_eq_bind]
    rfl

/-- A general name is read by itself, whatever is behind it. -/
theorem isLocal_read? : IsLocal read? := by
  rw [read?_eq]
  exact isLocal_readElement?.check ofElement?

end GeneralName

/-! ## The list of names

A name is passed over only if it is of a kind that is not shown, or an address
that is neither of four nor of sixteen bytes. Which names are shown is a
relation between the entries and a list, with one rule for each of the three
cases, and it determines the list. -/

namespace AltName

/-- **A general name is shown** as what it is read as. -/
theorem ofGeneral?_eq_some_iff {e : Element} {g : GeneralName}
    (h : GeneralName.ofElement? e = some g) {n : AltName} :
    ofGeneral? g = some n ↔ IsShownAs e n := by
  have hdns : ∀ name, IsShownAs e (.dns name)
      ↔ e.number = 2 ∧ Text.Utf8.decode? e.content = some name := fun name =>
    and_congr_right fun _ => Text.Utf8.decode?_eq_some_iff.symm
  have hip : ∀ address, IsShownAs e (.ip address)
      ↔ e.number = 7 ∧ IpAddress.ofBytes? e.content = some address := fun address =>
    and_congr_right fun _ => eq_comm.trans IpAddress.ofBytes?_eq_some_iff.symm
  rcases GeneralName.ofElement?_cases h with
    ⟨hkind, name, rfl, hcontent⟩ | ⟨hkind, rfl⟩ | ⟨htwo, hseven, rfl⟩
  · cases n with
    | dns name' => simp [ofGeneral?, hdns, hkind, Text.Utf8.decode?_eq_some_iff.2 hcontent]
    | ip address => simp [ofGeneral?, hip, hkind]
  · cases n with
    | dns name => simp [ofGeneral?, hdns, hkind]
    | ip address => simp [ofGeneral?, hip, hkind]
  · cases n with
    | dns name => simp [ofGeneral?, hdns, htwo]
    | ip address => simp [ofGeneral?, hip, hseven]

/-- **A general name is skipped** if it is read as nothing to show. -/
theorem ofGeneral?_eq_none_iff {e : Element} {g : GeneralName}
    (h : GeneralName.ofElement? e = some g) : ofGeneral? g = none ↔ IsSkipped e := by
  rcases GeneralName.ofElement?_cases h with
    ⟨hkind, name, rfl, -⟩ | ⟨hkind, rfl⟩ | ⟨htwo, hseven, rfl⟩
  · simp [ofGeneral?, IsSkipped, hkind]
  · simp [ofGeneral?, IsSkipped, hkind, IpAddress.ofBytes?_eq_none_iff]
  · simp [ofGeneral?, IsSkipped, htwo, hseven]

/-- **The names that are kept are those that are shown.** -/
theorem shown_iff {entries : List Element} {gs : List GeneralName}
    (h : entries.mapM GeneralName.ofElement? = some gs) {names : List AltName} :
    Shown entries names ↔ gs.filterMap ofGeneral? = names := by
  induction entries generalizing gs names with
  | nil =>
    obtain rfl := Option.some.inj h
    constructor
    · intro hshown
      cases hshown
      rfl
    · rintro rfl
      exact .nil
  | cons e entries ih =>
    rw [List.mapM_cons] at h
    obtain ⟨g, hg, h⟩ := Option.bind_eq_some_iff.1 h
    obtain ⟨gs', hgs, h⟩ := Option.bind_eq_some_iff.1 h
    obtain rfl := Option.some.inj h
    rw [List.filterMap_cons]
    constructor
    · intro hshown
      cases hshown with
      | shown first others =>
        rw [(ofGeneral?_eq_some_iff hg).2 first]
        exact congrArg _ ((ih hgs).1 others)
      | skipped first others =>
        rw [(ofGeneral?_eq_none_iff hg).2 first]
        exact (ih hgs).1 others
    · intro hnames
      split at hnames
      · rename_i hnone
        exact .skipped ((ofGeneral?_eq_none_iff hg).1 hnone) ((ih hgs).2 hnames)
      · rename_i n hsome
        subst hnames
        exact .shown ((ofGeneral?_eq_some_iff hg).1 hsome) ((ih hgs).2 rfl)

/-- **Entries are read exactly if each of them is a general name.** -/
theorem exists_mapM_iff {entries : List Element} :
    (∃ gs, entries.mapM GeneralName.ofElement? = some gs) ↔ ∀ e ∈ entries, IsGeneralName e := by
  induction entries with
  | nil => simp
  | cons e entries ih =>
    rw [List.forall_mem_cons, ← ih, ← GeneralName.isSome_ofElement?_iff]
    simp [List.mapM_cons, Option.isSome_iff_exists, Option.bind_eq_some_iff]

/-- **General names are shown as one list.** -/
theorem Shown.unique {entries : List Element} (hnames : ∀ e ∈ entries, IsGeneralName e)
    {names names' : List AltName} (h : Shown entries names) (h' : Shown entries names') :
    names = names' := by
  obtain ⟨gs, hgs⟩ := exists_mapM_iff.2 hnames
  rw [← (shown_iff hgs).1 h, (shown_iff hgs).1 h']

/-- **What is taken for a list of names**, and what is shown of it. -/
theorem ofExtension?_eq_some_iff {value : Bytes} {names : List AltName} :
    ofExtension? value = some names ↔
      ∃ sequence entries rest, BeginsWith value sequence entries rest
        ∧ (∀ e ∈ entries, IsGeneralName e) ∧ Shown entries names := by
  have hseries : ∀ {b : Bytes} {gs : List GeneralName}, Series GeneralName.read? b gs
      ↔ ∃ entries, Series readElement? b entries
        ∧ entries.mapM GeneralName.ofElement? = some gs := by
    rw [GeneralName.read?_eq]
    exact series_check_iff
  unfold ofExtension?
  constructor
  · intro h
    obtain ⟨⟨gs, rest⟩, hinside, h⟩ := Option.bind_eq_some_iff.1 h
    obtain ⟨sequence, hread, hnumber, hgs⟩ :=
      (readInside?_readAll?_eq_some_iff GeneralName.isLocal_read? rfl).1 hinside
    obtain ⟨entries, hentries, hmapM⟩ := hseries.1 hgs
    exact ⟨sequence, entries, rest, ⟨hread, hnumber, hentries⟩, exists_mapM_iff.1 ⟨gs, hmapM⟩,
      (shown_iff hmapM).2 (Option.some.inj h)⟩
  · rintro ⟨sequence, entries, rest, hbegins, hnames, hshown⟩
    obtain ⟨gs, hmapM⟩ := exists_mapM_iff.2 hnames
    have hinside := (readInside?_readAll?_eq_some_iff GeneralName.isLocal_read? rfl).2
      ⟨sequence, hbegins.read, hbegins.number, hseries.2 ⟨entries, hbegins.series, hmapM⟩⟩
    rw [hinside]
    exact congrArg some ((shown_iff hmapM).1 hshown)

/-- **A value cannot be read** exactly if it does not begin with a list of
general names. -/
theorem ofExtension?_eq_none_iff {value : Bytes} :
    ofExtension? value = none ↔ ¬ ∃ sequence entries rest,
      BeginsWith value sequence entries rest ∧ ∀ e ∈ entries, IsGeneralName e := by
  rw [Option.eq_none_iff_forall_ne_some, ← not_exists, not_iff_not]
  constructor
  · rintro ⟨names, h⟩
    obtain ⟨sequence, entries, rest, hbegins, hnames, -⟩ := ofExtension?_eq_some_iff.1 h
    exact ⟨sequence, entries, rest, hbegins, hnames⟩
  · rintro ⟨sequence, entries, rest, hbegins, hnames⟩
    obtain ⟨gs, hmapM⟩ := exists_mapM_iff.2 hnames
    exact ⟨_, ofExtension?_eq_some_iff.2
      ⟨sequence, entries, rest, hbegins, hnames, (shown_iff hmapM).2 rfl⟩⟩

/-- Whether a general name of a kind is made of elements. -/
def hasParts (kind : Nat) : Bool := kind == 0 || kind == 3 || kind == 4 || kind == 5

/-- **What a value says as a list of names**: it is a sequence of general names,
each of the form of its kind, and nothing else. -/
structure Lists (value : Bytes) (entries : List Element) : Prop where
  /-- The value is a sequence of the names. -/
  sequence : IsSequence value entries
  /-- They are general names. -/
  names : ∀ e ∈ entries, IsGeneralName e
  /-- A name is made of elements if its kind is. -/
  form : ∀ e ∈ entries, e.constructed = hasParts e.number

/-- A value lists one list of names. -/
theorem Lists.unique {value : Bytes} {entries entries' : List Element} (h : Lists value entries)
    (h' : Lists value entries') : entries = entries' := by
  obtain ⟨content, hbegins⟩ := h.sequence
  obtain ⟨content', hbegins'⟩ := h'.sequence
  exact (hbegins'.unique hbegins).2.1

/-- A value that cannot be read lists nothing. -/
theorem not_lists_of_unreadable {value : Bytes} (h : ofExtension? value = none)
    (entries : List Element) : ¬ Lists value entries := by
  intro hlists
  obtain ⟨content, hbegins⟩ := hlists.sequence
  exact absurd ⟨_, entries, [], hbegins, hlists.names⟩ (ofExtension?_eq_none_iff.1 h)

end AltName

/-! ## Certificates

With one extension the outcome is a matter of its value. A value that does not
begin with a list of general names is refused, and so it should be. One that
begins with such a list and goes on behind it should be refused as well, and
is not. -/

namespace Certificate

/-- The outcome is the right one if the names are all of the value. -/
theorem follows_names_iff {c : Certificate} {value : Bytes}
    (h : AltName.ofExtension? value = some c.san) :
    Follows (.ok c) (AltName.Lists value) (fun c entries => AltName.Shown entries c.san)
      ↔ ∀ sequence entries rest, BeginsWith value sequence entries rest →
        (∀ x ∈ entries, IsGeneralName x) → AltName.Lists value entries := by
  rw [follows_ok_iff fun entries entries' hlists hlists' => hlists.unique hlists']
  constructor
  · rintro ⟨entries', hlists, -⟩ sequence entries rest hbegins hnames
    obtain ⟨content, hbegins'⟩ := hlists.sequence
    obtain ⟨-, rfl, -⟩ := hbegins.unique hbegins'
    exact hlists
  · intro hall
    obtain ⟨sequence, entries, rest, hbegins, hnames, hshown⟩ :=
      AltName.ofExtension?_eq_some_iff.1 h
    exact ⟨entries, hall sequence entries rest hbegins hnames, hshown⟩

/-- **Which names a certificate has.** A byte string that is a certificate has at
most one extension with alternative names. Without one it has no names, and with
one it has those that are shown of the entries that the value begins with, in
their order, each of which is a general name. Two such extensions are refused,
and so is exactly the value that does not begin with a list of general names.
The outcome for a byte string that is a certificate but for that value is the
one that the value asks for exactly if it lists the names that it begins with,
so that there is nothing behind them. -/
theorem ofDer_followsNames (der : Bytes) :
    (∀ c, ofDer der = .ok c →
      (Extension.ofType Extension.subjectAltName c.extensions = [] ∧ c.san = [])
        ∨ ∃ e, Extension.ofType Extension.subjectAltName c.extensions = [e]
          ∧ ∃ sequence entries rest, BeginsWith e.value sequence entries rest
            ∧ (∀ x ∈ entries, IsGeneralName x) ∧ AltName.Shown entries c.san)
    ∧ ∀ contents, Contents.read? der = some (contents, []) →
      ∀ isCa, Facts.readIsCa contents.statement.extensions = .ok isCa →
        (2 ≤ (Extension.ofType Extension.subjectAltName contents.statement.extensions).length →
          ofDer der = .error (.encoding (.subjectAltName .duplicate)))
        ∧ (Extension.ofType Extension.subjectAltName contents.statement.extensions = [] →
          ∃ c, ofDer der = .ok c ∧ c.san = [])
        ∧ ∀ e, Extension.ofType Extension.subjectAltName contents.statement.extensions = [e] →
          (ofDer der = .error (.encoding (.subjectAltName .invalid))
            ↔ ¬ ∃ sequence entries rest, BeginsWith e.value sequence entries rest
              ∧ ∀ x ∈ entries, IsGeneralName x)
          ∧ (Follows (ofDer der) (AltName.Lists e.value)
              (fun c entries => AltName.Shown entries c.san)
            ↔ ∀ sequence entries rest, BeginsWith e.value sequence entries rest →
              (∀ x ∈ entries, IsGeneralName x) → AltName.Lists e.value entries) := by
  refine ⟨fun c _ => ?_, fun contents hread isCa hca => ⟨fun hmore => ?_, fun hnone => ?_, ?_⟩⟩
  -- What was accepted was read, and so were the extensions that it has.
  · have hsan := c.read_der.2.2
    rcases Extension.ofType_cases Extension.subjectAltName c.extensions with
      hnone | ⟨e, hone⟩ | hmore
    · rw [Facts.readSan_of_none hnone] at hsan
      exact Or.inl ⟨hnone, (Except.ok.inj hsan).symm⟩
    · refine Or.inr ⟨e, hone, AltName.ofExtension?_eq_some_iff.1 ?_⟩
      match hnames : AltName.ofExtension? e.value with
      | none =>
        rw [Facts.readSan_of_unreadable hone hnames] at hsan
        cases hsan
      | some names =>
        rw [Facts.readSan_of_names hone hnames] at hsan
        rw [Except.ok.inj hsan]
    · rw [Facts.readSan_of_more hmore] at hsan
      cases hsan
  · exact ofDer_of_readSan_error hread hca (Facts.readSan_of_more hmore)
  · obtain ⟨c, hc, hfacts⟩ := exists_ofDer hread hca (Facts.readSan_of_none hnone)
    exact ⟨c, hc, congrArg Facts.san hfacts⟩
  · intro e hone
    rw [← AltName.ofExtension?_eq_none_iff]
    -- With one extension all depends on whether its value can be read.
    match hnames : AltName.ofExtension? e.value with
    | none =>
      rw [ofDer_of_readSan_error hread hca (Facts.readSan_of_unreadable hone hnames)]
      refine ⟨iff_of_true rfl rfl,
        iff_of_true (follows_error_iff.2 (AltName.not_lists_of_unreadable hnames)) ?_⟩
      intro sequence entries rest hbegins hall
      exact absurd ⟨sequence, entries, rest, hbegins, hall⟩
        (AltName.ofExtension?_eq_none_iff.1 hnames)
    | some names =>
      obtain ⟨c, hc, hfacts⟩ := exists_ofDer hread hca (Facts.readSan_of_names hone hnames)
      obtain rfl : c.san = names := congrArg Facts.san hfacts
      rw [hc]
      exact ⟨iff_of_false (by simp) (by simp), follows_names_iff hnames⟩

/-- The name `a`. -/
def oneNameExtension : Extension :=
  ⟨Extension.subjectAltName, false, [0x30, 0x03, 0x82, 0x01, 0x61]⟩

/-- **A name that is kept.** -/
theorem followsNames_oneName :
    (∃ c, ofDer (smallDer [oneNameExtension]) = .ok c ∧ c.san = [.dns "a"])
      ∧ Follows (ofDer (smallDer [oneNameExtension])) (AltName.Lists oneNameExtension.value)
        (fun c entries => AltName.Shown entries c.san) := by
  obtain ⟨c, hc, hcheck⟩ := exists_ofDer_of_check (smallDer [oneNameExtension])
    (fun c => c.san == [.dns "a"] && c.extensions == [oneNameExtension]) (by decide +kernel)
  simp only [Bool.and_eq_true, beq_iff_eq] at hcheck
  obtain ⟨hsan, hextensions⟩ := hcheck
  obtain ⟨hread, hisCa, -⟩ := c.read_der
  rw [ofDer_eq_ok_iff.1 hc] at hread
  have hone : Extension.ofType Extension.subjectAltName c.extensions = [oneNameExtension] := by
    rw [hextensions]
    decide +kernel
  refine ⟨⟨c, hc, hsan⟩, ?_⟩
  rw [(((ofDer_followsNames _).2 _ hread _ hisCa).2.2 _ hone).2]
  intro sequence entries rest hbegins hnames
  have hsequence : readElement? oneNameExtension.value
      = some (⟨sequenceIdentifier, [0x82, 0x01, 0x61]⟩, []) := rfl
  have hentries : readAll? readElement? [0x82, 0x01, 0x61]
      = some [⟨⟨.contextSpecific, false, 2⟩, [0x61]⟩] := by decide +kernel
  have hvalue : BeginsWith oneNameExtension.value _ _ _ :=
    ⟨hsequence, rfl, readAll?_readElement?_eq_some_iff.1 hentries⟩
  obtain ⟨-, rfl, -⟩ := hvalue.unique hbegins
  exact ⟨⟨_, hvalue⟩, hnames, List.forall_mem_singleton.2 rfl⟩

/-- The name `a`, and the name `b` behind the list of names. -/
def twoNamesExtension : Extension :=
  ⟨Extension.subjectAltName, false, [0x30, 0x03, 0x82, 0x01, 0x61, 0x82, 0x01, 0x62]⟩

/-- **A name that is lost.** The value of the extension is no list of names, since
there is a name behind the list, and is accepted for the names in the list. -/
theorem not_followsNames_small :
    (∃ c, ofDer (smallDer [twoNamesExtension]) = .ok c ∧ c.san = [.dns "a"]
      ∧ c.extensions = [twoNamesExtension])
    ∧ ∀ entries, ¬ AltName.Lists twoNamesExtension.value entries := by
  obtain ⟨c, hc, hcheck⟩ := exists_ofDer_of_check (smallDer [twoNamesExtension])
    (fun c => c.san == [.dns "a"] && c.extensions == [twoNamesExtension]) (by decide +kernel)
  simp only [Bool.and_eq_true, beq_iff_eq] at hcheck
  refine ⟨⟨c, hc, hcheck.1, hcheck.2⟩, fun entries hlists => ?_⟩
  obtain ⟨content, hbegins⟩ := hlists.sequence
  have hread : readElement? twoNamesExtension.value
      = some (⟨sequenceIdentifier, [0x82, 0x01, 0x61]⟩, [0x82, 0x01, 0x62]) := rfl
  cases hread.symm.trans hbegins.read

end Certificate

end CertAuthority
