import CertAuthority.Proofs.Json.Written
import CertAuthority.Proofs.SecurityConfig.Settings

/-!
# What a configuration file says

A file holds a JSON object, and its entries override the default
configuration: a setting that is named has what is said there, and any other
one what it has by default (`Overrides`). If no setting is named twice, the
text of an object is read just if all that is said of settings is of their
types, and as the one configuration that it overrides the default to. Anything
else in the object is of no consequence.

The reader goes through the entries one after another and sets a field at a
time, whereas `Overrides` looks each setting up among the entries and knows no
order. That the two come to the same is an induction on the entries
(`assignAll_eq_some_iff`): an entry of a setting changes the configuration to
be overridden, and what comes after it overrides that one. It is here that no
setting may be named twice, because looking up finds the first entry of a name
and setting fields in order would keep the last.

What counts as a number is a matter of how it is written. A natural number has
to be written without a sign, a fraction or an exponent, and so a zero with a
minus sign is refused, equal as it is to zero (`ofJson_negativeZero`).
-/

namespace CertAuthority.SecurityConfig

open Json

variable {entries : List (String × Value)} {c c₀ : SecurityConfig} {seen : List String}

/-- The names of settings among the keys of an object, in order. -/
def knownNames (entries : List (String × Value)) : List String :=
  (entries.map Prod.fst).filter fun name => decide (name ∈ Setting.all.map Setting.name)

/-- **A configuration that the entries of an object override another to**: each
setting that they name has what is said of it, and any other one what it has in
`c₀`. -/
def Overrides (c₀ : SecurityConfig) (entries : List (String × Value)) (c : SecurityConfig) : Prop :=
  ∀ s : Setting, match entries.lookup s.name with
    | some v => s.content? v = some (s.get c)
    | none => s.get c = s.get c₀

/-- **Entries of the right types**: what is said of a setting is a content of
it. -/
def WellTyped (entries : List (String × Value)) : Prop :=
  ∀ (s : Setting) (v : Value), entries.lookup s.name = some v → (s.content? v).isSome

/-- There is at most one such configuration. -/
theorem Overrides.unique {c' : SecurityConfig} (h : Overrides c₀ entries c)
    (h' : Overrides c₀ entries c') : c = c' := by
  refine ext_get fun s => ?_
  have hs := h s
  have hs' := h' s
  cases hlookup : entries.lookup s.name with
  | none =>
    rw [hlookup] at hs hs'
    exact hs.trans hs'.symm
  | some v =>
    rw [hlookup] at hs hs'
    exact Option.some.inj (hs.symm.trans hs')

/-- There is one just if all is of the right types. -/
theorem exists_overrides_iff : (∃ c, Overrides c₀ entries c) ↔ WellTyped entries := by
  constructor
  · rintro ⟨c, h⟩ s v hv
    have hs := h s
    rw [hv] at hs
    rw [hs]
    rfl
  · intro h
    refine ⟨ofContents fun s => ((entries.lookup s.name).bind s.content?).getD (s.get c₀),
      fun s => ?_⟩
    rw [get_ofContents]
    cases hlookup : entries.lookup s.name with
    | none => rfl
    | some v =>
      obtain ⟨x, hx⟩ := Option.isSome_iff_exists.1 (h s v hlookup)
      simp only [Option.bind_some, hx, Option.getD_some]

/-! ## The entries one by one

What entries override is said without an order: of each setting what the entry
of its name has. The reader takes them one after another and refuses a name
that it has had. As long as no setting is named twice, the two come to the
same. -/

/-- The names of settings, as the reader has them. -/
abbrev names : List String := fields.map (·.name)

/-- They are the names of the settings, and no others. -/
theorem mem_names {name : String} : name ∈ names ↔ ∃ s : Setting, s.name = name := by
  rw [names, map_name_fields, List.mem_map]
  exact ⟨fun ⟨s, _, hs⟩ => ⟨s, hs⟩, fun ⟨s, hs⟩ => ⟨s, s.mem_all, hs⟩⟩

theorem knownNames_cons_known (s : Setting) (v : Value) (entries : List (String × Value)) :
    knownNames ((s.name, v) :: entries) = s.name :: knownNames entries := by
  rw [knownNames, List.map_cons, List.filter_cons_of_pos]
  · rfl
  · exact decide_eq_true (List.mem_map_of_mem s.mem_all)

theorem knownNames_cons_unknown {name : String} (h : name ∉ names) (v : Value)
    (entries : List (String × Value)) : knownNames ((name, v) :: entries) = knownNames entries := by
  rw [knownNames, List.map_cons, List.filter_cons_of_neg]
  · rfl
  · rw [decide_eq_true_eq]
    exact h

/-- An entry of a setting sets it, if it has not been set before and the value
is of its type. -/
theorem assignAll_cons_known (s : Setting) (v : Value) :
    assignAll names setNamed? seen ((s.name, v) :: entries) c₀ =
      if s.name ∈ seen then none
      else (s.content? v).bind fun x =>
        assignAll names setNamed? (s.name :: seen) entries (s.set x c₀) := by
  rw [assignAll, assignEntry, if_pos (mem_names.2 ⟨s, rfl⟩), setNamed?_name, Option.bind_map]
  rfl

theorem assignAll_cons_unknown {name : String} (h : name ∉ names) (v : Value) :
    assignAll names setNamed? seen ((name, v) :: entries) c₀
      = assignAll names setNamed? seen entries c₀ := by
  rw [assignAll, assignEntry, if_neg h]

/-- An entry is either of a setting or of a name that is not known. -/
theorem name_cases (name : String) : (∃ s : Setting, name = s.name) ∨ name ∉ names := by
  by_cases h : name ∈ names
  · obtain ⟨s, rfl⟩ := mem_names.1 h
    exact Or.inl ⟨s, rfl⟩
  · exact Or.inr h

/-- What is said of a setting a second time is refused. -/
theorem distinct_of_assignAll (h : assignAll names setNamed? seen entries c₀ = some c) :
    (knownNames entries).Nodup ∧ ∀ name ∈ knownNames entries, name ∉ seen := by
  induction entries generalizing seen c₀ with
  | nil => exact ⟨List.nodup_nil, fun name hname => absurd hname List.not_mem_nil⟩
  | cons entry entries ih =>
    obtain ⟨name, v⟩ := entry
    rcases name_cases name with ⟨s, rfl⟩ | hunknown
    · rw [assignAll_cons_known] at h
      rw [knownNames_cons_known]
      split at h
      · cases h
      · rename_i hseen
        obtain ⟨x, -, h⟩ := Option.bind_eq_some_iff.1 h
        obtain ⟨hnodup, hrest⟩ := ih h
        refine ⟨List.nodup_cons.2 ⟨fun hmem => hrest _ hmem List.mem_cons_self, hnodup⟩, ?_⟩
        intro name hname
        rcases List.mem_cons.1 hname with rfl | hname
        · exact hseen
        · exact fun hmem => hrest name hname (List.mem_cons_of_mem _ hmem)
    · rw [assignAll_cons_unknown hunknown] at h
      rw [knownNames_cons_unknown hunknown]
      exact ih h

/-- A setting that is not named has no entry. -/
theorem lookup_eq_none {s : Setting} (h : s.name ∉ knownNames entries) :
    entries.lookup s.name = none := by
  rw [List.lookup_eq_none_iff]
  intro entry hentry
  rw [bne_iff_ne]
  intro heq
  refine h (List.mem_filter.2 ⟨?_, decide_eq_true (List.mem_map_of_mem s.mem_all)⟩)
  rw [heq]
  exact List.mem_map_of_mem hentry

/-- Whether the entries override depends on the settings one by one. -/
theorem overrides_cons_known {s : Setting} {v : Value} {x : s.Content}
    (hx : s.content? v = some x) (h : s.name ∉ knownNames entries) :
    Overrides c₀ ((s.name, v) :: entries) c ↔ Overrides (s.set x c₀) entries c := by
  refine forall_congr' fun s' => ?_
  by_cases hs : s' = s
  · subst hs
    rw [List.lookup_cons_self, lookup_eq_none h, Setting.get_set]
    dsimp only
    rw [hx, Option.some.injEq, eq_comm]
  · have hne : (s'.name == s.name) = false :=
      beq_false_of_ne fun heq => hs (Setting.name_injective heq)
    rw [List.lookup_cons, hne, Setting.get_set_of_ne hs]

/-- **If no setting is named twice**, the entries come to what they override the
default to. -/
theorem assignAll_eq_some_iff (hnodup : (knownNames entries).Nodup)
    (hseen : ∀ name ∈ knownNames entries, name ∉ seen) :
    assignAll names setNamed? seen entries c₀ = some c ↔ Overrides c₀ entries c := by
  induction entries generalizing seen c₀ with
  | nil =>
    rw [assignAll, Option.some.injEq, eq_comm]
    refine ⟨?_, fun h => ext_get h⟩
    rintro rfl s
    rfl
  | cons entry entries ih =>
    obtain ⟨name, v⟩ := entry
    -- An entry of a setting is the only one of its name. Any other is passed over on both
    -- sides.
    rcases name_cases name with ⟨s, rfl⟩ | hunknown
    · rw [knownNames_cons_known] at hnodup hseen
      obtain ⟨hfirst, hnodup⟩ := List.nodup_cons.1 hnodup
      rw [assignAll_cons_known, if_neg (hseen _ List.mem_cons_self)]
      have hrest : ∀ name ∈ knownNames entries, name ∉ s.name :: seen := by
        intro name hname hmem
        rcases List.mem_cons.1 hmem with rfl | hmem
        · exact hfirst hname
        · exact hseen name (List.mem_cons_of_mem _ hname) hmem
      cases hx : s.content? v with
      | none =>
        refine iff_of_false (fun h => by cases h) fun h => ?_
        have hs := h s
        rw [List.lookup_cons_self] at hs
        dsimp only at hs
        rw [hx] at hs
        cases hs
      | some x =>
        rw [Option.bind_some, ih hnodup hrest, overrides_cons_known hx hfirst]
    · rw [knownNames_cons_unknown hunknown] at hnodup hseen
      rw [assignAll_cons_unknown hunknown, ih hnodup hseen]
      refine forall_congr' fun s => ?_
      have hne : (s.name == name) = false :=
        beq_false_of_ne fun heq => hunknown (mem_names.2 ⟨s, heq⟩)
      rw [List.lookup_cons, hne]

/-! ## Texts

The object in a text has its entries with blanks and escapes, which make no
difference to what they come to. Names that are no settings make none either,
as long as a value follows each of them. A text that is no document at all is
refused like a wrong one. -/

/-- Apart from how errors are told, a configuration is read as a record. -/
theorem toOption_ofJson (text : String) :
    (ofJson text).toOption
      = (decode (Reader.record "struct SecurityConfig" fields default) text).toOption := by
  unfold ofJson
  cases decode (Reader.record "struct SecurityConfig" fields default) text <;> rfl

/-- Whether it is read does not depend on these errors. -/
theorem ofJson_eq_ok_iff {text : String} : ofJson text = .ok c ↔ (ofJson text).toOption = some c := by
  cases ofJson text with
  | ok c' => simp [Except.toOption]
  | error e => simp [Except.toOption]

/-- What is not read is refused as a configuration. -/
theorem exists_error {text : String} (h : (ofJson text).toOption = none) :
    ∃ cause, ofJson text = .error (.configuration cause) := by
  unfold ofJson at h ⊢
  cases hdecode : decode (Reader.record "struct SecurityConfig" fields default) text with
  | ok c =>
    rw [hdecode] at h
    cases h
  | error fault => exact ⟨.json fault, rfl⟩

/-- **The text of an object** is read as what its entries come to. -/
theorem toOption_ofJson_document {d : Document} (h : d.value.entries? = some entries) :
    (ofJson d.text).toOption = assignAll names setNamed? [] entries default := by
  have harray : ¬ d.value.IsArray := by
    intro harray
    revert h harray
    cases d.value <;> simp [Value.entries?, Value.IsArray]
  rw [toOption_ofJson, decode_record readsFields _ _ d harray, h, Option.bind_some]

/-- **The text of an object is read as what it overrides the default to**, if no
setting is named twice. -/
theorem ofJson_document_iff {d : Document} (h : d.value.entries? = some entries)
    (hnodup : (knownNames entries).Nodup) :
    ofJson d.text = .ok c ↔ Overrides default entries c := by
  rw [ofJson_eq_ok_iff, toOption_ofJson_document h,
    assignAll_eq_some_iff hnodup fun _ _ => List.not_mem_nil]

/-- **An object overrides the default configuration.** If no setting is named
twice, its text is read just if what is said of settings is of their types, and
as the one configuration in which these settings have what is said of them and
the others what they have by default. So neither the order of the entries nor
those of other names matter. A text is refused, as a configuration, if a setting
is named twice, if something of another type is said of one, and if it is not the
text of one value. -/
theorem ofJson_overrides :
    (∀ (d : Document) (entries : List (String × Value)), d.value.entries? = some entries →
      ((knownNames entries).Nodup →
        ((∃ c, ofJson d.text = .ok c) ↔ WellTyped entries) ∧
        (∀ c, ofJson d.text = .ok c ↔ Overrides default entries c) ∧
        ∀ (d' : Document) (entries' : List (String × Value)), d'.value.entries? = some entries' →
          (knownNames entries').Nodup →
          (∀ s : Setting, entries.lookup s.name = entries'.lookup s.name) →
          (ofJson d.text).toOption = (ofJson d'.text).toOption) ∧
      (¬ ((knownNames entries).Nodup ∧ WellTyped entries) →
        ∃ cause, ofJson d.text = .error (.configuration cause))) ∧
    ∀ text : String, (∀ d : Document, d.text ≠ text) →
      ∃ cause, ofJson text = .error (.configuration cause) := by
  have hnone : ∀ {text}, (∀ c, ofJson text ≠ .ok c) → (ofJson text).toOption = none := by
    intro text h
    cases htext : ofJson text with
    | ok c => exact absurd htext (h c)
    | error e => rfl
  refine ⟨fun d entries h => ⟨fun hnodup => ⟨?_, fun c => ofJson_document_iff h hnodup, ?_⟩,
    fun hwrong => exists_error (hnone fun c hc => hwrong ?_)⟩,
    fun text htext => exists_error (hnone fun c hc => ?_)⟩
  · simp only [ofJson_document_iff h hnodup]
    exact exists_overrides_iff
  · intro d' entries' h' hnodup' hlookup
    have hsame : ∀ c, Overrides default entries c ↔ Overrides default entries' c := fun c =>
      forall_congr' fun s => by rw [hlookup s]
    refine Option.ext fun c => ?_
    rw [← ofJson_eq_ok_iff, ← ofJson_eq_ok_iff, ofJson_document_iff h hnodup,
      ofJson_document_iff h' hnodup', hsame]
  -- A name that comes twice is refused, so what was read says nothing twice, and is of the
  -- right types.
  · rw [ofJson_eq_ok_iff, toOption_ofJson_document h] at hc
    obtain ⟨hnodup, -⟩ := distinct_of_assignAll hc
    exact ⟨hnodup, exists_overrides_iff.1
      ⟨c, (assignAll_eq_some_iff hnodup fun _ _ => List.not_mem_nil).1 hc⟩⟩
  · rw [ofJson_eq_ok_iff, toOption_ofJson] at hc
    cases hdecode : decode (Reader.record "struct SecurityConfig" fields default) text with
    | error e =>
      rw [hdecode] at hc
      cases hc
    | ok c' =>
      obtain ⟨d, hd⟩ := exists_document readsFields _ _ hdecode
      exact htext d hd

/-- An object with a setting whose key is written with an escape, a choice with a
null, and a value of another name that nothing is asked of. -/
theorem ofJson_overrides_nested :
    let key (l : Literal) : KeyText := ⟨.none, l, ⟨[' '], List.all_eq_true.1 rfl⟩⟩
    let escaped : Literal := .code (.ofFin 0) (.ofFin 0) (.ofFin 6) (.ofFin 13)
      :: Literal.ofString "ax_certificate_duration_days"
    let entries : List (String × Value) :=
      [("x", .array (.last .none (.word .null) .none)),
        ("key_algorithm",
          .object (.last (key (Literal.ofString "ed25519")) .none (.word .null) .none)),
        ("max_certificate_duration_days", .number (.ofNat 7))]
    let d : Document := ⟨⟨['\n'], List.all_eq_true.1 rfl⟩, .object
      (.more (key (Literal.ofString "x")) .none (.array (.last .none (.word .null) .none)) .none
        (.more (key (Literal.ofString "key_algorithm")) .none
          (.object (.last (key (Literal.ofString "ed25519")) .none (.word .null) .none)) .none
          (.last (key escaped) .none (.number (.ofNat 7)) .none))), .none⟩
    d.value.entries? = some entries ∧ (knownNames entries).Nodup ∧
      ofJson d.text = .ok { default with keyAlgorithm := .ed25519, maxDays := 7 } := by
  intro key escaped entries d
  have hentries : d.value.entries? = some entries := rfl
  have hnodup : (knownNames entries).Nodup := by decide
  refine ⟨hentries, hnodup, ((ofJson_overrides.1 d entries hentries).1 hnodup).2.1 _ |>.2 ?_⟩
  intro s
  cases s with
  | maxDays =>
    have hlookup : entries.lookup Setting.maxDays.name = some (.number (.ofNat 7)) := rfl
    have hnatural : Value.natural? (.number (.ofNat 7)) = some 7 := Numeral.natural?_ofNat 7
    rw [hlookup]
    show Value.nat32? _ = some 7
    rw [Value.nat32?, hnatural]
    rfl
  | _ => rfl

/-- A zero with a minus sign. The grammar has it, and it denotes zero. -/
def negativeZero : Numeral where
  minus := true
  whole := ⟨[0], List.cons_ne_nil _ _⟩
  shortest := fun _ => rfl
  fraction := none
  exponent := none

/-- **A zero with a minus sign is refused**, though it is a whole number of at
most thirty-two bits and written as one. -/
theorem ofJson_negativeZero :
    let entries : List (String × Value) := [(Setting.maxDays.name, .number negativeZero)]
    let d : Document := ⟨.none, .object (.last ⟨.none, .ofString Setting.maxDays.name, .none⟩ .none
      (.number negativeZero) .none), .none⟩
    d.text = "\x7b\"max_certificate_duration_days\":-0\x7d" ∧ d.value.entries? = some entries ∧
      (knownNames entries).Nodup ∧ negativeZero.integer? = some 0 ∧ ∀ c, ofJson d.text ≠ .ok c := by
  intro entries d
  have hentries : d.value.entries? = some entries := rfl
  refine ⟨by decide +kernel, hentries, by decide, rfl, fun c hc => ?_⟩
  rw [ofJson_eq_ok_iff, toOption_ofJson_document hentries] at hc
  cases hc

end CertAuthority.SecurityConfig
