import CertAuthority.Proofs.Json.Exact

/-!
# Reading records

If the fields of a record are read exactly (`ReadsFields`), then what an
object comes to is said by going through its entries in order (`assignAll`):
an entry of a known name sets a field, once; the others are skipped. That is
the whole meaning of an object's text (`decode_record`), and nothing but the
text of one value is read at all (`exists_document`).

The reader of a record mixes three things: it looks for the commas and braces
of an object, it decides by the name of an entry what is to be done with the
value, and it keeps account of the names that have occurred. `assignAll` has
the latter two without the first. It is not a map from names to values, for
three things depend on the order and the number of entries: a known name that
occurs twice is an error, an unknown one may occur as often as it likes, and a
value that a field does not take is an error even where a later entry would
have been one of the kind.

The induction is on the fields of the syntax tree, with a step for one entry
that leaves what comes after it open (`reads_objectField`,
`refuses_objectField`). Fuel is counted in entries, of which there are no more
than characters (`length_entries_lt`).

A record may also be written as an array. Of that there is only the second
half here: an array that is read is the text of one.
-/

namespace CertAuthority.Json

open Text

variable {σ : Type}

/-- What an entry comes to, and then the `next` ones. `names` are the names that
are known, `seen` those that have occurred. The step is apart from the recursion
so that one entry can be followed without the others. -/
def assignEntry (names : List String) (set? : String → Value → σ → Option σ)
    (seen : List String) (name : String) (v : Value) (a : σ)
    (next : List String → σ → Option σ) : Option σ :=
  if name ∈ names then
    if name ∈ seen then none else (set? name v a).bind (next (name :: seen))
  else next seen a

/-- **The record that the entries of an object come to**, if they come to one.
The state `a` is what has been set so far, with defaults for the rest. -/
def assignAll (names : List String) (set? : String → Value → σ → Option σ) :
    (seen : List String) → List (String × Value) → σ → Option σ
  | _, [], a => some a
  | seen, (name, v) :: entries, a =>
    assignEntry names set? seen name v a fun seen a => assignAll names set? seen entries a

/-- If nothing can follow, then nothing comes of an entry either. -/
theorem assignEntry_none (names : List String) (set? : String → Value → σ → Option σ)
    (seen : List String) (name : String) (v : Value) (a : σ) :
    assignEntry names set? seen name v a (fun _ _ => none) = none := by
  rw [assignEntry]
  split_ifs
  · rfl
  · exact Option.bind_fun_none _
  · rfl

namespace Reader

variable {fields : List (Reader.Field σ)} {set? : String → Value → σ → Option σ} {seen : List String}
  {a x : σ} {s t t' : List Char} {fuel : Nat} {name : String}

/-- **Fields that are read exactly**: what each value sets a field to depends on
the field's name alone. -/
def ReadsFields (fields : List (Reader.Field σ)) (set? : String → Value → σ → Option σ) : Prop :=
  ∀ f ∈ fields, ∀ a, Exact (f.read a) fun v => set? f.name v a

/-! ## Keys

A key is looked up among the fields by its name. If it is one of them, the
value is read for the field, and if not, it is skipped, which is the reason
that skipping has to be as strict about values as reading. -/

/-- The text in front of a key or an element: blanks, and a comma if it is not
the first. -/
def itemLead (first : Bool) (b b' : Blanks) : List Char :=
  if first then b'.chars else b.chars ++ ',' :: b'.chars

/-- In front of a key the reader goes over blanks and the comma, and says that
there is a key. -/
theorem reads_nextKey (first : Bool) (b b' : Blanks) (s : List Char) :
    Reads (nextKey first) (itemLead first b b' ++ '"' :: s) true ('"' :: s) := by
  cases first with
  | true =>
    refine (reads_blanks b' (by decide) (by decide) s).bind ?_
    dsimp only
    rw [if_neg (by decide), if_pos rfl, if_pos rfl]
    exact reads_pure true _
  | false =>
    rw [itemLead, if_neg Bool.false_ne_true, List.append_assoc]
    refine (reads_blanks b (by decide) (by decide) _).bind ?_
    dsimp only
    rw [if_neg (by decide), if_neg Bool.false_ne_true, if_pos rfl]
    refine (reads_skip (by decide) _).bind ((reads_blanks b' (by decide) (by decide) s).bind ?_)
    dsimp only
    rw [if_pos rfl]
    exact reads_pure true _

/-- At the closing brace it says that there is none. -/
theorem reads_nextKey_end (first : Bool) (b : Blanks) (s : List Char) :
    Reads (nextKey first) (b.chars ++ '\x7d' :: s) false ('\x7d' :: s) := by
  refine (reads_blanks b (by decide) (by decide) s).bind ?_
  dsimp only
  rw [if_pos rfl]
  exact reads_pure false _

/-- What is done with a key. -/
def objectField (fields : List (Reader.Field σ)) (fuel : Nat) (seen : List String) (a : σ)
    (key : String) : Reader σ :=
  match fields.find? fun f => f.name == key with
  | none => do
    colon
    skipValue ((← left) + 1)
    objectFields fields fuel false seen a
  | some f => do
    if seen.contains key then throw ⟨.duplicateField key, none⟩
    else
      colon
      let a ← f.read a
      objectFields fields fuel false (key :: seen) a

/-- The loop over the fields of an object looks for a key, and deals with it. -/
theorem objectFields_succ (first : Bool) :
    objectFields fields (fuel + 1) first seen a = (do
      if ← nextKey first then
        let key ← string
        objectField fields fuel seen a key
      else return a) := rfl

theorem find?_unknown (h : name ∉ fields.map (·.name)) :
    fields.find? (fun f => f.name == name) = none := by
  refine List.find?_eq_none.2 fun f hf heq => h ?_
  rw [← eq_of_beq heq]
  exact List.mem_map_of_mem hf

/-- Some field has a name that is known, and it is found by it. -/
theorem exists_find? (h : name ∈ fields.map (·.name)) :
    ∃ f ∈ fields, f.name = name ∧ fields.find? (fun f => f.name == name) = some f := by
  cases hfind : fields.find? fun f => f.name == name with
  | none =>
    obtain ⟨f, hf, rfl⟩ := List.mem_map.1 h
    exact absurd BEq.rfl (List.find?_eq_none.1 hfind f hf)
  | some f =>
    have hname : (f.name == name) = true :=
      List.find?_some (p := fun f : Field σ => f.name == name) hfind
    exact ⟨f, List.mem_of_find?_eq_some hfind, eq_of_beq hname, rfl⟩

/-- The entry of a name that is not known is skipped. -/
theorem objectField_unknown (h : name ∉ fields.map (·.name)) :
    objectField fields fuel seen a name = (do
      colon
      skipValue ((← left) + 1)
      objectFields fields fuel false seen a) := by
  rw [objectField, find?_unknown h]

/-- The entry of a name that is known is read by the field, if it is the first. -/
theorem exists_objectField (h : name ∈ fields.map (·.name)) :
    ∃ f ∈ fields, f.name = name ∧ ∀ fuel seen a, objectField fields fuel seen a name = (do
      if seen.contains name then throw ⟨.duplicateField name, none⟩
      else
        colon
        let a ← f.read a
        objectFields fields fuel false (name :: seen) a) := by
  obtain ⟨f, hf, hname, hfind⟩ := exists_find? h
  exact ⟨f, hf, hname, fun fuel seen a => by rw [objectField, hfind]⟩

/-! ## Entries

The loop takes one entry after another, with what has been set so far. What
all of them come to is said by `assignAll` without a text, and by induction on
the fields the loop comes to the same. It fails with them as well, which is
why refusals are followed along. -/

section Entry

variable {first : Bool} {b : Blanks} {key : KeyText} {before : Blanks} {v : Value}

/-- The text of an entry, with what stands in front of it and follows it. -/
def entryText (first : Bool) (b : Blanks) (key : KeyText) (before : Blanks) (v : Value)
    (t : List Char) : List Char :=
  itemLead first b key.before ++ (key.core ++ (before.chars ++ (v.text ++ t)))

/-- An entry's text as the readers go over it: a key with its mark in front and
behind, a colon, blanks, and the value. -/
theorem entryText_eq (first : Bool) (b : Blanks) (key : KeyText) (before : Blanks) (v : Value)
    (t : List Char) : entryText first b key before v t
      = itemLead first b key.before ++ '"' :: (key.literal.inner ++ '"' :: (key.after.chars
        ++ ':' :: (before.chars ++ (v.text ++ t)))) := by
  simp only [entryText, KeyText.core, Literal.text, List.cons_append, List.append_assoc,
    List.nil_append]

/-- **An entry is read** by reading what follows its key. -/
theorem reads_entry (hname : key.literal.string? = some name)
    (h : Reads (objectField fields fuel seen a name)
      (key.after.chars ++ ':' :: (before.chars ++ (v.text ++ t))) x t') :
    Reads (objectFields fields (fuel + 1) first seen a) (entryText first b key before v t) x t' := by
  have hread := reads_string hname (key.after.chars ++ ':' :: (before.chars ++ (v.text ++ t)))
  rw [text_append] at hread
  rw [entryText_eq, objectFields_succ]
  refine (reads_nextKey first b key.before _).bind ?_
  rw [if_pos rfl]
  exact hread.bind h

/-- What is read of an entry is what is read of it behind its key. -/
theorem after_entry {Q : σ → List Char → Prop} (hname : key.literal.string? = some name)
    (h : After (objectField fields fuel seen a name)
      (key.after.chars ++ ':' :: (before.chars ++ (v.text ++ t))) Q) :
    After (objectFields fields (fuel + 1) first seen a) (entryText first b key before v t) Q := by
  have hread := reads_string hname (key.after.chars ++ ':' :: (before.chars ++ (v.text ++ t)))
  rw [text_append] at hread
  rw [entryText_eq, objectFields_succ]
  refine (reads_nextKey first b key.before _).after_bind ?_
  rw [if_pos rfl]
  exact hread.after_bind h

/-- A key that denotes no string is refused. -/
theorem refuses_entry (hname : key.literal.string? = none) :
    After (objectFields fields (fuel + 1) first seen a) (entryText first b key before v t)
      fun _ _ => False := by
  have hread := refuses_string hname (key.after.chars ++ ':' :: (before.chars ++ (v.text ++ t)))
  rw [text_append] at hread
  rw [entryText_eq, objectFields_succ]
  refine (reads_nextKey first b key.before _).after_bind ?_
  rw [if_pos rfl]
  exact hread.bind_left

/-- The last field of an object is an entry, with blanks behind. -/
theorem itemLead_last (first : Bool) (b : Blanks) (key : KeyText) (before : Blanks) (v : Value)
    (after : Blanks) (t : List Char) :
    itemLead first b (Fields.last key before v after).before
        ++ ((Fields.last key before v after).core ++ t)
      = entryText first b key before v (after.chars ++ t) := by
  simp only [Fields.before, Fields.core, entryText, List.append_assoc]

/-- Any other field is an entry with the remaining ones behind it. -/
theorem itemLead_more (first : Bool) (b : Blanks) (key : KeyText) (before : Blanks) (v : Value)
    (after : Blanks) (rest : Fields) (t : List Char) :
    itemLead first b (Fields.more key before v after rest).before
        ++ ((Fields.more key before v after rest).core ++ t)
      = entryText first b key before v
          (itemLead false after rest.before ++ (rest.core ++ t)) := by
  simp only [Fields.before, Fields.core, entryText, List.append_assoc, itemLead,
    Bool.false_eq_true, if_false, rest.text_eq, List.cons_append]

/-- A comma ends a value. A number would go on otherwise. -/
theorem endsValue_itemLead (b b' : Blanks) (t : List Char) :
    EndsValue (itemLead false b b' ++ t) := by
  rw [itemLead, if_neg Bool.false_ne_true, List.append_assoc]
  exact b.endsValue (endsValue_cons (Or.inl rfl) _)

variable (hfields : ReadsFields fields set?)

include hfields

/-- **An entry and those that follow it are read** as what they come to. -/
theorem reads_objectField {next : List String → σ → Option σ} (ht : EndsValue t)
    (h : assignEntry (fields.map (·.name)) set? seen name v a next = some x)
    (hrest : ∀ seen a, next seen a = some x →
      Reads (objectFields fields fuel false seen a) t x t') :
    Reads (objectField fields fuel seen a name)
      (b.chars ++ ':' :: (before.chars ++ (v.text ++ t))) x t' := by
  rw [assignEntry] at h
  split at h
  · rename_i hknown
    split at h
    · cases h
    · rename_i hseen
      obtain ⟨a', hset, hassign⟩ := Option.bind_eq_some_iff.1 h
      obtain ⟨f, hf, rfl, heq⟩ := exists_objectField hknown
      rw [heq, if_neg (by rw [List.contains_iff_mem]; exact hseen)]
      exact (reads_colon b _).bind (((hfields f hf a).reads hset before ht).bind
        (hrest _ a' hassign))
  · rename_i hunknown
    rw [objectField_unknown hunknown]
    exact (reads_colon b _).bind ((reads_left _).bind
      ((reads_skipValue v before ht (length_text_le before v t)).bind (hrest seen a h)))

/-- An entry is refused, or one of those that follow it, if they do not come to
anything: the name has occurred, the value is not one for the field, or it fails
further on. -/
theorem refuses_objectField {next : List String → σ → Option σ} (ht : EndsValue t)
    (h : assignEntry (fields.map (·.name)) set? seen name v a next = none)
    (hrest : ∀ seen a, next seen a = none →
      After (objectFields fields fuel false seen a) t fun _ _ => False) :
    After (objectField fields fuel seen a name)
      (b.chars ++ ':' :: (before.chars ++ (v.text ++ t))) fun _ _ => False := by
  rw [assignEntry] at h
  split at h
  · rename_i hknown
    obtain ⟨f, hf, rfl, heq⟩ := exists_objectField hknown
    rw [heq]
    split at h
    · rename_i hseen
      rw [if_pos (List.contains_iff_mem.2 hseen)]
      exact after_throw _
    · rename_i hseen
      rw [if_neg (by rw [List.contains_iff_mem]; exact hseen)]
      refine (reads_colon b _).after_bind ?_
      cases hset : set? f.name v a with
      | none =>
        exact ((hfields f hf a).refuses hset before ht).bind_left
      | some a' =>
        rw [hset, Option.bind_some] at h
        exact ((hfields f hf a).reads hset before ht).after_bind (hrest _ a' h)
  · rename_i hunknown
    rw [objectField_unknown hunknown]
    exact (reads_colon b _).after_bind ((reads_left _).after_bind
      ((reads_skipValue v before ht (length_text_le before v t)).after_bind (hrest seen a h)))

omit hfields in
/-- Without a further entry the record is what has been set. -/
theorem reads_objectFields_end (first : Bool) (b : Blanks) (a : σ) (s : List Char) :
    Reads (objectFields fields (fuel + 1) first seen a) (b.chars ++ '\x7d' :: s) a
      ('\x7d' :: s) := by
  rw [objectFields_succ]
  refine (reads_nextKey_end first b s).bind ?_
  rw [if_neg Bool.false_ne_true]
  exact reads_pure a _

/-- **The fields of an object are read** as what its entries come to. -/
theorem reads_objectFields : ∀ (fs : Fields) {entries : List (String × Value)}
    {first : Bool} {b : Blanks} {seen : List String} {a : σ} {fuel : Nat},
    fs.entries? = some entries → entries.length < fuel →
    assignAll (fields.map (·.name)) set? seen entries a = some x → ∀ s,
    Reads (objectFields fields fuel first seen a)
      (itemLead first b fs.before ++ (fs.core ++ '\x7d' :: s)) x ('\x7d' :: s)
  | .last key before v after, entries, first, b, seen, a, fuel, hentries, hfuel, h, s => by
    obtain ⟨name, hname, rfl⟩ := Option.map_eq_some_iff.1 hentries
    obtain ⟨fuel, rfl⟩ : ∃ n, fuel = n + 2 :=
      ⟨fuel - 2, by simp only [List.length_singleton] at hfuel; omega⟩
    have hends : EndsValue (after.chars ++ '\x7d' :: s) :=
      after.endsValue (endsValue_cons (Or.inr (Or.inr (Or.inl rfl))) s)
    rw [itemLead_last]
    refine reads_entry hname (reads_objectField hfields hends h fun seen a ha => ?_)
    obtain rfl := Option.some.inj ha
    exact reads_objectFields_end false after a s
  | .more key before v after rest, entries, first, b, seen, a, fuel, hentries, hfuel, h, s => by
    obtain ⟨name, hname, hmap⟩ := Option.bind_eq_some_iff.1 hentries
    obtain ⟨others, hothers, rfl⟩ := Option.map_eq_some_iff.1 hmap
    obtain ⟨fuel, rfl⟩ : ∃ n, fuel = n + 1 := ⟨fuel - 1, by omega⟩
    rw [itemLead_more]
    exact reads_entry hname (reads_objectField hfields (endsValue_itemLead after rest.before _) h
      fun seen a ha => reads_objectFields rest hothers (Nat.succ_lt_succ_iff.1 hfuel) ha s)

/-- **The fields of an object are refused**, if its entries do not come to
anything, or one of its keys denotes no string. -/
theorem refuses_objectFields : ∀ (fs : Fields) {first : Bool} {b : Blanks} {seen : List String}
    {a : σ} (fuel : Nat),
    (fs.entries?.bind fun es => assignAll (fields.map (·.name)) set? seen es a) = none → ∀ s,
    After (objectFields fields fuel first seen a)
      (itemLead first b fs.before ++ (fs.core ++ '\x7d' :: s)) fun _ _ => False
  | _, _, _, _, _, 0, _, _ => after_refuseNext _
  | .last key before v after, first, b, seen, a, fuel + 1, h, s => by
    rw [itemLead_last]
    cases hname : key.literal.string? with
    | none => exact refuses_entry hname
    | some name =>
      have hentry : assignEntry (fields.map (·.name)) set? seen name v a (fun _ a => some a)
          = none := by
        rw [Fields.entries?, hname] at h
        exact h
      have hends : EndsValue (after.chars ++ '\x7d' :: s) :=
        after.endsValue (endsValue_cons (Or.inr (Or.inr (Or.inl rfl))) s)
      exact after_entry hname (refuses_objectField hfields hends hentry fun _ _ ha => by cases ha)
  | .more key before v after rest, first, b, seen, a, fuel + 1, h, s => by
    rw [itemLead_more]
    cases hname : key.literal.string? with
    | none => exact refuses_entry hname
    | some name =>
      have hentry : assignEntry (fields.map (·.name)) set? seen name v a (fun seen a =>
          rest.entries?.bind fun es => assignAll (fields.map (·.name)) set? seen es a) = none := by
        rw [Fields.entries?, hname, Option.bind_some] at h
        cases hrest : rest.entries? with
        | none => exact assignEntry_none _ _ _ _ _ _
        | some others =>
          rw [hrest] at h
          exact h
      exact after_entry hname (refuses_objectField hfields
        (endsValue_itemLead after rest.before _) hentry
        fun seen a ha => refuses_objectFields rest fuel ha s)

end Entry

/-! ## Only fields are read -/

/-- **What is taken in front of a key**, or of the closing brace. -/
theorem after_nextKey (first : Bool) (s : List Char) :
    After (nextKey first) s fun more s' =>
      (more = true → ∃ b b' t, s = itemLead first b b' ++ s' ∧ s' = '"' :: t) ∧
      (more = false → ∃ (b : Blanks) (t : List Char), s = b.chars ++ s' ∧ s' = '\x7d' :: t) := by
  refine after_blanks (avoids_refuseNext _) fun b x s₁ hs hhead => ?_
  refine after_ite (fun hclose => ?_) fun _ => ?_
  · subst hclose
    obtain ⟨t, rfl⟩ := cons_of_head? (c := '\x7d') (by decide) hhead
    exact after_pure ⟨fun h => absurd h (by decide), fun _ => ⟨b, t, hs, rfl⟩⟩
  cases first with
  | true =>
    refine after_ite (fun _ => after_ite (fun hquote => ?_) fun _ => after_refuseNext _)
      fun hne => absurd rfl hne
    subst hquote
    obtain ⟨t, rfl⟩ := cons_of_head? (c := '"') (by decide) hhead
    exact after_pure ⟨fun _ => ⟨Blanks.none, b, t, hs, rfl⟩, fun h => absurd h (by decide)⟩
  | false =>
    refine after_ite (fun h => absurd h (by decide)) fun _ => after_ite (fun hcomma => ?_)
      fun _ => after_refuseNext _
    subst hcomma
    obtain ⟨s₂, rfl⟩ := cons_of_head? (c := ',') (by decide) hhead
    refine (reads_skip (by decide) s₂).after_bind (after_blanks (avoids_refuseNext _)
      fun b' y s₃ hs₃ hhead => ?_)
    refine after_ite (fun hquote => ?_) fun _ => after_ite (fun _ => after_refuseNext _)
      fun _ => after_refuseNext _
    subst hquote
    obtain ⟨t, rfl⟩ := cons_of_head? (c := '"') (by decide) hhead
    refine after_pure ⟨fun _ => ⟨b, b', t, ?_, rfl⟩, fun h => absurd h (by decide)⟩
    rw [hs, hs₃, itemLead, if_neg Bool.false_ne_true, List.append_assoc]
    rfl

/-- What is ahead of the end of an object: nothing, or fields. -/
def FieldsAhead (first : Bool) (s s' : List Char) : Prop :=
  (∃ t, s' = '\x7d' :: t) ∧ ((∃ b : Blanks, s = b.chars ++ s') ∨
    ∃ (b : Blanks) (fs : Fields), s = itemLead first b fs.before ++ (fs.core ++ s'))

/-- An entry, and what is ahead after it. -/
theorem FieldsAhead.entry {first : Bool} {b : Blanks} {key : KeyText} {before : Blanks} {v : Value}
    (h : FieldsAhead false t t') : FieldsAhead first (entryText first b key before v t) t' := by
  obtain ⟨hend, ⟨after, rfl⟩ | ⟨after, rest, rfl⟩⟩ := h
  · exact ⟨hend, Or.inr ⟨b, .last key before v after, (itemLead_last _ _ _ _ _ _ _).symm⟩⟩
  · exact ⟨hend, Or.inr ⟨b, .more key before v after rest, (itemLead_more _ _ _ _ _ _ _ _).symm⟩⟩

/-- **Only the fields of an object are read.** -/
theorem after_objectFields (hfields : ReadsFields fields set?) (fuel : Nat) (first : Bool)
    (seen : List String) (a : σ) (s : List Char) :
    After (objectFields fields fuel first seen a) s fun _ s' => FieldsAhead first s s' := by
  induction fuel generalizing first seen a s with
  | zero => exact after_refuseNext _
  | succ fuel ih =>
    rw [objectFields_succ]
    refine (after_nextKey first s).bind fun more s₁ ⟨hmore, hend⟩ => ?_
    refine after_ite (fun htrue => ?_) fun hfalse => ?_
    · obtain ⟨b, b', t, hs, rfl⟩ := hmore htrue
      refine (after_string t).bind fun name s₂ ⟨l, hl, _⟩ => ?_
      -- Known or not, the entry stands in front of what is ahead after it.
      have hentry : ∀ {s₃ s'} {b₁ b₂ : Blanks} {v : Value}, FieldsAhead false s₃ s' →
          s₂ = b₁.chars ++ ':' :: (b₂.chars ++ (v.text ++ s₃)) → FieldsAhead first s s' := by
        intro s₃ s' b₁ b₂ v hahead hs₂
        rw [hs, hl, hs₂, text_append]
        have hfields : FieldsAhead first (entryText first b ⟨b', l, b₁⟩ b₂ v s₃) s' :=
          hahead.entry
        rw [entryText_eq] at hfields
        exact hfields
      by_cases hknown : name ∈ fields.map (·.name)
      · obtain ⟨f, hf, -, heq⟩ := exists_objectField hknown
        rw [heq]
        refine after_ite (fun _ => after_throw _) fun _ => ?_
        refine (after_colon s₂).bind fun _ s₃ ⟨b₁, hs₂⟩ => ?_
        refine ((hfields f hf a).sound s₃).bind fun a' s₄ ⟨b₂, v, hs₃⟩ => ?_
        exact (ih false (name :: seen) a' s₄).mono fun _ s' hahead =>
          hentry hahead (by rw [hs₂, hs₃])
      · rw [objectField_unknown hknown]
        refine (after_colon s₂).bind fun _ s₃ ⟨b₁, hs₂⟩ => ?_
        refine (reads_left s₃).after_bind ((after_skipValue _ s₃).bind fun _ s₄ ⟨b₂, v, hs₃⟩ => ?_)
        exact (ih false seen a s₄).mono fun _ s' hahead => hentry hahead (by rw [hs₂, hs₃])
    · obtain ⟨b, t, hs, ht⟩ := hend (Bool.eq_false_iff.2 hfalse)
      exact after_pure ⟨⟨t, ht⟩, Or.inl ⟨b, hs⟩⟩

/-! ## Only elements are read -/

/-- What is taken in front of an element. In front of the end of an array there
may be blanks. -/
theorem after_nextElement (first : Bool) (s : List Char) :
    After (nextElement first) s fun more s' =>
      (more = true → ∃ b b', s = itemLead first b b' ++ s') ∧
      (more = false → ∃ b : Blanks, s = b.chars ++ s') := by
  refine after_blanks (avoids_refuseNext _) fun b x s₁ hs hhead => ?_
  refine after_ite (fun _ => after_pure ⟨fun h => absurd h (by decide), fun _ => ⟨b, hs⟩⟩)
    fun _ => ?_
  cases first with
  | true =>
    refine after_ite (fun _ => after_pure ⟨fun _ => ⟨Blanks.none, b, hs⟩, fun h =>
      absurd h (by decide)⟩) fun hne => absurd rfl hne
  | false =>
    refine after_ite (fun h => absurd h (by decide)) fun _ => after_ite (fun hcomma => ?_)
      fun _ => after_refuseNext _
    subst hcomma
    obtain ⟨s₂, rfl⟩ := cons_of_head? (c := ',') (by decide) hhead
    refine (reads_skip (by decide) s₂).after_bind (after_blanks (avoids_refuseNext _)
      fun b' y s₃ hs₃ _ => ?_)
    refine after_ite (fun _ => after_refuseNext _) fun _ => ?_
    refine after_pure ⟨fun _ => ⟨b, b', ?_⟩, fun h => absurd h (by decide)⟩
    rw [hs, hs₃, itemLead, if_neg Bool.false_ne_true, List.append_assoc]
    rfl

/-- What is ahead in an array: nothing, or elements. -/
def ElementsAhead (first : Bool) (s s' : List Char) : Prop :=
  (∃ b : Blanks, s = b.chars ++ s') ∨
    ∃ (b : Blanks) (es : Elements), s = itemLead first b es.before ++ (es.core ++ s')

/-- An element, and what is ahead after it. -/
theorem ElementsAhead.element {first : Bool} {b b' : Blanks} {v : Value}
    (h : ElementsAhead false t t') :
    ElementsAhead first (itemLead first b b' ++ (v.text ++ t)) t' := by
  obtain ⟨after, rfl⟩ | ⟨after, rest, rfl⟩ := h
  · refine Or.inr ⟨b, .last b' v after, ?_⟩
    simp only [Elements.before, Elements.core, List.append_assoc]
  · refine Or.inr ⟨b, .more b' v after rest, ?_⟩
    simp only [Elements.before, Elements.core, List.append_assoc, itemLead, Bool.false_eq_true,
      if_false, rest.text_eq, List.cons_append]

/-- Blanks in front of an item may be written in two pieces. -/
theorem itemLead_append (first : Bool) (b b' b'' : Blanks) :
    itemLead first b b' ++ b''.chars = itemLead first b (b'.append b'') := by
  cases first with
  | true => rfl
  | false => exact List.append_assoc _ _ _

/-- **Only the elements of an array are read.** -/
theorem after_arrayFields (hfields : ReadsFields fields set?) (first : Bool) (a : σ)
    (s : List Char) :
    After (arrayFields first fields a) s fun _ s' => ElementsAhead first s s' := by
  induction fields generalizing first a s with
  | nil => exact after_pure (Or.inl ⟨Blanks.none, rfl⟩)
  | cons f fields ih =>
    refine (after_nextElement first s).bind fun more s₁ ⟨hmore, hend⟩ => ?_
    refine after_ite (fun htrue => ?_) fun hfalse => ?_
    · obtain ⟨b, b', hs⟩ := hmore htrue
      refine ((hfields f List.mem_cons_self a).sound s₁).bind fun a' s₂ ⟨b'', v, hs₁⟩ => ?_
      refine (ih (fun g hg => hfields g (List.mem_cons_of_mem f hg)) false a' s₂).mono
        fun _ s' hahead => ?_
      rw [hs, hs₁, ← List.append_assoc, itemLead_append]
      exact hahead.element
    · obtain ⟨b, hs⟩ := hend (Bool.eq_false_iff.2 hfalse)
      exact after_pure (Or.inl ⟨b, hs⟩)

/-! ## Whole records

An object has to end where its fields do, and there have to be steps enough
for the loop. Both are seen to here, so that a record is read from a value as
any other type is, and may stand wherever a value may. -/

theorem reads_endObject (s : List Char) : Reads endObject ('\x7d' :: s) () s := by
  refine (reads_blanks Blanks.none (by decide) (by decide) s).bind ?_
  dsimp only
  rw [if_pos rfl]
  exact reads_skip (by decide) s

/-- Of the end of an array only a bracket is taken, with blanks in front. -/
theorem after_endArray (s : List Char) :
    After endArray s fun _ s' => ∃ b : Blanks, s = b.chars ++ ']' :: s' := by
  refine after_blanks (avoids_refuseNext _) fun b x s₁ hs hhead => ?_
  refine after_ite (fun hclose => ?_) fun _ => after_ite (fun _ => ?_) fun _ =>
    after_refuseNext _
  · subst hclose
    obtain ⟨s₂, rfl⟩ := cons_of_head? (c := ']') (by decide) hhead
    refine (reads_skip (by decide) s₂).after.mono fun _ s' h => ⟨b, ?_⟩
    rw [hs, h.2]
  · exact (Avoids.bind fun _ => Avoids.bind fun _ =>
      avoids_ite (avoids_refuseNext _) (avoids_refuseNext _)).after

section ClosedBy

variable {α : Type} {read : Reader α} {close : Reader Unit}

/-- A value with something to close it is read if it is read and the end is. -/
theorem closedBy_eq_ok_iff {c c'' : Cursor} {a : α} :
    closedBy read close c = .ok a c'' ↔ ∃ c', read c = .ok a c' ∧ close c' = .ok () c'' := by
  unfold closedBy
  cases read c with
  | ok a' c' => cases hclose : close c' <;> simp [hclose]
  | error e c' => cases hclose : close c' <;> simp [hclose]

/-- A value is read with its end if what it leaves begins with the end. -/
theorem Reads.closedBy {a : α} {s' s'' : List Char} (h : Reads read s a s')
    (hclose : Reads close s' () s'') : Reads (closedBy read close) s a s'' := by
  intro p
  obtain ⟨p', hp'⟩ := h p
  obtain ⟨p'', hp''⟩ := hclose p'
  exact ⟨p'', closedBy_eq_ok_iff.2 ⟨_, hp', hp''⟩⟩

/-- What is read with its end is read before its end. -/
theorem After.closedBy {Q R : α → List Char → Prop} (h : After read s Q)
    (hclose : ∀ a s', Q a s' → After close s' fun _ s'' => R a s'') :
    After (closedBy read close) s R := by
  intro p a c'' hread
  obtain ⟨c', hread, hend⟩ := closedBy_eq_ok_iff.1 hread
  obtain ⟨s', p', rfl, hq⟩ := h p a c' hread
  exact hclose a s' hq p' () c'' hend

end ClosedBy

/-- There are no more entries than characters. -/
theorem length_entries_le : ∀ (fs : Fields) {entries : List (String × Value)},
    fs.entries? = some entries → entries.length ≤ fs.text.length
  | .last key before v after, entries, hentries => by
    obtain ⟨name, -, rfl⟩ := Option.map_eq_some_iff.1 hentries
    simp only [Fields.text, KeyText.text, Literal.text, List.cons_append, List.length_append,
      List.length_cons, List.length_nil]
    omega
  | .more key before v after rest, entries, hentries => by
    obtain ⟨name, -, hmap⟩ := Option.bind_eq_some_iff.1 hentries
    obtain ⟨others, hothers, rfl⟩ := Option.map_eq_some_iff.1 hmap
    have hle := length_entries_le rest hothers
    simp only [Fields.text, List.length_append, List.length_cons]
    omega

/-- So the loop, which may take a step more than there are bytes ahead, has
enough of them. -/
theorem length_entries_lt (fs : Fields) {entries : List (String × Value)}
    (h : fs.entries? = some entries) (s : List Char) :
    entries.length < (Utf8.encode (fs.before.chars ++ (fs.core ++ s))).length + 1 := by
  have hle := length_entries_le fs h
  have hencode := length_le_encode (fs.before.chars ++ (fs.core ++ s))
  rw [← List.append_assoc, ← fs.text_eq, List.length_append] at hencode
  rw [← List.append_assoc, ← fs.text_eq]
  omega

section Record

variable (hfields : ReadsFields fields set?) (expected : String) (start : σ)

include hfields

/-- **A record is read** from an object, as what the entries come to. -/
theorem reads_record {v : Value} {entries : List (String × Value)}
    (hentries : v.entries? = some entries)
    (h : assignAll (fields.map (·.name)) set? [] entries start = some x) (b : Blanks)
    (s : List Char) : Reads (record expected fields start) (b.chars ++ (v.text ++ s)) x s := by
  refine Reads.placing ?_
  cases v with
  | emptyObject inside =>
    obtain rfl := Option.some.inj hentries
    obtain rfl := Option.some.inj h
    rw [Value.text, List.cons_append, List.append_assoc, List.singleton_append]
    refine (reads_blanks b (by decide) (by decide) _).bind ?_
    dsimp only
    rw [if_neg (by decide), if_pos rfl]
    exact (reads_skip (by decide) _).bind ((reads_left _).bind
      ((reads_objectFields_end true inside start s).closedBy (reads_endObject s)))
  | object fs =>
    rw [Value.text, List.cons_append, List.append_assoc, List.singleton_append, fs.text_eq,
      List.append_assoc]
    refine (reads_blanks b (by decide) (by decide) _).bind ?_
    dsimp only
    rw [if_neg (by decide), if_pos rfl]
    refine (reads_skip (by decide) _).bind ((reads_left _).bind
      (Reads.closedBy ?_ (reads_endObject s)))
    exact reads_objectFields hfields fs (b := Blanks.none) hentries
      (length_entries_lt fs hentries _) h s
  | _ => cases hentries

/-- Any other value is refused that is not an array: an object whose entries
come to nothing, and whatever is no object. -/
theorem refuses_record {v : Value} (harray : ¬ v.IsArray)
    (h : (v.entries?.bind fun es => assignAll (fields.map (·.name)) set? [] es start) = none)
    (b : Blanks) (s : List Char) :
    After (record expected fields start) (b.chars ++ (v.text ++ s)) fun _ _ => False := by
  obtain ⟨c, rest, htext, hc, hread⟩ := reads_blanks_value v b s
  refine After.placing (hread.after_bind (after_ite (fun hbracket => ?_) fun _ =>
    after_ite (fun hbrace => ?_) fun _ => (avoids_unexpected expected).after))
  · obtain rfl := (byte_inj hc (by decide)).1 hbracket
    exact absurd (Value.isArray_of_text htext) harray
  · obtain rfl := (byte_inj hc (by decide)).1 hbrace
    rcases Value.eq_object_of_text htext with ⟨inside, rfl⟩ | ⟨fs, rfl⟩
    · cases h
    · rw [Value.text, List.cons_append, List.append_assoc, List.singleton_append, fs.text_eq,
        List.append_assoc]
      refine (reads_skip (by decide) _).after_bind ((reads_left _).after_bind ?_)
      exact (refuses_objectFields hfields fs (b := Blanks.none) _ h s).closedBy
        fun _ _ hfalse => hfalse.elim

/-- **Only a value is read** as a record. -/
theorem after_record (s : List Char) :
    After (record expected fields start) s fun _ s' => ∃ (b : Blanks) (v : Value),
      s = b.chars ++ (v.text ++ s') := by
  refine After.placing (after_blanks (avoids_refuseNext _) fun b x s₁ hs hhead => ?_)
  refine after_ite (fun hbracket => ?_) fun _ => after_ite (fun hbrace => ?_) fun _ =>
    (avoids_unexpected expected).after
  · subst hbracket
    obtain ⟨s₂, rfl⟩ := cons_of_head? (c := '[') (by decide) hhead
    refine (reads_skip (by decide) s₂).after_bind
      ((after_arrayFields hfields true start s₂).closedBy fun _ s₃ hahead => ?_)
    refine (after_endArray s₃).mono fun _ s' ⟨b', hs₃⟩ => ?_
    obtain ⟨b₁, hs₂⟩ | ⟨b₁, es, hs₂⟩ := hahead
    · refine ⟨b, .emptyArray (b₁.append b'), ?_⟩
      simp only [hs, hs₂, hs₃, Value.text, Blanks.chars_append, List.cons_append,
        List.append_assoc, List.nil_append]
    · refine ⟨b, .array (es.padEnd b'), ?_⟩
      simp only [hs, hs₂, hs₃, Value.text, Elements.text_padEnd, es.text_eq, itemLead, if_true,
        List.cons_append, List.append_assoc, List.nil_append]
  · subst hbrace
    obtain ⟨s₂, rfl⟩ := cons_of_head? (c := '\x7b') (by decide) hhead
    refine (reads_skip (by decide) s₂).after_bind ((reads_left s₂).after_bind
      ((after_objectFields hfields _ true [] start s₂).closedBy fun _ s₃ hahead => ?_))
    obtain ⟨⟨t, rfl⟩, hahead⟩ := hahead
    refine (reads_endObject t).after.mono fun _ s' hs' => ?_
    obtain ⟨b₁, hs₂⟩ | ⟨b₁, fs, hs₂⟩ := hahead
    · refine ⟨b, .emptyObject b₁, ?_⟩
      simp only [hs, hs₂, hs'.2, Value.text, List.cons_append, List.append_assoc, List.nil_append]
    · refine ⟨b, .object fs, ?_⟩
      simp only [hs, hs₂, hs'.2, Value.text, fs.text_eq, itemLead, if_true, List.cons_append,
        List.append_assoc, List.nil_append]

end Record

end Reader

/-! ## Whole texts -/

section Decode

open Reader

variable {α : Type} {read : Reader α}

/-- A whole text is decoded by reading a value and going over the blanks behind
it. -/
theorem decode_eq (read : Reader α) (text : String) :
    decode read text = match (read >>= fun a => blanks >>= fun
        | none => pure a
        | some _ => refuseNext .trailingCharacters : Reader α) (Cursor.start text) with
      | .ok a _ => .ok a
      | .error e _ => .error e := rfl

/-- A whole text is read if nothing but blanks is left. -/
theorem decode_eq_ok_iff {text : String} {a : α} :
    decode read text = .ok a ↔ ∃ c c', read (Cursor.start text) = .ok a c ∧
      blanks c = .ok none c' := by
  rw [decode_eq]
  constructor
  · intro h
    split at h
    · rename_i a' c' hwhole
      obtain rfl := Except.ok.inj h
      obtain ⟨a'', c, hread, hrest⟩ := bind_eq_ok_iff.1 hwhole
      obtain ⟨o, c₁, hblanks, hend⟩ := bind_eq_ok_iff.1 hrest
      cases o with
      | none =>
        cases hend
        exact ⟨c, _, hread, hblanks⟩
      | some b => cases hend
    · cases h
  · rintro ⟨c, c', hread, hblanks⟩
    rw [bind_of_ok hread, bind_of_ok hblanks]
    rfl

/-- **A text of one value is read** by a reader of the value. -/
theorem decode_document {d : Document} {a : α}
    (h : Reads read (d.before.chars ++ (d.value.text ++ d.after.chars)) a d.after.chars) :
    decode read d.text = .ok a := by
  have htext : d.text.toList = d.before.chars ++ (d.value.text ++ d.after.chars) :=
    String.toList_ofList
  rw [← htext] at h
  obtain ⟨p, hp⟩ := h ⟨1, 0⟩
  obtain ⟨p', hp'⟩ := reads_blanks_end d.after p
  exact decode_eq_ok_iff.2 ⟨_, _, hp, hp'⟩

variable {fields : List (Reader.Field σ)} {set? : String → Value → σ → Option σ}
  (hfields : ReadsFields fields set?) (expected : String) (start : σ)

include hfields

/-- **The record that a text says** is what the entries of its object come to. -/
theorem decode_record (d : Document) (harray : ¬ d.value.IsArray) :
    (decode (record expected fields start) d.text).toOption
      = d.value.entries?.bind fun es => assignAll (fields.map (·.name)) set? [] es start := by
  have htext : d.text.toList = d.before.chars ++ (d.value.text ++ d.after.chars) :=
    String.toList_ofList
  cases hvalue : d.value.entries?.bind fun es =>
      assignAll (fields.map (·.name)) set? [] es start with
  | some x =>
    obtain ⟨entries, hentries, hassign⟩ := Option.bind_eq_some_iff.1 hvalue
    rw [decode_document (reads_record hfields expected start hentries hassign d.before
      d.after.chars)]
    rfl
  | none =>
    cases hdecode : decode (record expected fields start) d.text with
    | error e => rfl
    | ok x =>
      obtain ⟨c, c', hread, -⟩ := decode_eq_ok_iff.1 hdecode
      have hread : record expected fields start (.facing d.text.toList ⟨1, 0⟩) = .ok x c := hread
      rw [htext] at hread
      obtain ⟨_, _, _, hfalse⟩ := refuses_record hfields expected start harray hvalue d.before
        d.after.chars _ x c hread
      exact hfalse.elim

/-- **Only a text of one value says a record.** -/
theorem exists_document {text : String} {x : σ}
    (h : decode (record expected fields start) text = .ok x) : ∃ d : Document, d.text = text := by
  obtain ⟨c, c', hread, hblanks⟩ := decode_eq_ok_iff.1 h
  obtain ⟨s, p, rfl, b, v, htext⟩ := after_record hfields expected start text.toList _ x c hread
  -- what is left is nothing but blanks
  obtain ⟨p', hp'⟩ := reads_blanks_dropWhile s p
  rw [hblanks] at hp'
  injection hp' with hnone _
  have hdrop := eq_nil_of_head? hnone.symm
  refine ⟨⟨b, v, ⟨s, fun d hd => ?_⟩⟩, ?_⟩
  · exact List.dropWhile_eq_nil_iff.1 hdrop d hd
  · rw [Document.text, ← htext, String.ofList_toList]

end Decode

end CertAuthority.Json
