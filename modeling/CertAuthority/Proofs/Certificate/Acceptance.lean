import CertAuthority.Certificate.Encode
import CertAuthority.Certificate.Transport
import CertAuthority.Proofs.Certificate.Layouts
import CertAuthority.Proofs.Der.Prefix

/-!
# Which byte strings are certificates

A byte string is read as a certificate in two steps. First its contents are
taken off its beginning, which fails (`Certificate.ofDer_of_unread`), leaves
something (`Certificate.ofDer_of_rest`) or leaves nothing; only in the last
case are the extensions looked at (`Facts.ofDer_of_read`). So there are four
things that can be wrong with it (`Certificate.error_of_ofDer`).

Of the extensions two are acted on, and what becomes of one of them depends on
how many there are of its type (`Extension.ofType_cases`).
`Certificate.Follows` says that the outcome is the one that the value of such
an extension asks for. It is a statement about a value and not about a reader:
what the value says is given by a relation, in which a value may say nothing,
and then there is to be no certificate.

Since the reader of the contents is local, the bytes of a certificate are the
beginning of no other (`Certificate.ofDer_prefixFree`): with more bytes behind
them, these are what is left over, and without some of them the contents
cannot be read. It does not matter by which way the bytes come
(`Certificate.IsRefused`).
-/

namespace CertAuthority

open Der

/-! ## Outcomes -/

/-- **Only the extensions are looked at** once the contents are read. -/
theorem Facts.ofDer_of_read {der : Bytes} {contents : Contents}
    (h : Contents.read? der = some (contents, [])) :
    Facts.ofDer der = do
      let isCa ← readIsCa contents.statement.extensions
      let san ← readSan contents.statement.extensions
      return ⟨contents, isCa, san⟩ := by
  unfold Facts.ofDer
  rw [h]
  exact if_neg fun hrest => hrest rfl

/-! ### Extensions of one type

Both extensions that the reader looks at are picked in one way, by their type,
and are refused in one way if there are several. So there are three cases for
each of them, and they differ in what becomes of a value that cannot be read.
-/

namespace Extension

/-- The extensions that are of a type. -/
def ofType (type : Oid) (extensions : List Extension) : List Extension :=
  extensions.filter fun e => e.type == type

variable {type : Oid} {extensions : List Extension}

/-- Of no extension of a type none is found. -/
theorem unique?_of_none (h : ofType type extensions = []) : unique? type extensions = .ok none := by
  unfold ofType at h
  unfold unique?
  rw [h]

theorem unique?_of_one {e : Extension} (h : ofType type extensions = [e]) :
    unique? type extensions = .ok (some e) := by
  unfold ofType at h
  unfold unique?
  rw [h]

/-- Of several none can be told to be the one that is meant. -/
theorem unique?_of_more (h : 2 ≤ (ofType type extensions).length) :
    unique? type extensions = .error () := by
  unfold ofType at h
  unfold unique?
  split
  · rename_i hnone
    rw [hnone] at h
    cases h
  · rename_i e hone
    rw [hone] at h
    cases h with
    | step h => cases h
  · rfl

/-- **No extension of a type, one, or more.** -/
theorem ofType_cases (type : Oid) (extensions : List Extension) :
    ofType type extensions = [] ∨ (∃ e, ofType type extensions = [e])
      ∨ 2 ≤ (ofType type extensions).length := by
  match ofType type extensions with
  | [] => exact Or.inl rfl
  | [e] => exact Or.inr (Or.inl ⟨e, rfl⟩)
  | _ :: _ :: rest => exact Or.inr (Or.inr (Nat.le_add_left 2 rest.length))

end Extension

namespace Facts

variable {extensions : List Extension}

theorem readIsCa_of_none (h : Extension.ofType Extension.basicConstraints extensions = []) :
    readIsCa extensions = .ok false := by
  unfold readIsCa
  rw [Extension.unique?_of_none h]

/-- One extension decides. A value that cannot be read counts as one that denies
it. -/
theorem readIsCa_of_one {e : Extension}
    (h : Extension.ofType Extension.basicConstraints extensions = [e]) :
    readIsCa extensions = .ok ((Extension.authority? e.value).getD false) := by
  unfold readIsCa
  rw [Extension.unique?_of_one h]

theorem readIsCa_of_more
    (h : 2 ≤ (Extension.ofType Extension.basicConstraints extensions).length) :
    readIsCa extensions = .error (.encoding (.basicConstraints .duplicate)) := by
  unfold readIsCa
  rw [Extension.unique?_of_more h]

theorem readSan_of_none (h : Extension.ofType Extension.subjectAltName extensions = []) :
    readSan extensions = .ok [] := by
  unfold readSan
  rw [Extension.unique?_of_none h]

/-- One extension gives the names that are read of its value. -/
theorem readSan_of_names {e : Extension}
    (h : Extension.ofType Extension.subjectAltName extensions = [e]) {names : List AltName}
    (hnames : AltName.ofExtension? e.value = some names) : readSan extensions = .ok names := by
  unfold readSan
  rw [Extension.unique?_of_one h]
  dsimp only
  rw [hnames]

theorem readSan_of_unreadable {e : Extension}
    (h : Extension.ofType Extension.subjectAltName extensions = [e])
    (hnone : AltName.ofExtension? e.value = none) :
    readSan extensions = .error (.encoding (.subjectAltName .invalid)) := by
  unfold readSan
  rw [Extension.unique?_of_one h]
  dsimp only
  rw [hnone]

/-- Several are an error as well, another one. -/
theorem readSan_of_more (h : 2 ≤ (Extension.ofType Extension.subjectAltName extensions).length) :
    readSan extensions = .error (.encoding (.subjectAltName .duplicate)) := by
  unfold readSan
  rw [Extension.unique?_of_more h]

/-- Constraints can only be at fault by being there twice. -/
theorem error_of_readIsCa {e : Error} (h : readIsCa extensions = .error e) :
    e = .encoding (.basicConstraints .duplicate) := by
  unfold readIsCa at h
  split at h
  · exact (Except.error.inj h).symm
  · cases h
  · cases h

/-- Names are at fault by that, or by not being readable. -/
theorem error_of_readSan {e : Error} (h : readSan extensions = .error e) :
    ∃ fault, e = .encoding (.subjectAltName fault) := by
  unfold readSan at h
  split at h
  · exact ⟨_, (Except.error.inj h).symm⟩
  · cases h
  · split at h
    · exact ⟨_, (Except.error.inj h).symm⟩
    · cases h

end Facts

/-! ### Of the whole

The two extensions are read once everything else has been, the basic
constraints first. Hence a byte string is refused for one of four reasons,
tried in this order: it does not begin with a certificate, it goes on behind
one, its constraints are there twice, or its names are there twice or cannot
be read. -/

namespace Certificate

variable {der rest : Bytes} {contents : Contents}

/-- A byte string is no certificate just when nothing can be had from it. -/
theorem ofDer_eq_error_iff {e : Error} : ofDer der = .error e ↔ Facts.ofDer der = .error e := by
  unfold ofDer
  split
  · rename_i facts hfacts
    exact iff_of_false (by simp) (by simp [hfacts])
  · rename_i e' he
    rw [he, Except.error.injEq, Except.error.injEq]

/-- A byte string that does not begin with the contents of a certificate is
none. -/
theorem ofDer_of_unread (h : Contents.read? der = none) :
    ofDer der = .error (.encoding .notACertificate) := by
  rw [ofDer_eq_error_iff]
  unfold Facts.ofDer
  rw [h]

/-- One that goes on behind them is none, and it is told how many bytes are too
many. -/
theorem ofDer_of_rest (h : Contents.read? der = some (contents, rest)) (hrest : rest ≠ []) :
    ofDer der = .error (.encoding (.trailingBytes rest.length)) := by
  rw [ofDer_eq_error_iff]
  unfold Facts.ofDer
  rw [h]
  exact if_pos hrest

/-- The basic constraints are looked at first. -/
theorem ofDer_of_readIsCa_error (h : Contents.read? der = some (contents, [])) {e : Error}
    (hca : Facts.readIsCa contents.statement.extensions = .error e) : ofDer der = .error e := by
  rw [ofDer_eq_error_iff, Facts.ofDer_of_read h, hca]
  rfl

theorem ofDer_of_readSan_error (h : Contents.read? der = some (contents, [])) {isCa : Bool}
    (hca : Facts.readIsCa contents.statement.extensions = .ok isCa) {e : Error}
    (hsan : Facts.readSan contents.statement.extensions = .error e) : ofDer der = .error e := by
  rw [ofDer_eq_error_iff, Facts.ofDer_of_read h, hca, hsan]
  rfl

/-- **A byte string is a certificate** if nothing is wrong with it. -/
theorem exists_ofDer (h : Contents.read? der = some (contents, [])) {isCa : Bool}
    (hca : Facts.readIsCa contents.statement.extensions = .ok isCa) {san : List AltName}
    (hsan : Facts.readSan contents.statement.extensions = .ok san) :
    ∃ c, ofDer der = .ok c ∧ c.facts = ⟨contents, isCa, san⟩ := by
  have hfacts : Facts.ofDer der = .ok ⟨contents, isCa, san⟩ := by
    rw [Facts.ofDer_of_read h, hca, hsan]
    rfl
  exact ⟨⟨der, _, hfacts⟩, ofDer_eq_ok_iff.2 rfl, rfl⟩

/-- **What can be wrong with a byte string**: it does not begin with a
certificate, it goes on after it, or one of two extensions cannot be used. -/
theorem error_of_ofDer {e : Error} (h : ofDer der = .error e) :
    e = .encoding .notACertificate ∨ (∃ count, e = .encoding (.trailingBytes count))
      ∨ e = .encoding (.basicConstraints .duplicate)
      ∨ ∃ fault, e = .encoding (.subjectAltName fault) := by
  match hread : Contents.read? der with
  | none =>
    rw [ofDer_of_unread hread] at h
    exact Or.inl (Except.error.inj h).symm
  | some (contents, x :: rest) =>
    rw [ofDer_of_rest hread (List.cons_ne_nil x rest)] at h
    exact Or.inr (Or.inl ⟨_, (Except.error.inj h).symm⟩)
  | some (contents, []) =>
    match hca : Facts.readIsCa contents.statement.extensions,
        hsan : Facts.readSan contents.statement.extensions with
    | .error e', _ =>
      obtain rfl := Except.error.inj ((ofDer_of_readIsCa_error hread hca).symm.trans h)
      exact Or.inr (Or.inr (Or.inl (Facts.error_of_readIsCa hca)))
    | .ok isCa, .error e' =>
      obtain rfl := Except.error.inj ((ofDer_of_readSan_error hread hca hsan).symm.trans h)
      exact Or.inr (Or.inr (Or.inr (Facts.error_of_readSan hsan)))
    | .ok isCa, .ok san =>
      obtain ⟨c, hc, -⟩ := exists_ofDer hread hca hsan
      rw [hc] at h
      cases h

/-- **The outcome that an extension asks for**: if its value says something, then
a certificate that agrees with it, and if it says nothing, no certificate. -/
def Follows {α : Type} (outcome : Except Error Certificate) (asked : α → Prop)
    (agrees : Certificate → α → Prop) : Prop :=
  (∀ a, asked a → ∃ c, outcome = .ok c ∧ agrees c a)
    ∧ ((∀ a, ¬ asked a) → ∃ cause, outcome = .error (.encoding cause))

section Follows

variable {α : Type} {asked : α → Prop} {agrees : Certificate → α → Prop}

/-- **A certificate is right** if it agrees with what is asked, where only one
thing can be. -/
theorem follows_ok_iff {c : Certificate} (hunique : ∀ a b, asked a → asked b → a = b) :
    Follows (.ok c) asked agrees ↔ ∃ a, asked a ∧ agrees c a := by
  constructor
  · intro h
    by_cases hasked : ∃ a, asked a
    · obtain ⟨a, ha⟩ := hasked
      obtain ⟨c', hc', hagrees⟩ := h.1 a ha
      obtain rfl := Except.ok.inj hc'
      exact ⟨a, ha, hagrees⟩
    · obtain ⟨cause, hcause⟩ := h.2 (not_exists.1 hasked)
      cases hcause
  · rintro ⟨a, ha, hagrees⟩
    refine ⟨fun b hb => ⟨c, rfl, ?_⟩, fun hnone => absurd ha (hnone a)⟩
    rw [hunique b a hb ha]
    exact hagrees

/-- **It is right to refuse** a value that says nothing. -/
theorem follows_error_iff {cause : EncodingCause} :
    Follows (.error (.encoding cause)) asked agrees ↔ ∀ a, ¬ asked a := by
  constructor
  · intro h a ha
    obtain ⟨c, hc, -⟩ := h.1 a ha
    cases hc
  · intro h
    exact ⟨fun a ha => absurd ha (h a), fun _ => ⟨cause, rfl⟩⟩

end Follows

/-! ## What a certificate was read from -/

variable (c : Certificate)

/-- The extensions of a certificate. -/
def extensions : List Extension := c.facts.contents.statement.extensions

/-- **The encoding can be read once more**, and so can the two extensions. -/
theorem read_der : Contents.read? c.der = some (c.facts.contents, [])
    ∧ Facts.readIsCa c.extensions = .ok c.isCa ∧ Facts.readSan c.extensions = .ok c.san := by
  have hnot : ∀ e, ofDer c.der ≠ .error e := fun e he =>
    absurd ((ofDer_der' c).symm.trans he) (by simp)
  match hread : Contents.read? c.der with
  | none => exact absurd (ofDer_of_unread hread) (hnot _)
  | some (contents, x :: rest) =>
    exact absurd (ofDer_of_rest hread (List.cons_ne_nil x rest)) (hnot _)
  | some (contents, []) =>
    match hca : Facts.readIsCa contents.statement.extensions,
        hsan : Facts.readSan contents.statement.extensions with
    | .error e, _ => exact absurd (ofDer_of_readIsCa_error hread hca) (hnot _)
    | .ok isCa, .error e => exact absurd (ofDer_of_readSan_error hread hca hsan) (hnot _)
    | .ok isCa, .ok san =>
      obtain ⟨c', hc', hfacts⟩ := exists_ofDer hread hca hsan
      obtain rfl := ext_der (ofDer_eq_ok_iff.1 hc').symm
      unfold extensions Certificate.isCa Certificate.san
      rw [hfacts]
      exact ⟨rfl, hca, hsan⟩

end Certificate

/-! ## Bytes behind a certificate, and bytes that are missing

A byte string comes to the reader of certificates in several ways, and what is
refused is refused on all of them, since each takes the bytes as they are. So
it is enough to look at the bytes: how many there are is announced by the
first few, and a byte too many or too few is found by counting. -/

/-- **The contents of a certificate are read locally**: they are one element. -/
theorem Contents.isLocal_read? : IsLocal Contents.read? := isLocal_readInside? _ _

namespace Certificate

/-- **A byte string that nobody takes for a certificate**, for the given
cause: neither as it is, nor in the form of the transport layer, nor in a text,
nor in a block of a bundle. -/
structure IsRefused (b : Bytes) (cause : EncodingCause) : Prop where
  /-- As bytes. -/
  der : ofDer b = .error (.encoding cause)
  /-- In the form of the transport layer. -/
  transport : ofTransport ⟨b⟩ = .error (.encoding cause)
  /-- As an encoded certificate. -/
  encoded : (Encoded.der b).decode = .error (.encoding cause)
  /-- In any text that is one block of it. -/
  text : ∀ text, IsTextOf text b → decodePem text = .error (.encoding cause)
  /-- In such a text as an encoded certificate. -/
  encodedText : ∀ text, IsTextOf text b → (Encoded.pem text).decode = .error (.encoding cause)
  /-- As a block of a bundle. -/
  block : ofBlock ⟨pemLabel, b⟩ = .error (.encoding cause)

/-- A text is read as the bytes that it is a text of. -/
theorem decodePem_of_isTextOf {text : String} {b : Bytes} (h : IsTextOf text b) :
    decodePem text = ofDer b := by
  obtain ⟨body, hstrip, hdashes, hdigits⟩ := h
  exact decodePem_of_pemBody (pemBody_eq_ok_iff.2 ⟨hstrip, hdashes⟩)
    (decode_encode_eq_ok_iff.2 hdigits)

/-- **All ways lead to the bytes.** -/
theorem isRefused_of_ofDer {b : Bytes} {cause : EncodingCause}
    (h : ofDer b = .error (.encoding cause)) : IsRefused b cause := by
  have htext : ∀ text, IsTextOf text b → decodePem text = .error (.encoding cause) :=
    fun text ht => (decodePem_of_isTextOf ht).trans h
  refine ⟨h, h, h, htext, htext, ?_⟩
  unfold ofBlock
  rw [if_neg fun hlabel => hlabel rfl]
  exact h

/-- **Encodings of certificates are prefix-free.** Bytes behind one are
counted as trailing ones, and without some of its last bytes it cannot be read
at all. So neither several of them in a row nor a piece of one is ever taken for
a certificate, and one that is the beginning of another is that one. -/
theorem ofDer_prefixFree {d : Bytes} {c : Certificate} (h : ofDer d = .ok c) :
    (∀ s, s ≠ [] → IsRefused (d ++ s) (.trailingBytes s.length))
      ∧ (∀ b, b <+: d → b ≠ d → IsRefused b .notACertificate)
      ∧ (∀ ds : List Bytes, ds ≠ [] → (∀ d' ∈ ds, ∃ c', ofDer d' = .ok c') →
          IsRefused (d ++ ds.flatten) (.trailingBytes ds.flatten.length))
      ∧ ∀ d' c', ofDer d' = .ok c' → d <+: d' → d = d' := by
  obtain rfl := ofDer_eq_ok_iff.1 h
  have hread := c.read_der.1
  have hmore : ∀ s, s ≠ [] → IsRefused (c.der ++ s) (.trailingBytes s.length) := fun s hs =>
    isRefused_of_ofDer (ofDer_of_rest (Contents.isLocal_read?.read_append hread s) hs)
  have hless : ∀ b, b <+: c.der → b ≠ c.der → IsRefused b .notACertificate := fun b hstart hne =>
    isRefused_of_ofDer (ofDer_of_unread (Contents.isLocal_read?.read_eq_none hread hstart hne))
  refine ⟨hmore, hless, fun ds hds hall => ?_, fun d' c' h' hstart => ?_⟩
  · -- no certificate is without bytes
    refine hmore _ fun hflatten => ?_
    obtain ⟨d', hd'⟩ := List.exists_mem_of_ne_nil ds hds
    obtain ⟨c', hc'⟩ := hall d' hd'
    rw [List.flatten_eq_nil_iff.1 hflatten d' hd', ofDer_of_unread rfl] at hc'
    cases hc'
  · obtain ⟨s, rfl⟩ := hstart
    by_cases hs : s = []
    · rw [hs, List.append_nil]
    · rw [(hmore s hs).der] at h'
      cases h'

end Certificate

/-! ### A small certificate -/

/-- A certificate of a year with the given extensions. Issuer and subject are
one name, the key is of zeros, and so is the signature. -/
def smallDer (extensions : List Extension) : Bytes :=
  let name := Der.sequence [Plan.namePart AttributeType.commonName "a"]
  Plan.signed
    (Der.sequence
      [encode (Mark.fieldOf 0) (integer Plan.version), integer 1, Plan.signatureAlgorithm .ed25519,
        name, Der.sequence [Plan.midnight ⟨2024, 1, 1⟩, Plan.midnight ⟨2024, 12, 31⟩], name,
        Plan.publicKeyInfo .ed25519 (Bytes.ofNatPadded 32 0),
        encode (Mark.fieldOf 3) (Der.sequence
          (extensions.map fun e => Plan.extension e.type e.critical e.value))])
    .ed25519 (Bytes.ofNatPadded 64 0)

/-- The extension of an authority. -/
def authorityExtension : Extension :=
  ⟨Extension.basicConstraints, true, Plan.basicConstraints true⟩

/-- A byte string is a certificate of some kind if its reader says so. -/
theorem exists_ofDer_of_check (der : Bytes) (check : Certificate → Bool)
    (h : (Certificate.ofDer der).toOption.any check = true) :
    ∃ c, Certificate.ofDer der = .ok c ∧ check c = true := by
  cases hc : Certificate.ofDer der with
  | error e =>
    rw [hc] at h
    cases h
  | ok c =>
    rw [hc] at h
    exact ⟨c, rfl, h⟩

/-- With the extension of an authority it is a certificate. -/
theorem exists_ofDer_small : ∃ c, Certificate.ofDer (smallDer [authorityExtension]) = .ok c := by
  obtain ⟨c, hc, -⟩ := exists_ofDer_of_check (smallDer [authorityExtension]) (fun _ => true)
    (by decide +kernel)
  exact ⟨c, hc⟩

/-- **The same certificate twice** is none, and one without its last byte is
none either. -/
theorem Certificate.not_ofDer_smallTwice :
    (∃ c, ofDer (smallDer [authorityExtension]) = .ok c)
      ∧ ofDer (smallDer [authorityExtension] ++ smallDer [authorityExtension])
        = .error (.encoding (.trailingBytes 220))
      ∧ ofDer (smallDer [authorityExtension]).dropLast = .error (.encoding .notACertificate) := by
  obtain ⟨c, hc⟩ := exists_ofDer_small
  have hlength : (smallDer [authorityExtension]).length = 220 := by decide +kernel
  have hne : (smallDer [authorityExtension]).dropLast ≠ smallDer [authorityExtension] := by
    decide +kernel
  obtain ⟨hmore, hless, -, -⟩ := ofDer_prefixFree hc
  refine ⟨⟨c, hc⟩, ?_, (hless _ (List.dropLast_prefix _) hne).der⟩
  rw [← hlength]
  exact (hmore _ fun hnil => absurd (congrArg List.length hnil) (by rw [hlength]; decide)).der

end CertAuthority
