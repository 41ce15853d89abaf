import CertAuthority.Proofs.Certificate.Encodings
import CertAuthority.Proofs.Text.Base64Canonical

/-!
# The texts of a certificate

A certificate has one text that `encodePem` writes and many that `decodePem`
reads. `IsTextOf` says which: one block, its markers at the two ends of the
text, no further marker between them, and there, once the blanks are taken
out, the base64 text of the bytes and no other.

`decodePem_eq_ok_iff` says that these are the texts that are read. So the
blanks are all the freedom there is (`IsTextOf.squeeze_eq`): neither the
markers nor the digits can be spelled in another way. In particular base64 has
one spelling for each byte string, with its padding and with nothing in the
bits that are left over, and a text that is cut off or has two blocks in it is
refused.

The reader goes through stages, and each stage turns out to be one condition
on the text: the markers (`pemBody_eq_ok_iff`), the digits
(`Text.Base64.decode_eq_ok_iff`), the bytes (`ofDer_eq_ok_iff`). The stages
have errors of their own, all of one kind, so that whoever reads a text that
is none is told that its encoding is at fault (`OkOrEncoding`).
-/

namespace CertAuthority.Certificate

/-- **A text of a byte string as one block**, with blanks wherever they are
put: around the markers, and anywhere between them. -/
def IsTextOf (text : String) (der : Bytes) : Prop :=
  ∃ body : List Char,
    Text.strip text.toList = beginCertificate.toList ++ body ++ endCertificate.toList
      ∧ ¬ Pem.dashes <:+: body
      ∧ Text.squeeze body = Pem.digits der

/-! ## The stages of the reader -/

/-- A further marker is five dashes, wherever they are. -/
theorem hasMarker_eq_true_iff {s : List Char} : hasMarker s = true ↔ Pem.dashes <:+: s :=
  Pem.isSome_cutAtDashes_iff

/-- **The body of a block is what its markers enclose**, if it has no
further marker in it. -/
theorem pemBody_eq_ok_iff {text : String} {body : List Char} :
    pemBody text = .ok body ↔
      Text.strip text.toList = beginCertificate.toList ++ body ++ endCertificate.toList
        ∧ ¬ Pem.dashes <:+: body := by
  constructor
  · intro h
    unfold pemBody at h
    split at h
    · exact absurd h (by simp)
    · rename_i rest hrest
      split at h
      · exact absurd h (by simp)
      · rename_i inner hinner
        split_ifs at h with hmarker
        cases h
        rw [dropExpected?_eq_some_iff] at hrest
        rw [dropEnding?_eq_some_iff] at hinner
        exact ⟨by rw [hrest, hinner, List.append_assoc], fun hd =>
          hmarker (hasMarker_eq_true_iff.2 hd)⟩
  · rintro ⟨hstrip, hdashes⟩
    have hmarker : ¬ hasMarker body = true := fun hm => hdashes (hasMarker_eq_true_iff.1 hm)
    unfold pemBody
    rw [hstrip, List.append_assoc]
    simp only [dropExpected?_append, dropEnding?_append, if_neg hmarker]

/-- **A text without blanks is the digits of a byte string if its form is
read as that byte string**: the characters outside the alphabet, those
beyond ASCII included, have forms that are not digits. -/
theorem decode_encode_eq_ok_iff {s : List Char} {der : Bytes} :
    Text.Base64.decode (Text.Utf8.encode s) = .ok der ↔ s = Pem.digits der := by
  rw [Text.Base64.decode_eq_ok_iff, ← Pem.encode_digits, Text.Utf8.encode_injective.eq_iff]

/-! ## Errors

The stages of the reader are each shown to fail with an error of the encoding
or not at all, and one rule puts them together. -/

/-- **An outcome that is a value or an error of reading.** -/
def OkOrEncoding {α : Type} (r : Except Error α) : Prop :=
  ∀ e, r = .error e → ∃ cause, e = .encoding cause

/-- Two stages of reading, one after the other, have errors of reading only. -/
theorem OkOrEncoding.bind {α β : Type} {r : Except Error α} {f : α → Except Error β}
    (hr : OkOrEncoding r) (hf : ∀ a, OkOrEncoding (f a)) : OkOrEncoding (r >>= f) := by
  intro e he
  match r, hr, he with
  | .error e', hr, he =>
    change Except.error e' = Except.error e at he
    exact hr e (congrArg _ (Except.error.inj he))
  | .ok a, _, he => exact hf a e he

theorem okOrEncoding_ok {α : Type} (a : α) : OkOrEncoding (Except.ok a : Except Error α) := by
  intro e he
  exact absurd he (by simp)

/-- What is wrong with an encoding is an error of reading. -/
theorem okOrEncoding_error {α : Type} (cause : EncodingCause) :
    OkOrEncoding (Except.error (.encoding cause) : Except Error α) := by
  intro e he
  exact ⟨cause, (Except.error.inj he).symm⟩

theorem okOrEncoding_readIsCa (extensions : List Extension) :
    OkOrEncoding (Facts.readIsCa extensions) := by
  unfold Facts.readIsCa
  split
  · exact okOrEncoding_error _
  · exact okOrEncoding_ok _
  · exact okOrEncoding_ok _

theorem okOrEncoding_readSan (extensions : List Extension) :
    OkOrEncoding (Facts.readSan extensions) := by
  unfold Facts.readSan
  split
  · exact okOrEncoding_error _
  · exact okOrEncoding_ok _
  · split
    · exact okOrEncoding_error _
    · exact okOrEncoding_ok _

/-- All that is asked of a certificate is read from its bytes, or these are at
fault. -/
theorem okOrEncoding_facts (der : Bytes) : OkOrEncoding (Facts.ofDer der) := by
  unfold Facts.ofDer
  split
  · exact okOrEncoding_error _
  · split_ifs
    · exact okOrEncoding_error _
    · exact (okOrEncoding_readIsCa _).bind fun isCa =>
        (okOrEncoding_readSan _).bind fun san => okOrEncoding_ok _

/-- Bytes are read as a certificate or are none. -/
theorem okOrEncoding_ofDer (der : Bytes) : OkOrEncoding (ofDer der) := by
  intro e he
  unfold ofDer at he
  split at he
  · exact absurd he (by simp)
  · rename_i e' he'
    exact okOrEncoding_facts der e ((Except.error.inj he) ▸ he')

/-- A text has a body between markers or is none of a certificate. -/
theorem okOrEncoding_pemBody (text : String) : OkOrEncoding (pemBody text) := by
  unfold pemBody
  split
  · exact okOrEncoding_error _
  · split
    · exact okOrEncoding_error _
    · split_ifs
      · exact okOrEncoding_error _
      · exact okOrEncoding_ok _

/-- **A text that is not read as a certificate** is refused for its encoding, at
whichever stage. -/
theorem okOrEncoding_decodePem (text : String) : OkOrEncoding (decodePem text) := by
  refine (okOrEncoding_pemBody text).bind fun body => ?_
  split
  · exact okOrEncoding_error _
  · exact okOrEncoding_ofDer _

/-! ## What is read -/

/-- **The texts that are read as a certificate are its texts.** A certificate is
what its bytes are read as, so nothing else need be said about them. -/
theorem decodePem_eq_ok_iff {text : String} {c : Certificate} :
    decodePem text = .ok c ↔ IsTextOf text c.der := by
  constructor
  · intro h
    unfold decodePem at h
    cases hbody : pemBody text with
    | error e => simp [hbody, bind, Except.bind] at h
    | ok body =>
      cases hder : Text.Base64.decode (Text.Utf8.encode (Text.squeeze body)) with
      | error fault => simp [hbody, hder, bind, Except.bind] at h
      | ok der =>
        simp only [hbody, hder, bind, Except.bind, ofDer_eq_ok_iff] at h
        rw [← h] at hder
        obtain ⟨hstrip, hdashes⟩ := pemBody_eq_ok_iff.1 hbody
        exact ⟨body, hstrip, hdashes, decode_encode_eq_ok_iff.1 hder⟩
  · rintro ⟨body, hstrip, hdashes, hdigits⟩
    have hbody : pemBody text = .ok body := pemBody_eq_ok_iff.2 ⟨hstrip, hdashes⟩
    rw [decodePem_of_pemBody hbody (decode_encode_eq_ok_iff.2 hdigits), ofDer_der']

/-- **Without blanks there is one text.** -/
theorem IsTextOf.squeeze_eq {text text' : String} {der : Bytes} (h : IsTextOf text der)
    (h' : IsTextOf text' der) : Text.squeeze text.toList = Text.squeeze text'.toList := by
  obtain ⟨body, hstrip, -, hdigits⟩ := h
  obtain ⟨body', hstrip', -, hdigits'⟩ := h'
  calc Text.squeeze text.toList
      = Text.squeeze (Text.strip text.toList) := (Text.squeeze_strip _).symm
    _ = Text.squeeze (Text.strip text'.toList) := by
        rw [hstrip, hstrip']
        simp only [Text.squeeze_append, hdigits, hdigits']
    _ = Text.squeeze text'.toList := Text.squeeze_strip _

/-- **Reading a text accepts one language.** A text is read as a certificate
exactly when it is one block of the certificate's bytes, whatever its blanks,
and these bytes are read as the certificate. So a text that is read as a
certificate is, up to blanks, the text that is written for it. Any other text
is refused, with an error that says what is wrong with the encoding. -/
theorem decodePem_language (text : String) :
    (∀ c, decodePem text = .ok c ↔ IsTextOf text c.der ∧ ofDer c.der = .ok c)
      ∧ (∀ c, decodePem text = .ok c →
          Text.squeeze text.toList = Text.squeeze c.encodePem.toList)
      ∧ ((¬ ∃ c, decodePem text = .ok c) →
          ∃ cause, decodePem text = .error (.encoding cause)) := by
  refine ⟨fun c => ?_, fun c hc => ?_, fun hnone => ?_⟩
  · rw [decodePem_eq_ok_iff, and_iff_left (ofDer_der' c)]
  · have htext : IsTextOf text c.der := decodePem_eq_ok_iff.1 hc
    exact htext.squeeze_eq (decodePem_eq_ok_iff.1 (decodePem_encodePem c))
  · match hread : decodePem text with
    | .ok c => exact absurd ⟨c, hread⟩ hnone
    | .error e =>
      obtain ⟨cause, rfl⟩ := okOrEncoding_decodePem text e hread
      exact ⟨cause, rfl⟩

end CertAuthority.Certificate
