import CertAuthority.Certificate.Contents
import CertAuthority.Error

/-!
# Certificates

A certificate is its encoding. `Certificate` holds the bytes together with
what they say, and the proof that they say it, so that two certificates are
equal exactly when their bytes are (`Certificate.ext_der`).

`Certificate.ofDer` is the only way to make one. Beyond the shape of the
encoding it asks that the two extensions the authority acts on, the basic
constraints and the alternative names, occur at most once, and that the
alternative names can be read. Basic constraints that cannot be read make
no authority.
-/

namespace CertAuthority

/-- **What an accepted certificate says**, as far as the authority acts on
it. -/
structure Facts where
  /-- All that the encoding holds. -/
  contents : Contents
  /-- Whether the subject may sign certificates. -/
  isCa : Bool
  /-- The alternative names of the subject. -/
  san : List AltName
  deriving DecidableEq

namespace Facts

/-- Whether the extensions make the subject an authority. -/
def readIsCa (extensions : List Extension) : Except Error Bool :=
  match Extension.unique? Extension.basicConstraints extensions with
  | .error () => .error (.encoding (.basicConstraints .duplicate))
  | .ok none => .ok false
  | .ok (some e) => .ok ((Extension.authority? e.value).getD false)

/-- The alternative names in the extensions. -/
def readSan (extensions : List Extension) : Except Error (List AltName) :=
  match Extension.unique? Extension.subjectAltName extensions with
  | .error () => .error (.encoding (.subjectAltName .duplicate))
  | .ok none => .ok []
  | .ok (some e) =>
    match AltName.ofExtension? e.value with
    | none => .error (.encoding (.subjectAltName .invalid))
    | some names => .ok names

/-- **What a byte string says, if it is one certificate and nothing
else.** -/
def ofDer (der : Bytes) : Except Error Facts :=
  match Contents.read? der with
  | none => .error (.encoding .notACertificate)
  | some (contents, rest) =>
    if rest ≠ [] then .error (.encoding (.trailingBytes rest.length))
    else do
      let isCa ← readIsCa contents.statement.extensions
      let san ← readSan contents.statement.extensions
      return ⟨contents, isCa, san⟩

end Facts

/-- **A certificate**: its encoding and what it says. -/
structure Certificate where
  /-- The encoding. -/
  der : Bytes
  /-- What the encoding says. -/
  facts : Facts
  /-- The encoding does say it. -/
  ofDer_der : Facts.ofDer der = .ok facts

namespace Certificate

/-- **Equal encodings, equal certificates.** -/
theorem ext_der {a b : Certificate} (h : a.der = b.der) : a = b := by
  obtain ⟨der, facts, hf⟩ := a
  obtain ⟨der', facts', hf'⟩ := b
  obtain rfl : der = der' := h
  obtain rfl : facts = facts' := Except.ok.inj (hf.symm.trans hf')
  rfl

instance : DecidableEq Certificate := fun a b =>
  if h : a.der = b.der then isTrue (ext_der h) else isFalse fun e => h (e ▸ rfl)

/-- **The certificate with this encoding**, if it is one. -/
def ofDer (der : Bytes) : Except Error Certificate :=
  match h : Facts.ofDer der with
  | .ok facts => .ok ⟨der, facts, h⟩
  | .error e => .error e

/-- The serial number. -/
def serialNumber (c : Certificate) : SerialNumber := c.facts.contents.statement.serialNumber

/-- The name of the subject. -/
def subjectName (c : Certificate) : Name := c.facts.contents.statement.subject

/-- The name of the issuer. -/
def issuerName (c : Certificate) : Name := c.facts.contents.statement.issuer

/-- The text of the name of the subject. -/
def subject (c : Certificate) : String := c.subjectName.text

/-- The text of the name of the issuer. -/
def issuer (c : Certificate) : String := c.issuerName.text

/-- The common name of the subject. -/
def commonName? (c : Certificate) : Option String := c.subjectName.commonName?

/-- The window in which the certificate holds. -/
def validity (c : Certificate) : Validity := c.facts.contents.statement.validity

/-- The first instant at which the certificate holds. -/
def notBefore (c : Certificate) : Calendar.Instant := c.validity.notBefore

/-- The last instant at which the certificate holds. -/
def notAfter (c : Certificate) : Calendar.Instant := c.validity.notAfter

/-- Whether the subject may sign certificates. -/
def isCa (c : Certificate) : Bool := c.facts.isCa

/-- The public key of the subject with its algorithm, encoded. -/
def publicKey (c : Certificate) : Bytes := c.facts.contents.statement.publicKey.bytes

/-- The bits of the signature. -/
def signature (c : Certificate) : Bytes := c.facts.contents.signature.bytes

/-- The alternative names of the subject. -/
def san (c : Certificate) : List AltName := c.facts.san

/-- **Whether the subject is the issuer**, as far as the text of the names
tells. -/
def isSelfIssued (c : Certificate) : Bool := c.subject == c.issuer

/-- Whether the certificate holds at an instant. -/
def isValidAt (c : Certificate) (t : Calendar.Instant) : Bool := decide (c.validity.Covers t)

theorem ofDer_eq_ok_iff {der : Bytes} {c : Certificate} : ofDer der = .ok c ↔ c.der = der := by
  constructor
  · intro h
    unfold ofDer at h
    split at h
    · cases h; rfl
    · simp at h
  · rintro rfl
    unfold ofDer
    split
    · rename_i facts h
      exact congrArg _ (ext_der rfl)
    · rename_i e h
      exact absurd (c.ofDer_der.symm.trans h) (by simp)

@[simp] theorem ofDer_der' (c : Certificate) : ofDer c.der = .ok c :=
  ofDer_eq_ok_iff.2 rfl

end Certificate

end CertAuthority
