import CertAuthority.Certificate.Pem
import CertAuthority.Certificate.Transport
import CertAuthority.Proofs.Pem.Block

/-!
# A certificate and its encodings

A certificate has three encodings: its bytes, its text, and the form of the
transport layer. Whichever of them is read, the certificate comes back, and
since nothing but the certificate comes back, two certificates with one
encoding in common are the same.

A certificate is kept with its bytes and with all that was read from them, and
there is no other way to get one than to read it (`ofDer`). That is why
agreement in the bytes is agreement in everything: what was read is a function
of the bytes.

The text is where there is something to prove. Its reader strips blanks, takes
the markers off, looks for further markers, squeezes out the line ends and
reads what is left as base64; `pemBody_encodePem` follows it up to the
markers, and the rest is known of the body (`Pem.squeeze_bodyText`) and of
base64 (`Text.Base64.decode_encode`).
-/

namespace CertAuthority

namespace Certificate

/-! ## The text of a certificate

The reader strips blanks from both ends and takes off the markers. What it is
left with is the body of the block only if stripping did not go too far, which
it does not, because a marker begins and ends with dashes. -/

/-- What an expected ending leaves of a text is what comes before it. -/
theorem dropEnding?_eq_some_iff {ending text s : List Char} :
    dropEnding? ending text = some s ↔ text = s ++ ending := by
  rw [dropEnding?, Option.map_eq_some_iff]
  constructor
  · rintro ⟨front, hfront, rfl⟩
    rw [dropExpected?_eq_some_iff] at hfront
    rw [← List.reverse_reverse text, hfront, List.reverse_append, List.reverse_reverse]
  · rintro rfl
    exact ⟨s.reverse, by rw [List.reverse_append, dropExpected?_append], List.reverse_reverse s⟩

/-- An ending that is there is taken off. -/
@[simp] theorem dropEnding?_append (s t : List Char) : dropEnding? t (s ++ t) = some s :=
  dropEnding?_eq_some_iff.2 rfl

/-- The text of a certificate is a line for each marker and lines of digits
between them. -/
theorem toList_encodePem (c : Certificate) :
    c.encodePem.toList
      = beginCertificate.toList ++ ('\n' :: Pem.bodyText c.der ++ endCertificate.toList)
        ++ ['\n'] := by
  have hbegin : Pem.beginLine pemLabel = beginCertificate := by decide +kernel
  have hend : Pem.endLine pemLabel = endCertificate := by decide +kernel
  rw [encodePem, Pem.toList_encodeBlock, hbegin, hend]
  rw [List.append_assoc beginCertificate.toList]

/-- The first marker begins with a dash, which is no blank. -/
theorem head?_beginCertificate : beginCertificate.toList.head? = some '-' := by decide +kernel

theorem getLast?_endCertificate : endCertificate.toList.getLast? = some '-' := by decide +kernel

/-- Between two markers any text neither begins nor ends with a blank. -/
theorem strip_markers (s blanks : List Char) (hblanks : ∀ c ∈ blanks, Text.isBlank c = true) :
    Text.strip (beginCertificate.toList ++ (s ++ endCertificate.toList) ++ blanks)
      = beginCertificate.toList ++ (s ++ endCertificate.toList) := by
  have hhead : ∀ x ∈ (beginCertificate.toList ++ (s ++ endCertificate.toList)).head?,
      Text.isBlank x = false := by
    rw [List.head?_append, head?_beginCertificate]
    rintro x ⟨⟩
    decide
  have hlast : ∀ x ∈ (beginCertificate.toList ++ (s ++ endCertificate.toList)).getLast?,
      Text.isBlank x = false := by
    rw [← List.append_assoc, List.getLast?_append, getLast?_endCertificate]
    rintro x ⟨⟩
    decide
  have h := Text.strip_append (b := []) (by simp) hblanks hhead hlast
  rwa [List.nil_append] at h

/-- **Between the markers stands the body**, and no further marker. -/
theorem pemBody_encodePem (c : Certificate) :
    pemBody c.encodePem = .ok ('\n' :: Pem.bodyText c.der) := by
  have hdash : '-' ∉ '\n' :: Pem.bodyText c.der := by
    rw [List.mem_cons, not_or]
    exact ⟨by decide, Pem.dash_not_mem_bodyText c.der⟩
  have hmarker : hasMarker ('\n' :: Pem.bodyText c.der) = false := by
    rw [hasMarker, Pem.cutAtDashes_eq_none hdash]
    rfl
  unfold pemBody
  rw [toList_encodePem, strip_markers _ _ (List.forall_mem_singleton.2 rfl)]
  simp only [dropExpected?_append, dropEnding?_append, hmarker]
  rfl

/-- What is between the markers decides what is read. -/
theorem decodePem_of_pemBody {text : String} {body : List Char} {der : Bytes}
    (hbody : pemBody text = .ok body)
    (hder : Text.Base64.decode (Text.Utf8.encode (Text.squeeze body)) = .ok der) :
    decodePem text = ofDer der := by
  unfold decodePem
  simp only [hbody, bind, Except.bind, hder]

/-- **Reading the text of a certificate gives the certificate.** -/
theorem decodePem_encodePem (c : Certificate) : decodePem c.encodePem = .ok c := by
  have hsqueeze : Text.squeeze ('\n' :: Pem.bodyText c.der) = Pem.digits c.der :=
    (Text.squeeze_append ['\n'] _).trans (Pem.squeeze_bodyText c.der)
  have hder := Text.Base64.decode_encode c.der
  rw [← Pem.encode_digits, ← hsqueeze] at hder
  rw [decodePem_of_pemBody (pemBody_encodePem c) hder]
  exact ofDer_der' c

/-- Certificates with the same text have the same bytes. -/
theorem encodePem_inj {a b : Certificate} : a.encodePem = b.encodePem ↔ a.der = b.der := by
  constructor
  · intro h
    have hb := decodePem_encodePem b
    rw [← h, decodePem_encodePem a] at hb
    exact congrArg der (Except.ok.inj hb)
  · intro h
    exact congrArg (Pem.encodeBlock pemLabel) h

/-! ## Agreement -/

/-- **Two certificates that agree in everything that can be asked of them.** All
but the encoding are said of the texts and values that one gets to see, and not
of what they are made of. -/
structure Agree (a b : Certificate) : Prop where
  /-- Their encodings are the same. -/
  der : a.der = b.der
  /-- Their serial numbers are the same. -/
  serialNumber : a.serialNumber = b.serialNumber
  /-- The texts of their subjects' names are the same. -/
  subject : a.subject = b.subject
  /-- The texts of their issuers' names are the same. -/
  issuer : a.issuer = b.issuer
  /-- Their subjects have the same common name, or none. -/
  commonName : a.commonName? = b.commonName?
  /-- They begin to hold at the same instant. -/
  notBefore : a.notBefore = b.notBefore
  /-- They cease to hold at the same instant. -/
  notAfter : a.notAfter = b.notAfter
  /-- Both subjects are authorities, or neither. -/
  isCa : a.isCa = b.isCa
  /-- Their public keys are the same. -/
  publicKey : a.publicKey = b.publicKey
  /-- Their signatures are the same. -/
  signature : a.signature = b.signature
  /-- Their alternative names are the same, in the same order. -/
  san : a.san = b.san

theorem agree_iff_eq {a b : Certificate} : a.Agree b ↔ a = b := by
  constructor
  · intro h
    exact ext_der h.der
  · rintro rfl
    exact ⟨rfl, rfl, rfl, rfl, rfl, rfl, rfl, rfl, rfl, rfl, rfl⟩

/-- **A certificate is its encodings.** Each of them is read as the
certificate again, directly or as an encoded certificate of either form.
And two certificates, wherever they come from, agree in every field exactly
when they have the same bytes, and exactly when they have the same text. -/
theorem decode_eq_self_and_agree_iff (a b : Certificate) :
    (ofDer a.der = .ok a ∧ decodePem a.encodePem = .ok a ∧ ofTransport a.toTransport = .ok a
        ∧ (Encoded.pem a.encodePem).decode = .ok a ∧ (Encoded.der a.der).decode = .ok a)
      ∧ (a = b ↔ a.Agree b) ∧ (a.Agree b ↔ a.der = b.der)
      ∧ (a.der = b.der ↔ a.encodePem = b.encodePem) := by
  refine ⟨⟨ofDer_der' a, decodePem_encodePem a, ofDer_der' a, decodePem_encodePem a,
    ofDer_der' a⟩, agree_iff_eq.symm, ?_, encodePem_inj.symm⟩
  constructor
  · intro h
    exact h.der
  · intro h
    exact agree_iff_eq.2 (ext_der h)

end Certificate

end CertAuthority
