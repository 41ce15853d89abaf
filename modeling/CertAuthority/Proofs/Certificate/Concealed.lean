import CertAuthority.Proofs.Certificate.Built
import CertAuthority.Proofs.Program.Abreast

/-!
# What is said of a certificate without its key

A certificate holds a public key and a signature, which follow from the private
key. What the authority says of a certificate leaves them out: two certificates
that were made for one order, with one serial number and two keys of one
algorithm, are said to be the same (`Plan.alike_of_facts`). So nobody can tell
keys apart who follows how certificates are made with them, up to the length of
what is signed (`Order.agree_fill`).

The length does show. A signature of an elliptic curve is a pair of numbers,
each of which is written without leading zeros, so that two certificates of
one order can differ in length by a byte or two. It is therefore a hypothesis
here that they do not, and it is met where the runs of two hosts are compared.
-/

namespace CertAuthority

open Program (Agree Asks)

/-- **Certificates of which the same is said.** They may differ in their keys
and signatures, but not in their sizes. -/
structure Certificate.Alike (c c' : Certificate) : Prop where
  /-- They have the same serial number. -/
  serialNumber : c.serialNumber = c'.serialNumber
  /-- The subject has the same name. -/
  subject : c.subject = c'.subject
  /-- So has the issuer. -/
  issuer : c.issuer = c'.issuer
  /-- They hold in the same window. -/
  validity : c.validity = c'.validity
  /-- Both make the subject an authority, or neither does. -/
  isCa : c.isCa = c'.isCa
  /-- The subject has the same alternative names. -/
  san : c.san = c'.san
  /-- They are equally long. -/
  size : c.der.length = c'.der.length

/-- **Certificates of one length that were signed**, or none at all. -/
inductive Certificate.SameSize : Option Bytes → Option Bytes → Prop where
  /-- Neither was signed. -/
  | none : SameSize none none
  /-- Both were, and are equally long. -/
  | some {c c' : Certificate} (h : c.der.length = c'.der.length) :
    SameSize (some c.der) (some c'.der)

/-- **What one plan says with two keys is said to be the same.** -/
theorem Plan.alike_of_facts {p : Plan} {algorithm : Key.Algorithm}
    {publicKey publicKey' signature signature' : Bytes} {c c' : Certificate}
    (hsize : c.der.length = c'.der.length)
    (hc : c.facts = p.facts algorithm publicKey signature)
    (hc' : c'.facts = p.facts algorithm publicKey' signature') : c.Alike c' := by
  have hnames : c.subjectName = c'.subjectName ∧ c.issuerName = c'.issuerName := by
    unfold Certificate.subjectName Certificate.issuerName
    rw [hc, hc']
    exact ⟨rfl, rfl⟩
  refine ⟨?_, congrArg Name.text hnames.1, congrArg Name.text hnames.2, ?_, ?_, ?_, hsize⟩
  · unfold Certificate.serialNumber
    rw [hc, hc']
    rfl
  · unfold Certificate.validity
    rw [hc, hc']
    rfl
  · unfold Certificate.isCa
    rw [hc, hc']
    rfl
  · unfold Certificate.san
    rw [hc, hc']
    rfl

/-- What a certificate says that a key has signed. -/
theorem Plan.facts_of_sign? {p : Plan} (hp : p.IsWritable) {k : KeyPair} {c : Certificate}
    (h : p.sign? k = some c.der) :
    ∃ signature, c.facts = p.facts k.algorithm k.publicKey signature := by
  obtain ⟨signature, -, hder⟩ := Option.map_eq_some_iff.1 h
  refine ⟨signature, Plan.facts_of_ofDer hp ?_⟩
  rw [hder]
  exact c.ofDer_der

namespace Order

variable {o : Order} {k k' : KeyPair} {h h' : Host}

/-- A certificate is noted and returned. -/
theorem agree_built (hh : h.Alike h') {c c' : Certificate} (hc : c.Alike c') :
    Agree (Matches Certificate.Alike) Host.Alike
      (do
        let c ← Action.parsed (Certificate.ofDer c.der)
        Action.note (.certificateBuilt c.subject c.serialNumber c.isCa c.notAfter)
        return c : Action Certificate).run
      (do
        let c ← Action.parsed (Certificate.ofDer c'.der)
        Action.note (.certificateBuilt c.subject c.serialNumber c.isCa c.notAfter)
        return c : Action Certificate).run h h' := by
  have hnote : ∀ {g g' : Host}, g.Alike g' → ∀ e, Agree (Matches Eq) Host.Alike
      (Action.note e).run (Action.note e).run g g' := fun hg e =>
    Program.IsBlind.matches (Program.asks_note rfl) hg
  have hparsed : Agree (Matches fun a a' => a = c ∧ a' = c') Host.Alike
      (Action.parsed (Certificate.ofDer c.der)).run (Action.parsed (Certificate.ofDer c'.der)).run
      h h' := by
    rw [c.ofDer_der', c'.ofDer_der']
    show Agree _ _ (Action.noteParsed c >>= fun _ => pure c : Action Certificate).run
      (Action.noteParsed c' >>= fun _ => pure c' : Action Certificate).run h h'
    unfold Action.noteParsed
    rw [hc.serialNumber, hc.subject]
    exact (hnote hh _).run_bind (fun _ _ g g' _ hg => ⟨.ok ⟨rfl, rfl⟩, hg⟩) fun _ _ hg => hg
  refine hparsed.run_bind (fun a a' g g' ha hg => ?_) fun _ _ hg => hg
  obtain ⟨rfl, rfl⟩ := ha
  have hafter : a.notAfter = a'.notAfter := congrArg Validity.notAfter hc.validity
  rw [hc.serialNumber, hc.subject, hc.isCa, hafter]
  exact (hnote hg _).run_bind (fun _ _ g g' _ hg => ⟨.ok hc, hg⟩) fun _ _ hg => hg

/-- **How a certificate is signed does not tell the key.** -/
theorem agree_certify (hh : h.Alike h') (hdates : o.beginDate.Valid ∧ o.endDate.Valid)
    (halgorithm : k.algorithm = k'.algorithm) {serialNumber : SerialNumber}
    (hserial : serialOfEntropy (h.entropy h.draws serialSize) = serialNumber)
    (hserial' : serialOfEntropy (h'.entropy h'.draws serialSize) = serialNumber)
    (hsigned : o.checkWritable = .ok () → Certificate.SameSize ((o.plan serialNumber).sign? k)
      ((o.plan serialNumber).sign? k')) :
    Agree (Matches Certificate.Alike) Host.Alike (o.certify k).run (o.certify k').run h h' := by
  have hrandom : Agree
      (fun e e' => serialOfEntropy e = serialNumber ∧ serialOfEntropy e' = serialNumber) Host.Alike
      (Program.request (.random serialSize)) (Program.request (.random serialSize)) h h' :=
    ⟨⟨hserial, hserial'⟩, { hh with tree := hh.tree }⟩
  unfold certify
  refine hrandom.run_lift.run_bind (fun e e' g g' he hg => ?_) fun _ _ hg => hg
  rw [he.1, he.2]
  cases hwritable : o.checkWritable with
  | error error => exact ⟨.error error, hg⟩
  | ok u =>
    obtain ⟨hbegin, hend⟩ := years_of_checkWritable hwritable
    have hp : (o.plan serialNumber).IsWritable := ⟨hdates.1, hbegin, hdates.2, hend⟩
    generalize hsign : (o.plan serialNumber).sign? k = signed at hsigned
    generalize hsign' : (o.plan serialNumber).sign? k' = signed' at hsigned
    cases hsigned hwritable with
    | none => exact ⟨.error (Error.encoding .notSigned), hg⟩
    | some hsize =>
      obtain ⟨signature, hfacts⟩ := Plan.facts_of_sign? hp hsign
      obtain ⟨signature', hfacts'⟩ := Plan.facts_of_sign? hp hsign'
      rw [← halgorithm] at hfacts'
      exact agree_built hg (Plan.alike_of_facts hsize hfacts hfacts')

/-- **How a certificate is made does not tell the key.** -/
theorem agree_fill (hh : h.Alike h') (hdates : o.beginDate.Valid ∧ o.endDate.Valid)
    (halgorithm : k.algorithm = k'.algorithm) (hkey : o.supply = .pair k)
    {serialNumber : SerialNumber}
    (hserial : serialOfEntropy (h.entropy h.draws serialSize) = serialNumber)
    (hserial' : serialOfEntropy (h'.entropy h'.draws serialSize) = serialNumber)
    (hsigned : o.check = .ok () → o.checkWritable = .ok () →
      Certificate.SameSize ((o.plan serialNumber).sign? k) ((o.plan serialNumber).sign? k')) :
    Agree (Matches Certificate.Alike) Host.Alike o.fill.run
      (Order.fill { o with supply := .pair k' }).run h h' := by
  have hobtained : ∀ {o : Order} {k : KeyPair}, o.supply = .pair k →
      o.key = (Action.ofExcept (o.checkKey k) >>= fun _ => pure k) := by
    intro o k hk
    unfold key
    rw [hk]
    rfl
  unfold fill
  rw [hobtained hkey, hobtained (show Order.supply { o with supply := .pair k' } = .pair k' from rfl)]
  have hcheckKey : Order.checkKey { o with supply := .pair k' } k' = o.checkKey k := by
    unfold checkKey
    rw [halgorithm]
  rw [hcheckKey, show Order.check { o with supply := .pair k' } = o.check from rfl]
  cases hcheck : o.check with
  | error e => exact ⟨.error e, hh⟩
  | ok u =>
    cases o.checkKey k with
    | error e => exact ⟨.error e, hh⟩
    | ok u => exact agree_certify hh hdates halgorithm hserial hserial' (hsigned hcheck)

end Order

end CertAuthority
