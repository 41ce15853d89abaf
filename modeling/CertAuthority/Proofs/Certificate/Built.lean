import CertAuthority.Proofs.Certificate.Draft

/-!
# What a certificate that was built says

A draft from which a certificate is built has all it needs, so that it is the
draft of an order (`Draft.order?_eq_some_iff`). Going back from the
certificate through the steps that made it, every check has been passed, the
key was obtained, random bytes were drawn and the key signed the statement
that they complete (`Draft.built_of_build`).

What is in the certificate is known from the fact that it was read back: no
more has to be asked of texts and keys than that a certificate came of them.
Encodings too long for a length are among those that do not come to one
(`Der.isSized_of_readInside?`).

This direction has no hypothesis about keys. Going forward, one has to assume
that the key signs and that the result is short enough, whereas here a
certificate is given and either has been the case. What a certificate names,
for how long it holds and whether it passes the check of its own signature is
all told from `Order.Built`, and none of those modules opens the steps again.
-/

namespace CertAuthority

namespace Order

/-- **The random bytes that the serial number is made of**: those that are
drawn after the key was obtained. -/
def drawn (o : Order) (h : Host) : Bytes :=
  let h' := (o.supply.obtain.runOn h).2
  h'.entropy h'.draws serialSize

/-- **How a certificate was built** for an order, on a host, with a key. -/
structure Built (o : Order) (h : Host) (k : KeyPair) (c : Certificate) : Prop where
  /-- The values and the window were checked. -/
  checked : o.check = .ok ()
  /-- The key was obtained. -/
  obtained : (o.supply.obtain.runOn h).1 = .ok k
  /-- It was checked. -/
  keyChecked : o.checkKey k = .ok ()
  /-- So were the dates and the names. -/
  writable : o.checkWritable = .ok ()
  /-- The key signed a statement, and the certificate says what the statement
  says. -/
  signed : ∃ signature,
    k.sign? ((o.plan (serialOfEntropy (o.drawn h))).statement k.algorithm k.publicKey)
        = some signature
      ∧ c.facts = (o.plan (serialOfEntropy (o.drawn h))).facts k.algorithm k.publicKey signature

/-- What a certificate that was built says. -/
theorem Built.facts {o : Order} {h : Host} {k : KeyPair} {c : Certificate} (hbuilt : o.Built h k c) :
    ∃ signature, c.facts
      = (o.plan (serialOfEntropy (o.drawn h))).facts k.algorithm k.publicKey signature := by
  obtain ⟨signature, -, hfacts⟩ := hbuilt.signed
  exact ⟨signature, hfacts⟩

end Order

/-! ## Reading back

The certificate is what came of reading the signed bytes. Two things are known
of those: what they were written from, and that they could be read. Together
they say what was read, and neither says so alone, as writing does not check
that lengths fit. -/

namespace Plan

open Der

/-- **A certificate that is read back at all says what the plan says.** -/
theorem facts_of_ofDer {p : Plan} (hp : p.IsWritable) {algorithm : Key.Algorithm}
    {publicKey signature : Bytes} {facts : Facts}
    (h : Facts.ofDer (signed (p.statement algorithm publicKey) algorithm signature) = .ok facts) :
    facts = p.facts algorithm publicKey signature := by
  -- the outermost element was read, so its content is not too long for a length
  have hsized : IsSized
      (signedParts (p.statement algorithm publicKey) algorithm signature).flatten := by
    unfold Facts.ofDer at h
    split at h
    · exact absurd h (by simp)
    · rename_i contents rest hread
      split_ifs at h with hrest
      rw [not_not.1 hrest] at hread
      exact isSized_of_readInside? (show Mark.sequence.toNat % 32 ≠ 31 by decide) hread
  rw [ofDer_signed hp hsized] at h
  exact (Except.ok.inj h).symm

end Plan

namespace Order

variable {o : Order} {h : Host} {k : KeyPair} {c : Certificate}

/-- Dates that pass the check have years of four digits. -/
theorem years_of_checkWritable (hwritable : o.checkWritable = .ok ()) :
    (0 ≤ o.beginDate.year ∧ o.beginDate.year ≤ 9999)
      ∧ 0 ≤ o.endDate.year ∧ o.endDate.year ≤ 9999 := by
  have hdate : ∀ {date : Calendar.Date} {r : Except Error Unit},
      (checkDate date >>= fun _ => r) = .ok () → (0 ≤ date.year ∧ date.year ≤ 9999) ∧ r = .ok () := by
    intro date r hr
    unfold checkDate at hr
    split_ifs at hr with hyear
    · exact ⟨hyear, hr⟩
    · exact absurd hr (by simp [bind, Except.bind])
  obtain ⟨hbegin, hrest⟩ := hdate hwritable
  exact ⟨hbegin, (hdate hrest).1⟩

/-- What is checked of a key leaves the key and the host as they are. -/
theorem key_eq_ok (hkey : (o.key.runOn h).1 = .ok k) :
    (o.supply.obtain.runOn h).1 = .ok k ∧ o.checkKey k = .ok ()
      ∧ (o.key.runOn h).2 = (o.supply.obtain.runOn h).2 := by
  unfold key at hkey ⊢
  obtain ⟨k', hobtain, hkey⟩ := Action.runOn_bind_eq_ok_iff.1 hkey
  obtain ⟨⟨⟩, hcheck, hkey⟩ := Action.runOn_bind_eq_ok_iff.1 hkey
  obtain rfl : k' = k := Except.ok.inj hkey
  refine ⟨hobtain, hcheck, ?_⟩
  rw [Action.runOn_bind_of_ok hobtain, Action.runOn_bind_of_ok hcheck]
  rfl

/-- The certificate is what the key signed, read back. -/
theorem certify_eq_ok (hcertify : ((o.certify k).runOn h).1 = .ok c) :
    o.checkWritable = .ok () ∧ ∃ der,
      (o.plan (serialOfEntropy (h.entropy h.draws serialSize))).sign? k = some der
        ∧ Certificate.ofDer der = .ok c := by
  unfold certify at hcertify
  obtain ⟨entropy, hdraw, hcertify⟩ := Action.runOn_bind_eq_ok_iff.1 hcertify
  obtain rfl : h.entropy h.draws serialSize = entropy := Except.ok.inj hdraw
  obtain ⟨⟨⟩, hwritable, hcertify⟩ := Action.runOn_bind_eq_ok_iff.1 hcertify
  refine ⟨hwritable, ?_⟩
  split at hcertify
  · change Except.error (Error.encoding .notSigned) = .ok c at hcertify
    exact absurd hcertify (by simp)
  · rename_i der hder
    obtain ⟨c', hparsed, hcertify⟩ := Action.runOn_bind_eq_ok_iff.1 hcertify
    obtain ⟨⟨⟩, -, hcertify⟩ := Action.runOn_bind_eq_ok_iff.1 hcertify
    obtain rfl : c' = c := Except.ok.inj hcertify
    unfold Action.parsed at hparsed
    obtain ⟨c'', hread, hparsed⟩ := Action.runOn_bind_eq_ok_iff.1 hparsed
    obtain ⟨⟨⟩, -, hparsed⟩ := Action.runOn_bind_eq_ok_iff.1 hparsed
    obtain rfl : c'' = c' := Except.ok.inj hparsed
    exact ⟨der, hder, hread⟩

/-- **The steps that made a certificate.** -/
theorem built_of_fill (hdates : o.beginDate.Valid ∧ o.endDate.Valid)
    (hfill : (o.fill.runOn h).1 = .ok c) : ∃ k, o.Built h k c := by
  unfold fill at hfill
  obtain ⟨⟨⟩, hcheck, hfill⟩ := Action.runOn_bind_eq_ok_iff.1 hfill
  change ((o.key >>= fun key => o.certify key).runOn h).1 = .ok c at hfill
  obtain ⟨k, hkey, hfill⟩ := Action.runOn_bind_eq_ok_iff.1 hfill
  obtain ⟨hobtain, hkeyChecked, hhost⟩ := key_eq_ok hkey
  obtain ⟨hwritable, der, hder, hread⟩ := certify_eq_ok hfill
  have hdrawn : (o.key.runOn h).2.entropy (o.key.runOn h).2.draws serialSize = o.drawn h := by
    rw [hhost]
    rfl
  rw [hdrawn] at hder
  obtain ⟨signature, hsignature, rfl⟩ := Option.map_eq_some_iff.1 hder
  obtain ⟨hbegin, hend⟩ := years_of_checkWritable hwritable
  have hp : (o.plan (serialOfEntropy (o.drawn h))).IsWritable :=
    ⟨hdates.1, hbegin, hdates.2, hend⟩
  -- a certificate keeps the bytes that it was read from, and what they say
  have hfacts := c.ofDer_der
  rw [Certificate.ofDer_eq_ok_iff.1 hread] at hfacts
  exact ⟨k, hcheck, hobtain, hkeyChecked, hwritable, signature, hsignature,
    Plan.facts_of_ofDer hp hfacts⟩

end Order

/-- **A certificate that was built was built for an order**, in steps all of
which succeeded. -/
theorem Draft.built_of_build {d : Draft} {h : Host} {c : Certificate}
    (hdates : ∀ date, d.beginDate = some date ∨ d.endDate = some date → date.Valid)
    (hbuild : (d.build.runOn h).1 = .ok c) :
    ∃ (o : Order) (k : KeyPair), d = o.toDraft ∧ o.Built h k c := by
  unfold build at hbuild
  obtain ⟨o, horder, hfill⟩ := Action.runOn_bind_eq_ok_iff.1 hbuild
  have ho : d.order? = some o := by
    change d.order = .ok o at horder
    unfold order at horder
    split at horder
    · rename_i o' ho'
      rw [ho', Except.ok.inj horder]
    · exact absurd horder (by simp)
  obtain rfl := order?_eq_some_iff.1 ho
  obtain ⟨k, hbuilt⟩ := Order.built_of_fill ⟨hdates _ (Or.inl rfl), hdates _ (Or.inr rfl)⟩ hfill
  exact ⟨o, k, rfl, hbuilt⟩

/-- The dates of a year's order are days of the calendar. -/
theorem Draft.dates_yearOrder (supply : Key.Supply) (date : Calendar.Date)
    (h : (yearOrder supply).toDraft.beginDate = some date
      ∨ (yearOrder supply).toDraft.endDate = some date) : date.Valid ∧ 0 ≤ date.year := by
  have hdates := hasDates_yearOrder supply
  rcases h with h | h
  · exact Option.some.inj h ▸ ⟨hdates.begin_valid, hdates.begin_year⟩
  · exact Option.some.inj h ▸ ⟨hdates.end_valid, hdates.end_year⟩

/-- **The certificate of a year's order is built** on a host with nothing on
it, with a key made for the purpose. -/
theorem Draft.exists_build_yearOrder :
    ∃ c, ((yearOrder (.generator .ed25519)).toDraft.build.runOn bareHost).1 = .ok c := by
  obtain ⟨k, hk, halgorithm, hlength⟩ := Key.Supply.obtain_ed25519 bareHost
  exact ends_build_yearOrder (.generator .ed25519) rfl hk halgorithm hlength

end CertAuthority
