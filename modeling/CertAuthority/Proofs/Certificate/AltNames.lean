import CertAuthority.Proofs.Certificate.Built

/-!
# Alternative names come back

The alternative names of a draft are the only values that add up, so that a
draft is told from the draft of the other calls by its list of names alone
(`Draft.ofCalls_filter_isNone`), and if nothing speaks against the latter,
nothing but names speaks against the former (`Draft.faults_eq_filterMap`). A
name is written as a general name and read as one, whatever its length, and
the certificate that is built has the list of names that was given
(`Order.Built.san`). The headline `Draft.altNames_of_build` puts this together
with the one thing that can go wrong with a name, a character outside of the
basic alphabet.

The names come back as a list, in their order and with what occurs twice in
it, for the extension is a sequence and not a set. No name is looked at for
what it says: an empty host name is one, and so is an address of version 6
that stands for one of version 4. What comes out is what went in, since a
certificate is compared with what was asked for and not with what it might
mean.
-/

namespace CertAuthority

/-- **The alternative names of a certificate are those of its order**, one
for one. -/
theorem Order.Built.san {o : Order} {h : Host} {k : KeyPair} {c : Certificate}
    (hbuilt : o.Built h k c) : c.san = o.san := by
  obtain ⟨signature, hfacts⟩ := hbuilt.facts
  unfold Certificate.san
  rw [hfacts]
  rfl

/-- If nothing speaks against an order without its alternative names, nothing
but those speaks against the order. -/
theorem Order.faults_eq_filterMap {o : Order} {key : Except Error KeyPair}
    (h : IsAcceptable { o with san := [] } key) : o.faults key = o.san.filterMap nameFault? := by
  have hblank : o.blankFaults = [] := o.blankFaults_eq_nil_iff.2 h.texts
  have hwindow : o.windowFaults = [] := o.windowFaults_eq_nil_iff.2 ⟨h.before, h.days⟩
  have hkey : o.keyFaults key = [] := o.keyFaults_eq_nil_iff.2 h.key
  have hdates : o.dateFaults = [] := o.dateFaults_eq_nil_iff.2 ⟨h.begin_year, h.end_year⟩
  unfold faults
  rw [hblank, hwindow, hkey, hdates]
  rfl

namespace Draft

/-- **Calls that give no alternative name** make the same draft, but for the
names. -/
theorem ofCalls_filter_isNone (calls : List Call) :
    ofCalls (calls.filter fun c => c.altName?.isNone) = { ofCalls calls with san := [] } := by
  have hfold : ∀ d : Draft, (calls.filter fun c => c.altName?.isNone).foldl Call.apply
      { d with san := [] } = { calls.foldl Call.apply d with san := [] } := by
    induction calls with
    | nil => exact fun d => rfl
    | cons c calls ih =>
      intro d
      cases hname : c.altName? with
      | none =>
        have hstep : Call.apply { d with san := [] } c = { Call.apply d c with san := [] } := by
          cases c <;> first | rfl | cases hname
        rw [List.filter_cons_of_pos (by rw [hname]; rfl), List.foldl_cons,
          List.foldl_cons, hstep]
        exact ih (Call.apply d c)
      | some name =>
        have hstep : { d with san := [] } = { Call.apply d c with san := [] } := by
          cases c <;> first | rfl | cases hname
        rw [List.filter_cons_of_neg (by rw [hname]; exact Bool.false_ne_true), List.foldl_cons, hstep]
        exact ih (Call.apply d c)
  exact hfold empty

variable {d : Draft} {h : Host}

/-- If nothing speaks against a draft without its alternative names, nothing
but those speaks against the draft. -/
theorem faults_eq_filterMap (hd : IsAcceptable { d with san := [] } h) :
    d.faults h = d.san.filterMap Order.nameFault? := by
  obtain ⟨o, ho, hacceptable⟩ := hd
  have hnameless : { d with san := [] } = o.toDraft := order?_eq_some_iff.1 ho
  have hdraft : d = Order.toDraft { o with san := d.san } :=
    congrArg (fun d' : Draft => { d' with san := d.san }) hnameless
  have ho' : d.order? = some { o with san := d.san } := order?_eq_some_iff.2 hdraft
  -- the names of the order that nothing speaks against are none
  have hsan : o.san = [] := (congrArg Draft.san hnameless).symm
  have hacceptable' : Order.IsAcceptable { o with san := [] } (o.supply.obtain.runOn h).1 := by
    rw [← hsan]
    exact hacceptable
  unfold faults
  rw [if_pos (order?_eq_some ho').2.2, ho', List.nil_append]
  exact Order.faults_eq_filterMap hacceptable'

/-- The names in some calls are of the basic alphabet if nothing speaks
against them. -/
theorem filterMap_nameFault?_eq_nil {calls : List Call}
    (hnames : ∀ name, Call.altName (.dns name) ∈ calls → ∀ x ∈ name.toList, x.toNat < 128) :
    (calls.filterMap Call.altName?).filterMap Order.nameFault? = [] := by
  rw [List.filterMap_eq_nil_iff]
  intro n hn
  obtain ⟨c, hc, hname⟩ := List.mem_filterMap.1 hn
  cases c with
  | altName n' =>
    obtain rfl := Option.some.inj hname
    cases n' with
    | ip address => rfl
    | dns name =>
      exact if_pos (List.all_eq_true.2 fun x hx => decide_eq_true (hnames name hc x hx))
  | _ => cases hname

/-- **Alternative names come back unchanged.** Let nothing speak against what
some calls ask for but for the alternative names that they give. Then a
certificate that is built has just these names, in the order of the calls. It
is built if all host names are of the basic alphabet and the key signs;
otherwise the error is about the first host name that is not. -/
theorem altNames_of_build {calls : List Call} {h : Host}
    (hdates : ∀ date, .beginDate date ∈ calls ∨ .endDate date ∈ calls →
      date.Valid ∧ 0 ≤ date.year)
    (hvalid : (ofCalls (calls.filter fun c => c.altName?.isNone)).IsAcceptable h) :
    (∀ c, ((ofCalls calls).build.runOn h).1 = .ok c → c.san = calls.filterMap Call.altName?) ∧
      ((∀ name, Call.altName (.dns name) ∈ calls → ∀ x ∈ name.toList, x.toNat < 128) →
        (∀ o k, (ofCalls calls).order? = some o → (o.supply.obtain.runOn h).1 = .ok k →
          o.Signs k) →
        ∃ c, ((ofCalls calls).build.runOn h).1 = .ok c ∧ c.san = calls.filterMap Call.altName?) ∧
      ∀ before name after, calls = before ++ .altName (.dns name) :: after →
        (∀ earlier, Call.altName (.dns earlier) ∈ before → ∀ x ∈ earlier.toList, x.toNat < 128) →
        (¬ ∀ x ∈ name.toList, x.toNat < 128) →
        ((ofCalls calls).build.runOn h).1 = .error (.configuration (.dnsName name)) := by
  have hgiven : (ofCalls calls).san = calls.filterMap Call.altName? := by rw [ofCalls_eq]
  have hvalidDates : ∀ date, (ofCalls calls).beginDate = some date
      ∨ (ofCalls calls).endDate = some date → date.Valid := by
    rintro date (hdate | hdate)
    · exact (hdates date (Or.inl (mem_of_beginDate hdate))).1
    · exact (hdates date (Or.inr (mem_of_endDate hdate))).1
  have hsan : ∀ c, ((ofCalls calls).build.runOn h).1 = .ok c →
      c.san = calls.filterMap Call.altName? := by
    intro c hbuild
    obtain ⟨o, k, ho, hbuilt⟩ := built_of_build hvalidDates hbuild
    rw [hbuilt.san, ← hgiven, ho]
    rfl
  -- nothing but the names can speak against the draft
  rw [ofCalls_filter_isNone] at hvalid
  have hfaults := faults_eq_filterMap hvalid
  rw [hgiven] at hfaults
  refine ⟨hsan, fun hnames hsigns => ?_, fun before name after hcalls hbefore hname => ?_⟩
  · have hnone := hfaults.trans (filterMap_nameFault?_eq_nil hnames)
    obtain ⟨c, hc⟩ := (build_ofCalls hdates hsigns).2.2.2.1.2 (faults_eq_nil_iff.1 hnone)
    exact ⟨c, hc, hsan c hc⟩
  · have hfirst : Order.nameFault? (.dns name) = some (.configuration (.dnsName name)) :=
      if_neg fun hall => hname fun x hx => of_decide_eq_true (List.all_eq_true.1 hall x hx)
    have hsplit : (calls.filterMap Call.altName?).filterMap Order.nameFault?
        = .configuration (.dnsName name)
          :: (after.filterMap Call.altName?).filterMap Order.nameFault? := by
      rw [hcalls, List.filterMap_append, List.filterMap_append,
        filterMap_nameFault?_eq_nil hbefore, List.nil_append,
        List.filterMap_cons_some (show Call.altName? (.altName (.dns name)) = _ from rfl),
        List.filterMap_cons_some hfirst]
    have hends := ends_build (fun o ho => hasDates_ofCalls hdates ho) h
    rw [hfaults, hsplit] at hends
    exact hends

/-- Calls that give more names: an address of version 4 in the notation of
version 6, an empty host name, an address of version 4, and a host name for
the second time. -/
def namesCalls : List Call :=
  yearCalls ++ [.altName (.ip (.v6 [0, 0, 0, 0, 0, 0xffff, 0x0a00, 1] rfl)), .altName (.dns ""),
    .altName (.ip (.v4 10 0 0 1)), .altName (.dns "scm.local")]

/-- The names that these calls give. -/
def givenNames : List AltName :=
  [.dns "scm.local", .ip (.v6 [0, 0, 0, 0, 0, 0xffff, 0x0a00, 1] rfl), .dns "",
    .ip (.v4 10 0 0 1), .dns "scm.local"]

/-- The order of these calls. -/
def namesOrder : Order := { yearOrder (.generator .ed25519) with san := givenNames }

/-- A key of the algorithm signs it: with these names the certificate is short
enough. -/
theorem signs_namesOrder {k : KeyPair} (halgorithm : k.algorithm = .ed25519)
    (hlength : k.publicKey.length = 32) : namesOrder.Signs k := by
  have hdates := hasDates_yearOrder (.generator .ed25519)
  have hacceptable := isAcceptable_yearOrder (.generator .ed25519) halgorithm
  have hsize : ∀ serialNumber : SerialNumber, serialNumber.bytes.length ≤ 8 →
      (namesOrder.plan serialNumber).HasSize 64 := by
    intro serialNumber hserial
    have hyear := hasSize_yearOrder (.generator .ed25519) serialNumber hserial
    have hsan : (givenNames.map Plan.generalName).flatten.length ≤ 64 := by decide +kernel
    exact ⟨hyear.subject, hyear.clusterId, hyear.scmId, hsan, hyear.serialNumber⟩
  exact Order.signs_of_ed25519 ⟨hdates.begin_valid, hdates.begin_year, hdates.end_valid,
    hdates.end_year⟩ (namesOrder.dateFaults_eq_nil_iff.2 ⟨hacceptable.begin_year,
      hacceptable.end_year⟩) halgorithm (hlength.trans_le (by decide)) hsize (by decide)

/-- Whether a name is of the basic alphabet can be computed. -/
theorem ascii_of_all {s : String} (h : s.toList.all (fun x => decide (x.toNat < 128)) = true) :
    ∀ x ∈ s.toList, x.toNat < 128 :=
  fun x hx => of_decide_eq_true (List.all_eq_true.1 h x hx)

/-- **All the names come back**, and one more with an accent is refused. -/
theorem altNames_namesCalls :
    (∃ c, ((ofCalls namesCalls).build.runOn bareHost).1 = .ok c ∧ c.san = givenNames) ∧
      ((ofCalls (namesCalls ++ [.altName (.dns "é"), .altName (.dns "ü")])).build.runOn
        bareHost).1 = .error (.configuration (.dnsName "é")) := by
  obtain ⟨k, hk, halgorithm, hlength⟩ := Key.Supply.obtain_ed25519 bareHost
  have hacceptable := isAcceptable_yearOrder (.generator .ed25519) halgorithm
  rw [← hk] at hacceptable
  have hnames : ∀ name, Call.altName (.dns name) ∈ namesCalls → ∀ x ∈ name.toList, x.toNat < 128 := by
    intro name hmem
    have hname : name = "scm.local" ∨ name = "" ∨ name = "scm.local" := by
      simpa [namesCalls, yearCalls] using hmem
    rcases hname with rfl | rfl | rfl
    · exact ascii_of_all (by decide +kernel)
    · exact ascii_of_all (by decide +kernel)
    · exact ascii_of_all (by decide +kernel)
  have hnameless : Order.IsAcceptable { yearOrder (.generator .ed25519) with san := [] }
      ((Key.Supply.generator .ed25519).obtain.runOn bareHost).1 :=
    ⟨hacceptable.texts, hacceptable.before, hacceptable.days, hacceptable.key,
      hacceptable.begin_year, hacceptable.end_year, by simp⟩
  refine ⟨?_, ?_⟩
  · have hdates : ∀ date, .beginDate date ∈ namesCalls ∨ .endDate date ∈ namesCalls →
        date.Valid ∧ 0 ≤ date.year := by
      intro date hdate
      exact dates_yearCalls date (by simpa [namesCalls] using hdate)
    refine (altNames_of_build hdates ⟨_, rfl, hnameless⟩).2.1 hnames ?_
    intro o k' ho hk'
    obtain rfl : namesOrder = o := Option.some.inj ho
    obtain rfl : k = k' := Except.ok.inj (hk.symm.trans hk')
    exact signs_namesOrder halgorithm hlength
  · have hdates : ∀ date,
        .beginDate date ∈ namesCalls ++ [Call.altName (.dns "é"), .altName (.dns "ü")]
          ∨ .endDate date ∈ namesCalls ++ [Call.altName (.dns "é"), .altName (.dns "ü")] →
        date.Valid ∧ 0 ≤ date.year := by
      intro date hdate
      exact dates_yearCalls date (by simpa [namesCalls] using hdate)
    refine (altNames_of_build hdates ⟨_, rfl, hnameless⟩).2.2 namesCalls "é" [.altName (.dns "ü")] rfl
      hnames fun hall => ?_
    exact absurd (hall 'é' (by decide +kernel)) (by decide)

end Draft

end CertAuthority
