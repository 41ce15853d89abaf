import CertAuthority.Proofs.Certificate.Built
import CertAuthority.Proofs.Program.Count

/-!
# When a source is asked for a key

A key that comes from a source is made for one certificate, and it is made in
vain if there is none. Building asks a source once, if at all
(`Draft.sourceCalls_of_source`), namely when everything is there, no value is
blank and the window is one that the configuration allows.

That is not when all parameters but the key are sound. Whether dates and host
names can be written down is looked at after the key was obtained, so that a
draft with a date of more than four digits or a host name outside ASCII has a
key made for a certificate that cannot be built (`Draft.AsksInVain`). These
are the only drafts of the kind.

Whether a source was asked shows in the requests of a run, and so they are
counted (`Program.countOn`). A source may be a generator, which asks for
random bytes, or one from outside, which is asked for the key. Random bytes
are drawn for the serial number as well, and in the count the two are told
apart by how many are asked for. Soundness is said without reference to a run,
by what the checks have to say of each parameter (`Order.IsSound`), and with
every key of the configured algorithm, since there is none yet when it is to
be decided whether one is to be asked for.
-/

namespace CertAuthority

/-! ## Calls to a source -/

namespace Key.Supply

/-- **Whether a key comes from a source**, which is asked for it. A key that is
handed in is there already. -/
def IsSource : Supply → Prop
  | pair _ => False
  | generator _ | outside => True

/-- **The request that asks a source for a key**: for its random bytes, where
it is made of these, or for the key itself. -/
def isCall : Supply → Request → Bool
  | generator _, .random count => count == KeyPair.entropySize
  | outside, .externalKey => true
  | _, _ => false

/-- **A source is asked once for a key.** -/
theorem countOn_obtain {s : Supply} (hs : s.IsSource) (h : Host) :
    s.obtain.run.countOn s.isCall h = 1 := by
  match s, hs with
  | outside, _ => rfl
  | generator algorithm, _ =>
    have hgenerate : (KeyPair.generate algorithm).run.countOn (isCall (generator algorithm)) h
        = 1 := by
      unfold KeyPair.generate
      have hrandom : (liftM (Program.request (.random KeyPair.entropySize)) : Action Bytes).run.countOn
          (isCall (generator algorithm)) h = 1 := rfl
      rw [Program.countOn_run_bind_of_asks, hrandom]
      intro entropy
      split
      · trivial
      · trivial
    have hnote : (Action.note (.keyGenerated algorithm)).run.Asks
        fun r => isCall (generator algorithm) r = false := Program.asks_note rfl
    unfold obtain
    rw [Program.countOn_run_bind_of_asks, hgenerate]
    exact fun k => hnote.run_bind fun _ => trivial

end Key.Supply

namespace Order

/-- Certifying asks no source: the bytes of a serial number are fewer than
those of a key. -/
theorem asks_certify (o : Order) (k : KeyPair) (s : Key.Supply) :
    (o.certify k).run.Asks fun r => s.isCall r = false := by
  have hnote : ∀ e, (Action.note e).run.Asks fun r => s.isCall r = false := by
    intro e
    refine Program.asks_note ?_
    cases s <;> rfl
  -- random bytes are drawn for two purposes, which their number tells apart
  have hrandom : s.isCall (.random serialSize) = false := by
    cases s <;> rfl
  unfold certify
  refine (Program.Asks.run_lift (Program.asks_request hrandom)).run_bind fun entropy => ?_
  refine Program.Asks.run_bind trivial fun _ => ?_
  split
  · trivial
  · rename_i der hder
    have hparsed : (Action.parsed (Certificate.ofDer der)).run.Asks fun r => s.isCall r = false :=
      Program.Asks.run_bind trivial fun c => (hnote _).run_bind fun _ => trivial
    exact hparsed.run_bind fun c => (hnote _).run_bind fun _ => trivial

/-- **An order asks its source once if it passes the first checks**, and not
at all otherwise. -/
theorem countOn_fill {o : Order} (hs : o.supply.IsSource) (h : Host) :
    o.fill.run.countOn o.supply.isCall h = if o.check = .ok () then 1 else 0 := by
  unfold fill
  match hcheck : o.check with
  | .error e =>
    have hfail : ((Action.ofExcept (.error e : Except Error Unit)).runOn h).1 = .error e := rfl
    rw [Program.countOn_run_bind_of_error hfail]
    rfl
  | .ok () =>
    have hpass : ((Action.ofExcept (.ok () : Except Error Unit)).runOn h).1 = .ok () := rfl
    have hkey : o.key.run.countOn o.supply.isCall h = 1 := by
      unfold key
      rw [Program.countOn_run_bind_of_asks, Key.Supply.countOn_obtain hs]
      exact fun k => Program.Asks.run_bind trivial fun _ => trivial
    rw [Program.countOn_run_bind_of_ok hpass, if_pos rfl]
    show 0 + (o.key >>= fun key => o.certify key).run.countOn o.supply.isCall h = 1
    rw [Program.countOn_run_bind_of_asks fun k => o.asks_certify k o.supply, hkey]

/-! ## Sound parameters

That an order is sound but for its key is said with all keys of the right
algorithm, of which none has been made yet. What is left when the key is set
aside are two lots of checks, those that come before the key and those that
come after it. -/

/-- **An order that is sound but for its key**: with every key for the
configured algorithm nothing speaks against it. -/
def IsSound (o : Order) : Prop :=
  ∀ k : KeyPair, k.algorithm = o.config.keyAlgorithm → o.IsAcceptable (.ok k)

/-- **An order is sound but for its key** if the first checks find no fault and
the later ones find none in its dates and names. -/
theorem isSound_iff {o : Order} :
    o.IsSound ↔ (o.blankFaults = [] ∧ o.windowFaults = [])
      ∧ o.dateFaults = [] ∧ o.san.filterMap nameFault? = [] := by
  have hfaults : ∀ k : KeyPair, k.algorithm = o.config.keyAlgorithm →
      (o.IsAcceptable (.ok k) ↔ (o.blankFaults = [] ∧ o.windowFaults = [])
        ∧ o.dateFaults = [] ∧ o.san.filterMap nameFault? = []) := by
    intro k hk
    have hkey : o.keyFaults (.ok k) = [] := o.keyFaults_eq_nil_iff.2 ⟨k, rfl, hk⟩
    rw [← o.faults_eq_nil_iff]
    unfold faults
    rw [hkey, List.nil_append, List.append_eq_nil_iff, List.append_eq_nil_iff,
      List.append_eq_nil_iff]
  constructor
  · intro hsound
    -- whether a key is for an algorithm does not depend on what else is in it
    have hk : (⟨o.config.keyAlgorithm, [], [], ⟨[]⟩⟩ : KeyPair).algorithm = o.config.keyAlgorithm :=
      rfl
    exact (hfaults _ hk).1 (hsound _ hk)
  · intro hnone k hk
    exact (hfaults k hk).2 hnone

/-- **What is looked at too late**: a date of more than four digits, or a host
name that is not of the basic alphabet. -/
def HasLateFault (o : Order) : Prop :=
  9999 < o.beginDate.year ∨ 9999 < o.endDate.year
    ∨ ∃ name, .dns name ∈ o.san ∧ ∃ c ∈ name.toList, 128 ≤ c.toNat

/-- Nothing is looked at too late if there is nothing to be found in dates and
names. -/
theorem not_hasLateFault_iff {o : Order} :
    ¬ o.HasLateFault ↔ o.dateFaults = [] ∧ o.san.filterMap nameFault? = [] := by
  rw [dateFaults_eq_nil_iff, nameFaults_eq_nil_iff]
  unfold HasLateFault
  push Not
  exact and_assoc.symm

end Order

namespace Draft

/-- **How often a draft's source is asked for a key** when the draft is
built. -/
def sourceCalls (d : Draft) (h : Host) : Nat :=
  match d.key with
  | none => 0
  | some s => d.build.run.countOn s.isCall h

/-- **A draft that is sound but for its key**: it lacks nothing, and is an
order of that kind. -/
def IsSound (d : Draft) : Prop := ∃ o, d.order? = some o ∧ o.IsSound

/-- **A draft that asks its source in vain**: it passes the checks that come
before the key and has a fault that is found after it. -/
def AsksInVain (d : Draft) : Prop :=
  ∃ o, d.order? = some o ∧ (o.blankFaults = [] ∧ o.windowFaults = []) ∧ o.HasLateFault

variable {d : Draft} {h : Host}

/-- A draft that lacks something asks for nothing. -/
theorem sourceCalls_of_order?_eq_none (hd : d.order? = none) : d.sourceCalls h = 0 := by
  have herror : d.order = .error (.configuration (.missing d.missing)) := by
    unfold order
    rw [hd]
  unfold sourceCalls build
  match d.key with
  | none => rfl
  | some s =>
    dsimp only
    rw [herror]
    rfl

/-- An order asks as often as its checks allow. -/
theorem sourceCalls_toDraft {o : Order} (hs : o.supply.IsSource)
    (hdates : o.beginDate.Valid ∧ o.endDate.Valid) :
    o.toDraft.sourceCalls h
      = if o.blankFaults = [] ∧ o.windowFaults = [] then 1 else 0 := by
  have hcheck : o.check = .ok () ↔ o.blankFaults = [] ∧ o.windowFaults = [] := by
    rw [Order.check_eq hdates.1 hdates.2, ← List.append_eq_nil_iff]
    constructor
    · exact firstFault_eq_ok
    · intro hnone
      rw [hnone]
      rfl
  have horder : ((Action.ofExcept o.toDraft.order).runOn h).1 = .ok o := rfl
  show (Action.ofExcept o.toDraft.order >>= fun o => o.fill).run.countOn o.supply.isCall h = _
  rw [Program.countOn_run_bind_of_ok horder]
  show 0 + o.fill.run.countOn o.supply.isCall h = _
  rw [Nat.zero_add, Order.countOn_fill hs]
  exact if_congr hcheck rfl rfl

/-- The draft of an order is sound if the order passes the first checks and has
no late fault. -/
theorem isSound_toDraft {o : Order} :
    o.toDraft.IsSound ↔ (o.blankFaults = [] ∧ o.windowFaults = []) ∧ ¬ o.HasLateFault := by
  rw [Order.not_hasLateFault_iff, ← Order.isSound_iff]
  constructor
  · rintro ⟨o', ho', hsound⟩
    obtain rfl := Option.some.inj ho'
    exact hsound
  · intro hsound
    exact ⟨o, rfl, hsound⟩

/-- It asks in vain if it passes them and has one. -/
theorem asksInVain_toDraft {o : Order} :
    o.toDraft.AsksInVain ↔ (o.blankFaults = [] ∧ o.windowFaults = []) ∧ o.HasLateFault := by
  constructor
  · rintro ⟨o', ho', hvain⟩
    obtain rfl := Option.some.inj ho'
    exact hvain
  · intro hvain
    exact ⟨o, rfl, hvain⟩

/-- **A draft that asks in vain comes to no certificate.** -/
theorem AsksInVain.not_ok (hvain : d.AsksInVain)
    (hdates : ∀ o, d.order? = some o → o.HasDates) (c : Certificate) :
    (d.build.runOn h).1 ≠ .ok c := by
  intro hc
  obtain ⟨o, ho, -, hlate⟩ := hvain
  -- a late fault is a fault, and building ends with the first there is
  have hends := ends_build hdates h
  unfold Program.Ends at hends
  cases hfaults : d.faults h with
  | cons e faults =>
    rw [hfaults, show (d.build.run.runOn h).1 = .ok c from hc] at hends
    cases hends
  | nil =>
    obtain ⟨o', ho', hacceptable⟩ := faults_eq_nil_iff.1 hfaults
    obtain rfl : o = o' := Option.some.inj (ho.symm.trans ho')
    refine Order.not_hasLateFault_iff.2 ⟨?_, ?_⟩ hlate
    · exact o.dateFaults_eq_nil_iff.2 ⟨hacceptable.begin_year, hacceptable.end_year⟩
    · exact o.nameFaults_eq_nil_iff.2 hacceptable.names

/-- **When a source is asked for a key.** It is asked once at most, and it is
asked if the draft lacks nothing, no value is blank and the window is allowed.
So it is asked only for sound parameters unless the draft is one that asks in
vain; and such a draft never comes to a certificate. -/
theorem sourceCalls_of_source {s : Key.Supply}
    (hdates : ∀ date, d.beginDate = some date ∨ d.endDate = some date →
      date.Valid ∧ 0 ≤ date.year)
    (hkey : d.key = some s) (hs : s.IsSource) :
    d.sourceCalls h ≤ 1
      ∧ (d.sourceCalls h = 1 ↔
          ∃ o, d.order? = some o ∧ o.blankFaults = [] ∧ o.windowFaults = [])
      ∧ ((1 ≤ d.sourceCalls h → d.IsSound) ↔ ¬ d.AsksInVain)
      ∧ (d.AsksInVain → ∀ c, (d.build.runOn h).1 ≠ .ok c) := by
  -- A draft that lacks something never gets as far as its source.
  match ho : d.order? with
  | none =>
    have hcalls : d.sourceCalls h = 0 := sourceCalls_of_order?_eq_none ho
    have hvain : ¬ d.AsksInVain := by
      rintro ⟨o, hsome, -⟩
      exact absurd (ho.symm.trans hsome) (by simp)
    rw [hcalls]
    refine ⟨by decide, ?_, iff_of_true (fun hone => absurd hone (by decide)) hvain,
      fun hasks => absurd hasks hvain⟩
    simp
  | some o =>
    obtain rfl := order?_eq_some_iff.1 ho
    obtain rfl : o.supply = s := Option.some.inj hkey
    obtain ⟨hbegin, hbegin_year⟩ := hdates o.beginDate (Or.inl rfl)
    obtain ⟨hend, hend_year⟩ := hdates o.endDate (Or.inr rfl)
    have hasDates : ∀ o', o.toDraft.order? = some o' → o'.HasDates := by
      intro o' ho'
      obtain rfl := Option.some.inj ho'
      exact ⟨hbegin, hbegin_year, hend, hend_year⟩
    have hcalls := sourceCalls_toDraft (h := h) hs ⟨hbegin, hend⟩
    have hexists : (∃ o', some o = some o' ∧ o'.blankFaults = [] ∧ o'.windowFaults = [])
        ↔ o.blankFaults = [] ∧ o.windowFaults = [] := by simp
    rw [hcalls, hexists, isSound_toDraft, asksInVain_toDraft]
    refine ⟨?_, ?_, ?_, fun hvain => (asksInVain_toDraft.2 hvain).not_ok hasDates⟩
    · split_ifs <;> decide
    · split_ifs with hfirst <;> simp [hfirst]
    · split_ifs with hfirst <;> simp [hfirst]

section Year

variable (supply : Key.Supply)

/-- Nothing speaks against a year's order in the first checks. -/
theorem firstFaults_yearOrder :
    (yearOrder supply).blankFaults = [] ∧ (yearOrder supply).windowFaults = [] := by
  -- what is looked at first does not depend on the key
  have hacceptable := isAcceptable_yearOrder supply (k := ⟨.ed25519, [], [], ⟨[]⟩⟩) rfl
  exact ⟨(yearOrder supply).blankFaults_eq_nil_iff.2 hacceptable.texts,
    (yearOrder supply).windowFaults_eq_nil_iff.2 ⟨hacceptable.before, hacceptable.days⟩⟩

/-- The key of a year's order is made once. -/
theorem sourceCalls_yearOrder :
    (yearOrder (.generator .ed25519)).toDraft.sourceCalls bareHost = 1 := by
  have hsource : (Key.Supply.generator .ed25519).IsSource := trivial
  have hcalls := sourceCalls_of_source (h := bareHost)
    (dates_yearOrder (.generator .ed25519)) rfl hsource
  exact hcalls.2.1.2 ⟨_, rfl, firstFaults_yearOrder _⟩

/-- A year's order with a host name that cannot be written down. -/
def accentOrder : Order := { yearOrder supply with san := [.dns "é"] }

theorem hasDates_accentOrder : (accentOrder supply).HasDates := by
  have hdates := hasDates_yearOrder supply
  exact ⟨hdates.begin_valid, hdates.begin_year, hdates.end_valid, hdates.end_year⟩

theorem firstFaults_accentOrder :
    (accentOrder supply).blankFaults = [] ∧ (accentOrder supply).windowFaults = [] :=
  firstFaults_yearOrder supply

theorem nameFaults_accentOrder :
    (accentOrder supply).san.filterMap Order.nameFault? = [.configuration (.dnsName "é")] := by
  have hname : [AltName.dns "é"].filterMap Order.nameFault? = [.configuration (.dnsName "é")] := by
    decide +kernel
  exact hname

/-- The host name is all that speaks against the order. -/
theorem faults_accentOrder {h : Host} {k : KeyPair} (hk : (supply.obtain.runOn h).1 = .ok k)
    (halgorithm : k.algorithm = .ed25519) :
    (accentOrder supply).toDraft.faults h = [.configuration (.dnsName "é")] := by
  have ho : (accentOrder supply).toDraft.order? = some (accentOrder supply) := rfl
  have hkeyFaults : (accentOrder supply).keyFaults ((accentOrder supply).supply.obtain.runOn h).1
      = [] := (accentOrder supply).keyFaults_eq_nil_iff.2 ⟨k, hk, halgorithm⟩
  have hacceptable := isAcceptable_yearOrder supply halgorithm
  have hdateFaults : (accentOrder supply).dateFaults = [] :=
    (accentOrder supply).dateFaults_eq_nil_iff.2 ⟨hacceptable.begin_year, hacceptable.end_year⟩
  have hfirst := firstFaults_accentOrder supply
  unfold faults
  rw [if_pos (order?_eq_some ho).2.2, ho, List.nil_append]
  dsimp only
  unfold Order.faults
  rw [hfirst.1, hfirst.2, hkeyFaults, hdateFaults, nameFaults_accentOrder]
  rfl

/-- **A key that is made in vain**: the host name has a letter with an
accent, and the error that says so comes after the key. -/
theorem sourceCalls_accentOrder :
    (accentOrder (.generator .ed25519)).toDraft.sourceCalls bareHost = 1
      ∧ ((accentOrder (.generator .ed25519)).toDraft.build.runOn bareHost).1
          = .error (.configuration (.dnsName "é"))
      ∧ ¬ (accentOrder (.generator .ed25519)).toDraft.IsSound := by
  have hsource : (accentOrder (.generator .ed25519)).supply.IsSource := trivial
  have hdates := hasDates_accentOrder (.generator .ed25519)
  refine ⟨?_, ?_, ?_⟩
  · rw [sourceCalls_toDraft hsource ⟨hdates.begin_valid, hdates.end_valid⟩]
    exact if_pos (firstFaults_accentOrder _)
  · obtain ⟨k, hk, halgorithm, -⟩ := Key.Supply.obtain_ed25519 bareHost
    have hends := ends_build (d := (accentOrder (.generator .ed25519)).toDraft) (fun o ho => by
      obtain rfl := Option.some.inj ho
      exact hdates) bareHost
    rw [faults_accentOrder _ hk halgorithm] at hends
    exact hends
  · rw [isSound_toDraft, Order.not_hasLateFault_iff, nameFaults_accentOrder]
    simp

end Year

end Draft

end CertAuthority
