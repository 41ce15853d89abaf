import CertAuthority.Proofs.Certificate.Concealed
import CertAuthority.Proofs.Command.Generate
import CertAuthority.Proofs.Command.Grant
import CertAuthority.Proofs.Store.Concealed

/-!
# A private key shows in its file alone

Two runs of `generate` that make two keys of one algorithm cannot be told
apart from outside of files, as far as the keys are stored in equally many
bytes and sign certificates of one length with one serial number
(`GenerateRequest.Comparable`). They print the same, leave operators the same
to read, fail in the same way or succeed, and leave files of the same sizes
and permissions in the same places (`generate_concealsKey`), wherever they
stop. How long a signature is and which serial number is drawn is no matter of
the key, and what is in files is not looked at, neither by the program nor by
a machine that refuses requests.

The proof goes through the command step by step with two runs at a time
(`Program.Agree`). Everything before the key is drawn is one and the same
program on hosts that are alike, and asks for no secret. Then each host draws
its own key, and from there on the runs have different values in hand: two
keys, two certificates, what was made with each of them (`Made.Alike`). It
remains to see that none of this gets into anything but files. The report is
made of what the certificates have in common; the files are filled with
equally many bytes; and the checks along the way ask whether there is a fault,
and which, and not what the key is.

That the conditions can be met is seen in two ways: whatever runs have made
something of one size could be compared (`Made.IsDrawn.comparable`), and two
keys that do so are given at the end.
-/

namespace CertAuthority

open Program (Agree Asks Ends Yields)

/-! ## Drawing a key -/

/-- The serial number that is drawn after the next key. -/
def Host.nextSerial (h : Host) : SerialNumber :=
  Order.serialOfEntropy (h.entropy (h.draws + 1) Order.serialSize)

/-- **A host that has drawn a key.** Random bytes have been taken, and a note
has been left that says so, but not what the bytes were. -/
def Host.afterKey (h : Host) (algorithm : Key.Algorithm) : Host :=
  { h with draws := h.draws + 1, traces := h.traces ++ [.event (.keyGenerated algorithm)] }

/-- Hosts that are alike are alike after a key of the same algorithm was drawn
on each. -/
theorem Host.Alike.afterKey {h h' : Host} (hh : h.Alike h') (algorithm : Key.Algorithm) :
    (h.afterKey algorithm).Alike (h'.afterKey algorithm) :=
  { hh with
    traces := congrArg (fun traces => traces ++ [Trace.event (.keyGenerated algorithm)])
      hh.traces }

/-- **A key that the next random bytes make** is drawn, and nothing else is
done. -/
theorem Key.Supply.ends_obtain_some {a : Key.Algorithm} {h : Host} {k : KeyPair}
    (hk : KeyPair.ofEntropy? a (h.entropy h.draws KeyPair.entropySize) = some k) :
    (generator a).obtain.run.Ends h fun result g => result = .ok k ∧ g = h.afterKey a := by
  have hgenerate : (KeyPair.generate a).run.Ends h fun result g =>
      result = .ok k ∧ g = { h with draws := h.draws + 1 } := by
    have hrandom : (Program.request (.random KeyPair.entropySize)).Ends h fun entropy g =>
        entropy = h.entropy h.draws KeyPair.entropySize ∧ g = { h with draws := h.draws + 1 } :=
      ⟨rfl, rfl⟩
    refine hrandom.run_lift_bind fun entropy g hr => ?_
    obtain ⟨rfl, rfl⟩ := hr
    rw [hk]
    exact ⟨rfl, rfl⟩
  refine hgenerate.run_bind_ok fun g hg => ?_
  subst hg
  exact ⟨rfl, rfl⟩

/-- Two keys are drawn, and each host knows its own. -/
theorem Key.Supply.agree_obtain {a : Key.Algorithm} {h h' : Host} {k k' : KeyPair}
    (hk : KeyPair.ofEntropy? a (h.entropy h.draws KeyPair.entropySize) = some k)
    (hk' : KeyPair.ofEntropy? a (h'.entropy h'.draws KeyPair.entropySize) = some k') :
    Agree (Matches fun x x' => x = k ∧ x' = k')
      (fun g g' => g = h.afterKey a ∧ g' = h'.afterKey a)
      (generator a).obtain.run (generator a).obtain.run h h' := by
  obtain ⟨hresult, hhost⟩ := ends_obtain_some hk
  obtain ⟨hresult', hhost'⟩ := ends_obtain_some hk'
  refine ⟨?_, hhost, hhost'⟩
  rw [hresult, hresult']
  exact .ok ⟨rfl, rfl⟩

namespace Command

open Store (Component Location)

/-! ## Runs that can be compared -/

/-- **Two hosts on which a request makes no difference but in its key.** -/
structure GenerateRequest.Comparable (r : GenerateRequest) (config : SecurityConfig)
    (h h' : Host) (k k' : KeyPair) : Prop where
  /-- The random bytes that are next on the one make a key. -/
  key : KeyPair.ofEntropy? (r.algorithm.getD config.keyAlgorithm)
    (h.entropy h.draws KeyPair.entropySize) = some k
  /-- Those on the other make one, too. -/
  key' : KeyPair.ofEntropy? (r.algorithm.getD config.keyAlgorithm)
    (h'.entropy h'.draws KeyPair.entropySize) = some k'
  /-- They are stored in equally many bytes. -/
  size : k.privateKey.der.length = k'.privateKey.der.length
  /-- The serial number is the same. -/
  serialNumber : h.nextSerial = h'.nextSerial
  /-- If it comes to that, the keys sign certificates of one length, or
  neither of them signs. -/
  certificate : (r.order config h.today k).check = .ok () →
    (r.order config h.today k).checkWritable = .ok () →
    Certificate.SameSize (((r.order config h.today k).plan h.nextSerial).sign? k)
      (((r.order config h.today k).plan h.nextSerial).sign? k')

/-- **What was made with two keys**, and is otherwise the same. What is reported
and noted of it is made of these parts, and so is the same as well. -/
structure Made.Alike (m m' : Made) : Prop where
  /-- It is for the same component. -/
  component : m.component = m'.component
  /-- The certificates go to the same place. -/
  certificateLocation : m.certificateLocation = m'.certificateLocation
  /-- So do the keys. -/
  keyLocation : m.keyLocation = m'.keyLocation
  /-- They hold for equally many days. -/
  days : m.days = m'.days
  /-- The keys are of one algorithm. -/
  algorithm : m.key.algorithm = m'.key.algorithm
  /-- They are stored in equally many bytes. -/
  size : m.key.privateKey.der.length = m'.key.privateKey.der.length
  /-- The same is said of the certificates. -/
  certificate : m.certificate.Alike m'.certificate

variable {config : SecurityConfig} {label : String} {r : GenerateRequest} {h h' : Host}
  {k k' : KeyPair}

/-! ## Making two certificates

The two runs go side by side up to where the key is drawn, and from there on
with two keys. What they ask for is then alike though not the same: the
numbers and the sizes of what is made agree, and the bytes do not. -/

/-- The last day is counted alike, from the same day on. -/
theorem agree_endDate (htoday : h.today.Valid) :
    Agree (Matches fun last last' => last = r.lastDay config h.today ∧ last' = last)
      (fun g g' => h = g ∧ h' = g')
      (ExceptT.run (endDate h.today (r.duration config)))
      (ExceptT.run (endDate h.today (r.duration config))) h h' := by
  obtain ⟨hhost, hlast⟩ := ends_endDate_eq htoday (r.duration config) h
  obtain ⟨hhost', hlast'⟩ := ends_endDate_eq htoday (r.duration config) h'
  refine ⟨?_, hhost.symm, hhost'.symm⟩
  rw [hlast, hlast']
  split_ifs
  · exact .error _
  · exact .ok ⟨rfl, rfl⟩

/-- **Certificates with two keys are made alike.** -/
theorem agree_issue (hh : h.Alike h') (htoday : h.today.Valid)
    (hrun : r.Comparable config h h' k k') (component : Component)
    (certificate key : Location) :
    Agree (Matches Made.Alike) Host.Alike
      (ExceptT.run (issue (r.effectiveConfig config) r component certificate key))
      (ExceptT.run (issue (r.effectiveConfig config) r component certificate key)) h h' := by
  have hsame : ∀ g g', h = g ∧ h' = g' → g.Alike g' := by
    rintro g g' ⟨rfl, rfl⟩
    exact hh
  have hday : Agree (fun d d' => d = h.today ∧ d' = h.today) (fun g g' => h = g ∧ h' = g')
      (Program.request .today) (Program.request .today) h h' :=
    ⟨⟨rfl, hh.today.symm⟩, rfl, rfl⟩
  refine hday.run_lift.run_bind (fun today today' g g' hd hg => ?_) hsame
  obtain ⟨rfl, rfl⟩ := hd
  obtain ⟨rfl, rfl⟩ := hg
  refine (agree_endDate htoday).run_bind (fun last last' g g' hd hg => ?_) hsame
  obtain ⟨rfl, rfl⟩ := hd
  obtain ⟨rfl, rfl⟩ := hg
  have hobtain := Key.Supply.agree_obtain (a := (r.effectiveConfig config).keyAlgorithm) hrun.key
    hrun.key'
  refine hobtain.run_ofAction.run_bind (fun a a' g g' ha hg => ?_) fun g g' hg => ?_
  · obtain ⟨rfl, rfl⟩ := ha
    obtain ⟨rfl, rfl⟩ := hg
    have halgorithm : a.algorithm = a'.algorithm :=
      (KeyPair.algorithm_of_ofEntropy? hrun.key).trans
        (KeyPair.algorithm_of_ofEntropy? hrun.key').symm
    have hbuild : Agree (Matches Certificate.Alike) Host.Alike
        (r.draft (r.effectiveConfig config) h.today (r.lastDay config h.today) a).build.run
        (r.draft (r.effectiveConfig config) h.today (r.lastDay config h.today) a').build.run
        (h.afterKey _) (h'.afterKey _) :=
      Order.agree_fill (hh.afterKey (r.effectiveConfig config).keyAlgorithm)
        ⟨htoday, (GenerateRequest.lastDay_spec htoday).1⟩ halgorithm
        (show (r.order config h.today a).supply = .pair a from rfl) rfl
        hrun.serialNumber.symm hrun.certificate
    exact hbuild.run_ofAction.run_bind (fun c c' g g' hc hg =>
      ⟨.ok ⟨rfl, rfl, rfl, rfl, halgorithm, hrun.size, hc⟩, hg⟩) fun _ _ hg => hg
  · rw [hg.1, hg.2]
    exact hh.afterKey _

/-- What is prepared draws nothing. -/
theorem asks_prepare_glances :
    (ExceptT.run (prepare config label r)).Asks fun request =>
      request.isBlind = true ∧ ∀ g : Host, g.LookedAt (g.answer request).2 :=
  asks_prepare (fun p => ⟨rfl, fun g => g.lookedAt_lookFor p⟩) (fun _ => ⟨rfl, fun _ => ⟨_, _, rfl⟩⟩)
    config label r

/-- **What is made with two keys is made alike**, or fails alike. -/
theorem agree_make (hh : h.Alike h') (htoday : h.today.Valid)
    (hrun : r.Comparable config h h' k k') :
    Agree (Matches Made.Alike) Host.Alike (ExceptT.run (make config label r))
      (ExceptT.run (make config label r)) h h' := by
  -- before the key there are looks and notes alone, which draw nothing
  have hprepare : Agree (Matches Eq)
      (fun g g' => g.Alike g' ∧ h.LookedAt g ∧ h'.LookedAt g')
      (ExceptT.run (prepare config label r)) (ExceptT.run (prepare config label r)) h h' := by
    refine (Asks.agree (fun hr hg => ?_) asks_prepare_glances
      ⟨hh, ⟨_, _, rfl⟩, ⟨_, _, rfl⟩⟩).matches
    obtain ⟨hanswer, halike⟩ := hg.1.answer hr.1
    exact ⟨hanswer, halike, hg.2.1.trans (hr.2 _), hg.2.2.trans (hr.2 _)⟩
  rw [make_eq]
  refine hprepare.run_bind (fun settled _ g g' hsettled hg => ?_) fun _ _ hg => hg.1
  subst hsettled
  obtain ⟨halike, ⟨asked, traces, rfl⟩, asked', traces', rfl⟩ := hg
  have hrun' : r.Comparable config { h with asked := asked, traces := traces }
      { h' with asked := asked', traces := traces' } k k' :=
    ⟨hrun.key, hrun.key', hrun.size, hrun.serialNumber, hrun.certificate⟩
  exact agree_issue halike htoday hrun' settled.1 _ _

/-! ## What was made can be compared

That two runs can be compared is said beforehand, by what their hosts draw.
Afterwards one has what they have made, and it is enough to look at that: what
was made is made of what was drawn, so that the sizes of the one are the sizes
of the other. -/

/-- **What was made of what a host draws.** Two runs are compared by the keys
and certificates that they have made, while what they will make is said of their
hosts. -/
structure Made.IsDrawn (m : Made) (r : GenerateRequest) (config : SecurityConfig) (h : Host) :
    Prop where
  /-- The key is made of the random bytes that are next. -/
  key : KeyPair.ofEntropy? (r.algorithm.getD config.keyAlgorithm)
    (h.entropy h.draws KeyPair.entropySize) = some m.key
  /-- It has signed the certificate, with the serial number after it. -/
  signed : ((r.order config h.today m.key).plan h.nextSerial).sign? m.key = some m.certificate.der

/-- The key that is drawn is made of the bytes that are next. -/
theorem yields_obtain (a : Key.Algorithm) (h : Host) :
    Yields (Key.Supply.generator a).obtain h fun k g =>
      KeyPair.ofEntropy? a (h.entropy h.draws KeyPair.entropySize) = some k ∧ g = h.afterKey a := by
  intro k hk
  have hmade := (Key.Supply.ends_obtain_generator a h k).1 hk
  exact ⟨hmade, (Key.Supply.ends_obtain_some hmade).2⟩

/-- The certificate that is built is what the key signs. -/
theorem yields_build (first : Calendar.Date) (h : Host) :
    Yields (r.draft (r.effectiveConfig config) first (r.lastDay config first) k).build h
      fun c _ => ((r.order config first k).plan
        (Order.serialOfEntropy (h.entropy h.draws Order.serialSize))).sign? k = some c.der := by
  intro c hc
  have hfill : ((r.order config first k).fill.runOn h).1 = .ok c := hc
  unfold Order.fill at hfill
  obtain ⟨⟨⟩, hcheck, hfill⟩ := Action.runOn_bind_eq_ok_iff.1 hfill
  change ((_ >>= fun key => (r.order config first k).certify key).runOn h).1 = .ok c at hfill
  obtain ⟨k₁, hkey, hfill⟩ := Action.runOn_bind_eq_ok_iff.1 hfill
  obtain ⟨hobtain, -, hhost⟩ := Order.key_eq_ok hkey
  obtain rfl : k = k₁ := Except.ok.inj hobtain
  rw [hhost] at hfill
  obtain ⟨-, der, hder, hread⟩ := Order.certify_eq_ok hfill
  rw [Certificate.ofDer_eq_ok_iff.1 hread]
  exact hder

/-- What is issued is made of what the host draws. -/
theorem yields_issue (component : Component) (certificate key : Location)
    (htoday : h.today.Valid) :
    Yields (issue (r.effectiveConfig config) r component certificate key) h
      fun m _ => m.IsDrawn r config h := by
  have hday : (Program.request .today).Ends h fun today g => today = h.today ∧ g = h := ⟨rfl, rfl⟩
  refine hday.run_lift_bind fun today g hg => ?_
  obtain ⟨rfl, rfl⟩ := hg
  have hlast : Yields (endDate g.today (r.duration config)) g
      fun last g' => last = r.lastDay config g.today ∧ g' = g := by
    obtain ⟨hhost, hresult⟩ := ends_endDate_eq htoday (r.duration config) g
    intro last hok
    rw [hresult] at hok
    split_ifs at hok
    exact ⟨(Except.ok.inj hok).symm, hhost⟩
  refine hlast.bind fun last g' hg => ?_
  obtain ⟨rfl, rfl⟩ := hg
  refine (yields_obtain _ g').ofAction.bind fun k g hk => ?_
  obtain ⟨hmade, rfl⟩ := hk
  exact (yields_build g'.today _).ofAction.bind fun c g hc => Program.yields_pure ⟨hmade, hc⟩

/-- **What is made is made of what the host draws.** -/
theorem yields_make (htoday : h.today.Valid) :
    Yields (make config label r) h fun m _ => m.IsDrawn r config h := by
  have hlooked : Yields (prepare config label r) h fun _ g => h.LookedAt g := fun _ _ =>
    asks_prepare_glances.runOn (R := Host.LookedAt) (fun g => ⟨_, _, rfl⟩) Host.LookedAt.trans
      (fun g _ hr => hr.2 g) h
  rw [make_eq]
  refine hlooked.bind fun settled g hg => ?_
  obtain ⟨asked, traces, rfl⟩ := hg
  intro m hm
  have hdrawn := yields_issue (h := { h with asked := asked, traces := traces }) settled.1
    settled.2.1 settled.2.2 htoday m hm
  exact ⟨hdrawn.key, hdrawn.signed⟩

/-- **Runs that have made something of one size can be compared.** -/
theorem Made.IsDrawn.comparable {m m' : Made} (hm : m.IsDrawn r config h)
    (hm' : m'.IsDrawn r config h') (htoday : h.today = h'.today)
    (hserial : h.nextSerial = h'.nextSerial)
    (hsize : m.key.privateKey.der.length = m'.key.privateKey.der.length)
    (hcertificate : m.certificate.der.length = m'.certificate.der.length) :
    r.Comparable config h h' m.key m'.key := by
  refine ⟨hm.key, hm'.key, hsize, hserial, fun _ _ => ?_⟩
  have hsigned' := hm'.signed
  rw [← htoday, ← hserial] at hsigned'
  rw [hm.signed, show Order.plan (r.order config h.today m.key)
    = Order.plan (r.order config h.today m'.key) from rfl, hsigned']
  exact .some hcertificate

/-! ## Reporting on two certificates -/

/-- **The same is reported of them.** -/
theorem CertificateSummary.ofCertificate_of_alike {c c' : Certificate} (hc : c.Alike c')
    (path : Path) : ofCertificate c path = ofCertificate c' path := by
  have hbefore : c.notBefore = c'.notBefore := congrArg Validity.notBefore hc.validity
  have hafter : c.notAfter = c'.notAfter := congrArg Validity.notAfter hc.validity
  unfold ofCertificate
  rw [hc.serialNumber, hc.subject, hc.issuer, hbefore, hafter, hc.isCa, hc.san]

theorem isBlind_print (text : String) (failure : Files.Fault → Failure) :
    (ExceptT.run (print text failure)).IsBlind := by
  refine Asks.bind (Program.asks_request ?_) fun r => ?_
  · rfl
  · cases r with
    | ok u => trivial
    | error fault => trivial

theorem isBlind_report {α : Type} [Report α] (format : Format) (a : α) :
    (ExceptT.run (report format a)).IsBlind := by
  cases format with
  | table => exact isBlind_print _ _
  | json => exact Asks.run_bind (isBlind_print _ _) fun _ => isBlind_print _ _

/-- **Generating with two keys** goes the same way. -/
theorem agree_generate (label : String) (format : Format) (hh : h.Alike h') (htoday : h.today.Valid)
    (hrun : r.Comparable config h h' k k') :
    Agree (Matches Eq) Host.Alike (ExceptT.run (generate config label format r))
      (ExceptT.run (generate config label format r)) h h' := by
  unfold generate
  refine (agree_make hh htoday hrun).run_bind (fun m m' g g' hm hg => ?_) fun _ _ hg => hg
  have hcertificate : Agree (Matches Eq) Host.Alike
      (m.storeCertificate (.ofFlag r.force)).run (m'.storeCertificate (.ofFlag r.force)).run g g' := by
    unfold Made.storeCertificate
    rw [hm.component, hm.certificateLocation]
    exact Component.agree_writeCertificate _ _ _ hg hm.certificate.size hm.certificate.serialNumber
  refine hcertificate.run_ofAction.run_bind (fun path _ g g' hp hg => ?_) fun _ _ hg => hg
  subst hp
  have hkey : Agree (Matches Eq) Host.Alike
      (m.storeKey (.ofFlag r.force)).run (m'.storeKey (.ofFlag r.force)).run g g' := by
    unfold Made.storeKey
    rw [hm.component, hm.keyLocation]
    exact Component.agree_writePrivateKey _ _ _ hg hm.size
  refine hkey.run_ofAction.run_bind (fun keyPath _ g g' hp hg => ?_) fun _ _ hg => hg
  subst hp
  rw [hm.certificate.serialNumber, hm.days, hm.algorithm,
    CertificateSummary.ofCertificate_of_alike hm.certificate path]
  have hrest : (ExceptT.run (ofAction (Action.note (.certificateGenerated label
      m'.certificate.serialNumber m'.days)) >>= fun _ => report format
        ((CertificateSummary.ofCertificate m'.certificate path).withKey keyPath
          m'.key.algorithm.name))).IsBlind :=
    Asks.run_bind (Asks.run_ofAction (Program.asks_note rfl)) fun _ => isBlind_report format _
  exact hrest.matches hg

end Command

/-! ## Diagnostic texts -/

/-- **A key pair shows by its algorithm.** -/
theorem KeyPair.diagnostic_eq {k k' : KeyPair} (h : k.algorithm = k'.algorithm) :
    k.diagnostic = k'.diagnostic := by
  unfold diagnostic
  rw [h]

/-- So it does in a draft. -/
theorem Draft.diagnostic_withKey {k k' : KeyPair} (h : k.algorithm = k'.algorithm) (d : Draft) :
    (d.withKey (.pair k)).diagnostic = (d.withKey (.pair k')).diagnostic := by
  have hkey : optional Key.Supply.diagnostic (some (.pair k))
      = optional Key.Supply.diagnostic (some (.pair k')) :=
    congrArg (fun text => "Some(" ++ ("Pair(" ++ text ++ ")") ++ ")") (KeyPair.diagnostic_eq h)
  unfold diagnostic withKey
  rw [hkey]

namespace Command

/-! ## The key is concealed -/

/-- **A private key shows in its file alone.** Two runs of `generate` with the
same configuration, component and arguments, on hosts that are alike outside of
files and on one day of the calendar, that draw keys of equally many bytes and
one serial number, and sign certificates of one length if they sign any, have one
and the same result. They print the same and leave operators the same to read,
event by event and complaint by complaint; and afterwards the same is where it
is, with the same permissions and sizes. Neither do private keys, key pairs and
drafts show more of a key than its algorithm in diagnostic texts. -/
theorem generate_concealsKey :
    (∀ (config : SecurityConfig) (label : String) (format : Format) (r : GenerateRequest)
      (h h' : Host) (k k' : KeyPair), h.Alike h' → h.today.Valid →
        r.Comparable config h h' k k' →
        let run := (generate config label format r).runOn h
        let run' := (generate config label format r).runOn h'
        run.1 = run'.1 ∧ run.2.printed = run'.2.printed ∧ run.2.traces = run'.2.traces
          ∧ run.2.tree.outline = run'.2.tree.outline)
      ∧ (∀ key key' : PrivateKey, key.diagnostic = key'.diagnostic)
      ∧ (∀ k k' : KeyPair, k.algorithm = k'.algorithm → k.diagnostic = k'.diagnostic)
      ∧ ∀ (d : Draft) (k k' : KeyPair), k.algorithm = k'.algorithm →
          (d.withKey (.pair k)).diagnostic = (d.withKey (.pair k')).diagnostic := by
  refine ⟨?_, fun _ _ => rfl, fun _ _ => KeyPair.diagnostic_eq, fun d _ _ h =>
    Draft.diagnostic_withKey h d⟩
  intro config label format r h h' k k' hh htoday hrun
  obtain ⟨hresult, hhosts⟩ := agree_generate label format hh htoday hrun
  exact ⟨matches_eq_iff.1 hresult, hhosts.printed, hhosts.traces, hhosts.tree⟩

/-! ### Two keys on hosts with nothing on them -/

/-- A host with nothing on it that draws another key. The random bytes for the
serial number are the same. -/
def otherHost : Host :=
  { Draft.bareHost with entropy := fun draw _ => if draw = 0 then [1] else [] }

/-- Both hosts grant a request, with two secrets and in equally many bytes. -/
theorem make_otherHost :
    (((make .default "scm" yearRequest).runOn Draft.bareHost).1.toOption.bind fun m =>
      ((make .default "scm" yearRequest).runOn otherHost).1.toOption.map fun m' =>
        decide (m.key.secret ≠ m'.key.secret
          ∧ m.key.privateKey.der.length = m'.key.privateKey.der.length
          ∧ m.certificate.der.length = m'.certificate.der.length)) = some true := by
  decide +kernel

theorem eq_ok_of_toOption {ε α : Type} {result : Except ε α} {a : α}
    (h : result.toOption = some a) : result = .ok a := by
  cases result with
  | error e => cases h
  | ok b => exact congrArg Except.ok (Option.some.inj h)

/-- The two hosts are alike: they differ in the random bytes to come. -/
theorem alike_otherHost : Draft.bareHost.Alike otherHost where
  tree := rfl
  today := rfl
  refuses := fun _ _ _ _ => rfl
  asked := rfl
  traces := rfl
  printed := rfl
  room := rfl

/-- **Nobody can tell which of the two keys was made.** -/
theorem concealsKey_otherHost :
    ∃ m m' : Made, ((make .default "scm" yearRequest).runOn Draft.bareHost).1 = .ok m
      ∧ ((make .default "scm" yearRequest).runOn otherHost).1 = .ok m'
      ∧ m.key.secret ≠ m'.key.secret
      ∧ yearRequest.Comparable .default Draft.bareHost otherHost m.key m'.key
      ∧ let run := (generate .default "scm" .json yearRequest).runOn Draft.bareHost
        let run' := (generate .default "scm" .json yearRequest).runOn otherHost
        run.1 = run'.1 ∧ run.2.printed = run'.2.printed ∧ run.2.traces = run'.2.traces
          ∧ run.2.tree.outline = run'.2.tree.outline := by
  obtain ⟨m, hm, hrest⟩ := Option.bind_eq_some_iff.1 make_otherHost
  obtain ⟨m', hm', hrest⟩ := Option.map_eq_some_iff.1 hrest
  obtain ⟨hsecret, hsize, hcertificate⟩ := of_decide_eq_true hrest
  have hmade := eq_ok_of_toOption hm
  have hmade' := eq_ok_of_toOption hm'
  have hserial : Draft.bareHost.nextSerial = otherHost.nextSerial :=
    congrArg Order.serialOfEntropy rfl
  have htoday : Draft.bareHost.today.Valid := by decide
  have hdrawn : m.IsDrawn yearRequest .default Draft.bareHost := yields_make htoday m hmade
  have hdrawn' : m'.IsDrawn yearRequest .default otherHost :=
    yields_make (h := otherHost) htoday m' hmade'
  have hcomparable := hdrawn.comparable hdrawn' rfl hserial hsize hcertificate
  exact ⟨m, m', hmade, hmade', hsecret, hcomparable, generate_concealsKey.1 .default "scm" .json
    yearRequest Draft.bareHost otherHost m.key m'.key alike_otherHost htoday hcomparable⟩

end Command

end CertAuthority
