import CertAuthority.Proofs.Certificate.Window
import CertAuthority.Proofs.Command.Make
import CertAuthority.Proofs.Files.Success

/-!
# For how many days a certificate is granted

Four limits meet in the number of days that a certificate is asked for. It has
to be one day at least, no more than the configuration allows, and the last
day has to be one that certificates can carry (`GenerateRequest.DaysFit`); and
the last day has to be counted at all, which is tried before all else. The
limits are tried in different places, some before there is a key and some
after. From outside there are three answers (`GenerateRequest.Answered`), and
a request that nothing else speaks against (`GenerateRequest.IsSound`) is
given the one that its days call for (`ends_make_answered`).

The calendar ends long after the last day that a certificate can carry, and
both are far enough off for the two to be told apart: a last day in year 10000
is counted and then refused as one that cannot be written down, while one
beyond the calendar is refused as an argument. For the same reason there is no
such day among those that are granted, and so `DaysFit` need not speak of the
calendar's end (`not_daysFit_of_beyond`).

What else may speak against a request is kept apart. The texts, the names and
the key are in `IsSound`, which says of the key that the random bytes that
come next make it; that the targets have paths and are vacant is in
`HasTargets` and in a hypothesis about the host. None of these depends on the
number of days, save that the key has to sign what it is given to sign, which
it is only where the days are granted.
-/

namespace CertAuthority

open Calendar (Date Instant)
open Program (Ends)

/-- A key that is made of random bytes is of the algorithm that was asked for.
-/
theorem KeyPair.algorithm_of_ofEntropy? {a : Key.Algorithm} {entropy : Bytes} {k : KeyPair}
    (h : ofEntropy? a entropy = some k) : k.algorithm = a := by
  obtain ⟨publicKey, -, rfl⟩ := Option.map_eq_some_iff.1 h
  rfl

/-- **A key that was generated** was made from the random bytes that were next. -/
theorem Key.Supply.ends_obtain_generator (a : Key.Algorithm) (h : Host) :
    (generator a).obtain.run.Ends h fun result _ => ∀ k, result = .ok k
      ↔ KeyPair.ofEntropy? a (h.entropy h.draws KeyPair.entropySize) = some k := by
  have hgenerate : (KeyPair.generate a).run.Ends h fun result _ => ∀ k, result = .ok k
      ↔ KeyPair.ofEntropy? a (h.entropy h.draws KeyPair.entropySize) = some k := by
    have hrandom : (Program.request (.random KeyPair.entropySize)).Ends h fun entropy _ =>
        entropy = h.entropy h.draws KeyPair.entropySize := rfl
    refine hrandom.run_lift_bind fun entropy h' hr => ?_
    subst hr
    cases KeyPair.ofEntropy? a (h.entropy h.draws KeyPair.entropySize) with
    | none =>
      intro k
      exact iff_of_false (fun hk => by cases hk) fun hk => by cases hk
    | some k' =>
      intro k
      exact ⟨fun hk => congrArg some (Except.ok.inj hk), fun hk => congrArg Except.ok (Option.some.inj hk)⟩
  refine hgenerate.run_bind (fun k' h' hr => ?_) fun e h' hr => hr
  have hnote : (Action.note (.keyGenerated a)).run.Ends h' fun result _ => result = .ok () := rfl
  exact hnote.run_bind (fun _ h'' _ => hr) fun e h'' he => by cases he

namespace Order

variable {o : Order} {k : KeyPair}

/-- What speaks against the days of an order. -/
def dayFaults (o : Order) : List Error := o.windowFaults ++ o.dateFaults

/-- All of it is about the validity. -/
theorem validity_of_mem_dayFaults {e : Error} (h : e ∈ o.dayFaults) :
    ∃ cause, e = .validity cause := by
  rcases List.mem_append.1 h with hwindow | hdate
  · rcases List.mem_append.1 hwindow with hempty | hlong
    · split_ifs at hempty
      · cases hempty
      · exact ⟨_, List.mem_singleton.1 hempty⟩
    · split_ifs at hlong
      · cases hlong
      · exact ⟨_, List.mem_singleton.1 hlong⟩
  · obtain ⟨date, -, hfault⟩ := List.mem_filterMap.1 hdate
    split_ifs at hfault
    exact ⟨_, (Option.some.inj hfault).symm⟩

/-- **An order that nothing speaks against but its days** is built if these are no
fault, and fails because of them otherwise. -/
theorem ends_build_days (ho : o.HasDates) (hkey : o.supply = .pair k)
    (hfaults : o.faults (.ok k) = o.dayFaults) (hsigns : o.dayFaults = [] → o.Signs k) (h : Host) :
    o.toDraft.build.run.Ends h fun result _ =>
      match result with
      | .ok c => o.dayFaults = [] ∧ c.HoldsFor o
      | .error e => o.dayFaults ≠ [] ∧ ∃ cause, e = .validity cause := by
  have hdates : ∀ o', o.toDraft.order? = some o' → o'.HasDates := by
    intro o' ho'
    obtain rfl := Draft.toDraft_inj.1 (Draft.order?_eq_some_iff.1 ho')
    exact ho
  have hobtain : (o.supply.obtain.runOn h).1 = .ok k := by
    rw [hkey]
    rfl
  -- With a key that is given and sound, only the faults of the days are left.
  have hall : o.toDraft.faults h = o.dayFaults := by
    rw [← hfaults, ← hobtain]
    rfl
  have hbuild : o.toDraft.build.run.Ends h fun result _ =>
      (o.toDraft.build.runOn h).1 = result := rfl
  refine (hbuild.and (Draft.ends_build hdates h)).mono fun result h' hr => ?_
  obtain ⟨hresult, hr⟩ := hr
  rw [hall] at hr
  cases hdays : o.dayFaults with
  | cons e faults =>
    rw [hdays] at hr
    obtain rfl := hr
    exact ⟨List.cons_ne_nil _ _, validity_of_mem_dayFaults (hdays ▸ List.mem_cons_self)⟩
  | nil =>
    rw [hdays] at hr
    obtain ⟨o', k', ho', hk', hsigned⟩ := hr
    obtain rfl := Draft.toDraft_inj.1 (Draft.order?_eq_some_iff.1 ho')
    obtain rfl := Except.ok.inj (hk'.symm.trans hobtain)
    obtain ⟨c, rfl, -⟩ := hsigned.says ho (List.append_eq_nil_iff.1 hdays).2 (hsigns hdays)
    obtain ⟨o', ho', hholds⟩ := Draft.window_of_build (fun date hdate => by
      rcases hdate with hdate | hdate
      · exact Option.some.inj hdate ▸ ho.begin_valid
      · exact Option.some.inj hdate ▸ ho.end_valid) hresult
    obtain rfl := Draft.toDraft_inj.1 ho'
    exact ⟨rfl, hholds⟩

end Order

namespace Command

open Store (Component Location)

/-! ## Days

A request gives the number of days or leaves it to the configuration, and
nobody looks at it before the last day is counted. The counting may go beyond
the calendar, which is an error of the arguments. What is within the calendar
can still be too long, too short or too late for a certificate, and that is an
error in its validity. -/

namespace GenerateRequest

variable (r : GenerateRequest) (config : SecurityConfig) (today : Date)

/-- For how many days a certificate is to hold: as many as are asked for, or as
the configuration has it. -/
def duration : Nat := r.days.getD config.defaultDays

/-- The day on which it ends, if it begins on a given one. -/
def lastDay : Date := Date.next^[r.duration config] today

/-- **A number of days that is granted.** The bounds are that of the
configuration and that of what a certificate can say, and the second depends on
the day. -/
structure DaysFit : Prop where
  /-- There is one day at least. -/
  pos : 1 ≤ r.duration config
  /-- There are no more than the configuration allows. -/
  max : r.duration config ≤ config.maxDays
  /-- The last day is no later than certificates can say. -/
  writable : ¬ (⟨9999, 12, 31⟩ : Date).Before (r.lastDay config today)

/-- **A certificate that runs for the days of a request.** The last day is the
one at whose beginning it ends, so that there are as many days as were asked
for. -/
structure IsMetBy (c : Certificate) : Prop where
  /-- It begins to hold at the first instant of the day. -/
  notBefore : c.notBefore = .midnight today
  /-- It ceases to hold at the first instant of the last day. -/
  notAfter : c.notAfter = .midnight (r.lastDay config today)
  /-- That is so many days later, to the nanosecond. -/
  length : c.notAfter = ⟨c.notBefore.seconds + r.duration config * 86400, c.notBefore.nanos⟩

/-- **How a request is answered** for its days: granted, and then something holds
of what comes of it, or refused in one of two ways. -/
inductive Answered {α : Type} (P : α → Prop) : Except Failure α → Prop where
  /-- The days are granted. -/
  | granted {a : α} (fit : r.DaysFit config today) (value : P a) : Answered P (.ok a)
  /-- The days are counted, but not granted. -/
  | refused {cause : ValidityCause} (unfit : ¬ r.DaysFit config today)
    (counted : ¬ Date.last.Before (r.lastDay config today)) :
    Answered P (.error (.authority (.validity cause)))
  /-- The last day is beyond the calendar. -/
  | beyond (unfit : ¬ r.DaysFit config today) (late : Date.last.Before (r.lastDay config today)) :
    Answered P (.error (.argument (.daysOutOfRange (r.duration config))))

/-- What is asked for on a day, as an order for a certificate under a key. -/
def order (first : Date) (key : KeyPair) : Order where
  subject := r.subject
  clusterId := r.clusterId
  scmId := r.scmId
  beginDate := first
  endDate := r.lastDay config first
  config := r.effectiveConfig config
  supply := .pair key
  isCa := r.ca
  san := r.altNames

variable {r config today}

/-- An answer that is no is one, whatever was to come of it. -/
theorem Answered.of_error {α β : Type} {P : α → Prop} {Q : β → Prop} {e : Failure}
    (h : r.Answered config today P (.error e)) : r.Answered config today Q (.error e) := by
  cases h with
  | refused unfit counted => exact .refused unfit counted
  | beyond unfit late => exact .beyond unfit late

/-- The last day is a day of the calendar, so many days after the first. -/
theorem lastDay_spec (htoday : today.Valid) : (r.lastDay config today).Valid
    ∧ (r.lastDay config today).dayNumber = today.dayNumber + r.duration config :=
  Date.iterate_next_spec htoday _

/-- A last day beyond the calendar is none that certificates can carry. -/
theorem not_daysFit_of_beyond (htoday : today.Valid)
    (hlate : Date.last.Before (r.lastDay config today)) : ¬ r.DaysFit config today := by
  intro hfit
  have hearly := (Date.not_before_iff_year_le (lastDay_spec htoday).1 9999).1 hfit.writable
  have hyear : (262142 : Int) ≤ (r.lastDay config today).year := by
    rcases hlate with hlt | ⟨heq, -⟩
    · exact hlt.le
    · exact heq.le
  omega

/-- The order has dates of the calendar that are not before the year zero. -/
theorem hasDates_order (htoday : today.Valid) (hyear : 0 ≤ today.year) (key : KeyPair) :
    (r.order config today key).HasDates :=
  ⟨htoday, hyear, (lastDay_spec htoday).1, hyear.trans (Date.year_le_iterate_next _ _)⟩

/-- A certificate that holds for the order runs for the days of the request. -/
theorem isMetBy_of_holdsFor (htoday : today.Valid) {key : KeyPair} {c : Certificate}
    (hholds : c.HoldsFor (r.order config today key)) : r.IsMetBy config today c := by
  refine ⟨hholds.notBefore, hholds.notAfter, ?_⟩
  rw [hholds.notBefore, hholds.notAfter]
  show Instant.mk ((r.lastDay config today).dayNumber * 86400) 0
    = ⟨today.dayNumber * 86400 + r.duration config * 86400, 0⟩
  rw [(lastDay_spec htoday).2, Int.add_mul]

/-- **The order of so many days** has no fault in its window and its days just
when these are granted. -/
theorem dayFaults_eq_nil_iff (htoday : today.Valid) (key : KeyPair) :
    (r.order config today key).dayFaults = [] ↔ r.DaysFit config today := by
  obtain ⟨hvalid, hnumber⟩ : (r.lastDay config today).Valid ∧
      (r.lastDay config today).dayNumber = today.dayNumber + r.duration config :=
    lastDay_spec htoday
  have hdays : (r.order config today key).days = r.duration config := by
    unfold Order.days
    show (r.lastDay config today).dayNumber - today.dayNumber = _
    omega
  have hbefore : today.Before (r.lastDay config today) ↔ 1 ≤ r.duration config := by
    rw [← Date.dayNumber_lt_iff htoday hvalid]
    omega
  have hyears : today.year ≤ (r.lastDay config today).year := Date.year_le_iterate_next _ _
  rw [Order.dayFaults, List.append_eq_nil_iff, Order.windowFaults_eq_nil_iff,
    Order.dateFaults_eq_nil_iff, hdays]
  show (today.Before (r.lastDay config today) ∧ (r.duration config : Int) ≤ config.maxDays)
    ∧ today.year ≤ 9999 ∧ (r.lastDay config today).year ≤ 9999 ↔ _
  rw [hbefore]
  constructor
  · rintro ⟨⟨hpos, hmax⟩, -, hlast⟩
    exact ⟨hpos, Int.ofNat_le.1 hmax, (Date.not_before_iff_year_le hvalid 9999).2 hlast⟩
  · intro hfit
    have hlast := (Date.not_before_iff_year_le hvalid 9999).1 hfit.writable
    exact ⟨⟨hfit.pos, Int.ofNat_le.2 hfit.max⟩, hyears.trans hlast, hlast⟩

/-! ## Sound requests -/

/-- **A request that nothing speaks against but its days**, on a host that makes
a key for it. -/
structure IsSound (r : GenerateRequest) (config : SecurityConfig) (h : Host) (k : KeyPair) :
    Prop where
  /-- The texts are not blank. -/
  texts : ∀ text ∈ [r.subject, r.clusterId, r.scmId], ∃ c ∈ text.toList, ¬ Text.isBlank c
  /-- The host names are of the basic alphabet. -/
  names : ∀ name ∈ r.dnsNames, ∀ c ∈ name.toList, c.toNat < 128
  /-- The random bytes that are next make a key. -/
  key : KeyPair.ofEntropy? (r.algorithm.getD config.keyAlgorithm)
    (h.entropy h.draws KeyPair.entropySize) = some k
  /-- The key signs a certificate for the days, if they are granted. -/
  signs : r.DaysFit config h.today →
    (r.order config h.today k).Signs k

/-- There are no other faults in its order. -/
theorem IsSound.faults_order {h : Host} {k : KeyPair} (hsound : r.IsSound config h k)
    (first : Date) : (r.order config first k).faults (.ok k)
      = (r.order config first k).dayFaults := by
  have hblank : (r.order config first k).blankFaults = [] := by
    refine (Order.blankFaults_eq_nil_iff _).2 fun field value hmem => hsound.texts value ?_
    exact List.mem_map_of_mem (f := Prod.snd) hmem
  have hkey : (r.order config first k).keyFaults (.ok k) = [] :=
    (Order.keyFaults_eq_nil_iff _).2 ⟨k, rfl, KeyPair.algorithm_of_ofEntropy? hsound.key⟩
  have hnames : (r.order config first k).san.filterMap Order.nameFault? = [] := by
    refine (Order.nameFaults_eq_nil_iff _).2 fun name hmem => hsound.names name ?_
    rcases List.mem_append.1 hmem with hdns | hip
    · obtain ⟨name', hname', heq⟩ := List.mem_map.1 hdns
      cases heq
      exact hname'
    · obtain ⟨address, -, heq⟩ := List.mem_map.1 hip
      cases heq
  unfold Order.faults Order.dayFaults
  rw [hblank, hkey, hnames, List.nil_append, List.nil_append, List.append_nil]

end GenerateRequest

/-! ## Making a certificate for so many days

The order that is built is known from the request and the day. All that can
speak against it is how many days it is for, and so the outcome is told by the
list of the faults of its days. -/

/-- **Counting the days ahead** comes to the last day, or to an error that names
how many days there were, and asks for nothing. -/
theorem ends_endDate_eq {first : Date} (hfirst : first.Valid) (days : Nat) (h : Host) :
    (ExceptT.run (endDate first days)).Ends h fun result h' => h' = h
      ∧ result = if Date.last.Before (Date.next^[days] first)
          then .error (.argument (.daysOutOfRange days)) else .ok (Date.next^[days] first) := by
  unfold endDate
  rw [Date.addDays?_eq hfirst]
  split_ifs
  · exact ⟨rfl, rfl⟩
  · exact ⟨rfl, rfl⟩

section Issue

variable {r : GenerateRequest} {config : SecurityConfig} {h : Host} {k : KeyPair}

/-- **The certificate is built if its days are granted**, and holds for them. -/
theorem ends_build_answered (hsound : r.IsSound config h k) (htoday : h.today.Valid)
    (hyear : 0 ≤ h.today.year) (hcounted : ¬ Date.last.Before (r.lastDay config h.today)) (g : Host) :
    (ExceptT.run (ofAction (r.order config h.today k).toDraft.build)).Ends g fun result _ =>
      r.Answered config h.today (r.IsMetBy config h.today) result := by
  have hfit : (r.order config h.today k).dayFaults = [] ↔ r.DaysFit config h.today :=
    GenerateRequest.dayFaults_eq_nil_iff htoday k
  refine (Order.ends_build_days (GenerateRequest.hasDates_order htoday hyear k) rfl
    (hsound.faults_order h.today) (fun hnone => hsound.signs (hfit.1 hnone)) g).run_ofAction
    (fun c g' hr => ?_) fun e g' hr => ?_
  · exact .granted (hfit.1 hr.1) (GenerateRequest.isMetBy_of_holdsFor htoday hr.2)
  · obtain ⟨hfaults, cause, rfl⟩ := hr
    exact .refused (fun hall => hfaults (hfit.2 hall)) hcounted

theorem ends_issue_answered (hsound : r.IsSound config h k) (htoday : h.today.Valid)
    (hyear : 0 ≤ h.today.year) (component : Component) (certificate key : Location) :
    (ExceptT.run (issue (r.effectiveConfig config) r component certificate key)).Ends h fun result _ =>
      r.Answered config h.today (fun m => r.IsMetBy config h.today m.certificate) result := by
  have hday : (Program.request .today).Ends h fun today h' => today = h.today ∧ h' = h :=
    ⟨rfl, rfl⟩
  refine hday.run_lift_bind fun today h₁ hr => ?_
  obtain ⟨rfl, rfl⟩ := hr
  refine (ends_endDate_eq htoday (r.duration config) h₁).run_bind (fun last h₂ hr => ?_)
    fun e h₂ hr => ?_
  · obtain ⟨rfl, hlast⟩ := hr
    split_ifs at hlast with hlate
    cases hlast
    have hkey : (Key.Supply.generator (r.algorithm.getD config.keyAlgorithm)).obtain.run.Ends h₂
        fun result _ => result = .ok k :=
      (Key.Supply.ends_obtain_generator _ h₂).mono fun result h' hr => (hr k).2 hsound.key
    refine (hkey.run_ofAction (Q := fun result _ => result = .ok k) (fun k' h' hr => ?_)
      fun e h' hr => by cases hr).run_bind (fun k' h₃ hr => ?_) fun e h₃ hr => by cases hr
    · cases hr
      rfl
    cases hr
    refine (ends_build_answered hsound htoday hyear hlate h₃).run_bind (fun c h₄ hr => ?_)
      fun e h₄ hr => hr.of_error
    cases hr with
    | granted fit value => exact .granted fit value
  · obtain ⟨-, hlast⟩ := hr
    split_ifs at hlast with hlate
    cases hlast
    exact .beyond (GenerateRequest.not_daysFit_of_beyond htoday hlate) hlate

end Issue

/-! ## Targets

Nothing is made before both paths are known to be free. That costs a look at
each, none if files may be replaced, and leaves the host as it was except for
what it has been asked. -/

/-- **Where the files of a request go**: to two paths below the directory of a
component. -/
structure GenerateRequest.HasTargets (r : GenerateRequest) (config : SecurityConfig) (label : String)
    (component : Component) (path keyPath : Path) : Prop where
  /-- The component is the configured one. -/
  configured : Component.ofConfig config label = .ok component
  /-- The certificate goes to the first path. -/
  located : (r.certificateLocation component).path = .ok path
  /-- The key goes to the second one. -/
  keyLocated : component.keyLocation.path = .ok keyPath
  /-- They do not go to the same location. -/
  different : r.certificateLocation component ≠ component.keyLocation

/-- What was made for the request goes there. -/
theorem GenerateRequest.HasTargets.of_isFor {r : GenerateRequest} {config : SecurityConfig}
    {label : String} {component : Component} {path keyPath : Path} {m : Made}
    (htargets : r.HasTargets config label component path keyPath) (hfor : m.IsFor config label r) :
    m.component = component ∧ m.certificateLocation = r.certificateLocation component
      ∧ m.keyLocation = component.keyLocation := by
  have hcomponent := Except.ok.inj (hfor.component.symm.trans htargets.configured)
  exact ⟨hcomponent, hfor.certificate.trans (congrArg _ hcomponent),
    hfor.key.trans (congrArg _ hcomponent)⟩

section Make

variable {config : SecurityConfig} {label : String} {r : GenerateRequest} {component : Component}
  {h : Host}

theorem ends_resolve_ok (hcomponent : Component.ofConfig config label = .ok component) (h : Host) :
    (ExceptT.run (ofAction (Component.resolve config label))).Ends h fun result h' =>
      result = .ok component ∧ h.LookedAt h' := by
  unfold Component.resolve
  rw [hcomponent]
  exact ⟨rfl, _, _, rfl⟩

theorem ends_targets_ok (hne : r.certificateLocation component ≠ component.keyLocation) (h : Host) :
    (ExceptT.run (targets r component)).Ends h fun result h' =>
      result = .ok (r.certificateLocation component, component.keyLocation) ∧ h' = h := by
  unfold targets
  show Ends (ExceptT.run (if r.certificateLocation component = component.keyLocation
    then _ else _)) h _
  rw [if_neg hne]
  exact ⟨rfl, rfl⟩

/-- A location at which there is nothing is vacant, as far as one can see. -/
theorem ends_requireVacant {l : Location} {path : Path} (hobliging : h.Obliging)
    (hpath : l.path = .ok path) (hkind : h.tree.kind? path = none) :
    (ExceptT.run (requireVacant l)).Ends h fun result h' => result = .ok () ∧ h.LookedAt h' := by
  unfold requireVacant ofExcept
  rw [hpath]
  have hfound : (Program.request (.kind path)).Ends h fun found h' =>
      found = none ∧ h.LookedAt h' :=
    ⟨(Host.lookFor_eq hobliging path).trans hkind, h.lookedAt_lookFor path⟩
  refine hfound.run_lift_bind fun found h' hr => ?_
  obtain ⟨rfl, hlooked⟩ := hr
  exact ⟨rfl, hlooked⟩

/-- **Targets at which there is nothing** are as they should be, and so are all
that have paths if files may be replaced. -/
theorem ends_requireTargets {certificate key : Location} {path keyPath : Path} {force : Bool}
    (hobliging : h.Obliging) (hpath : certificate.path = .ok path) (hkeyPath : key.path = .ok keyPath)
    (hvacant : force = false → h.tree.kind? path = none ∧ h.tree.kind? keyPath = none) :
    (ExceptT.run (requireTargets force certificate key)).Ends h fun result h' =>
      result = .ok () ∧ h.LookedAt h' := by
  cases force with
  | true => exact ⟨rfl, _, _, rfl⟩
  | false =>
    obtain ⟨hkind, hkeyKind⟩ := hvacant rfl
    unfold requireTargets requireBothVacant
    rw [if_neg Bool.false_ne_true, show ofExcept certificate.path = pure path by rw [hpath]; rfl,
      show ofExcept key.path = pure keyPath by rw [hkeyPath]; rfl, pure_bind, pure_bind]
    refine (ends_requireVacant hobliging hpath hkind).run_bind_ok fun h' hlooked => ?_
    rw [← hlooked.tree] at hkeyKind
    exact (ends_requireVacant (hobliging.of_refuses hlooked.refuses) hkeyPath hkeyKind).mono
      fun result h'' hr => ⟨hr.1, hlooked.trans hr.2⟩

variable {path keyPath : Path} (htargets : r.HasTargets config label component path keyPath)
  (hobliging : h.Obliging)
  (hvacant : r.force = false → h.tree.kind? path = none ∧ h.tree.kind? keyPath = none)
include htargets hobliging hvacant

/-- **A certificate is made once nothing speaks against the targets**, on a host
that was only looked at before. -/
theorem ends_make_of {Q : Except Failure Made → Host → Prop}
    (hissue : ∀ h', h.LookedAt h' → (ExceptT.run (issue (r.effectiveConfig config) r component
      (r.certificateLocation component) component.keyLocation)).Ends h' Q) :
    (ExceptT.run (make config label r)).Ends h Q := by
  have hresolved : Component.ofConfig (r.effectiveConfig config) label = .ok component :=
    htargets.configured
  refine (ends_resolve_ok hresolved h).run_bind_ok fun h₁ hlooked₁ => ?_
  refine (ends_targets_ok htargets.different h₁).run_bind_ok fun h₂ hr => ?_
  obtain rfl := hr
  rw [← hlooked₁.tree] at hvacant
  refine (ends_requireTargets (hobliging.of_refuses hlooked₁.refuses) htargets.located
    htargets.keyLocated hvacant).run_bind_ok fun h₃ hlooked₃ => ?_
  exact hissue h₃ (hlooked₁.trans hlooked₃)

/-- **A request that nothing speaks against but its days is answered for these.** -/
theorem ends_make_answered {k : KeyPair} (hsound : r.IsSound config h k) (htoday : h.today.Valid)
    (hyear : 0 ≤ h.today.year) :
    (ExceptT.run (make config label r)).Ends h fun result _ =>
      r.Answered config h.today (fun m => r.IsMetBy config h.today m.certificate) result := by
  refine ends_make_of htargets hobliging hvacant fun h' hlooked => ?_
  obtain ⟨asked, traces, rfl⟩ := hlooked
  have hsound' : r.IsSound config { h with asked := asked, traces := traces } k :=
    ⟨hsound.texts, hsound.names, hsound.key, hsound.signs⟩
  exact ends_issue_answered hsound' htoday hyear component _ _

end Make

end Command

end CertAuthority
