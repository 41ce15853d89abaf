import CertAuthority.Proofs.Certificate.Order

/-!
# What becomes of a draft

A draft is the outcome of calls, each of which gives it a value. Which calls
there were shows only in the last value of each kind, in whether the subject
is an authority at all, and in the list of alternative names
(`Draft.ofCalls_eq`), so that calls that give values of different kinds may
change places (`Draft.ofCalls_swap`).

A draft that lacks nothing is an order, and building it ends as the order
does; one that lacks something ends with the list of what it lacks
(`Draft.ends_build`). What speaks against a draft can be told beforehand as a
list of faults in the order in which they are looked for, and building ends
with the first of them (`Draft.faults`). Such a list says more than which
error comes: it says that nothing behind the first fault has any influence,
and that the list is empty for the drafts that are built and for no others
(`Draft.faults_eq_nil_iff`).

One thing is assumed throughout, that the key signs. The signature is made by
code from outside, which may fail for reasons of its own; `Order.Signs` is
that it does not, and the certificate of a year's order at the end shows a
case where this is known.
-/

namespace CertAuthority

open Program (Ends)

/-- The draft with the values of an order. -/
def Order.toDraft (o : Order) : Draft where
  subject := some o.subject
  clusterId := some o.clusterId
  scmId := some o.scmId
  beginDate := some o.beginDate
  endDate := some o.endDate
  config := some o.config
  key := some o.supply
  isCa := o.isCa
  san := o.san

namespace Draft

/-! ## Calls

Each setter gives one field its value and leaves the others alone, so that
after any calls a field has the last value that was given to it. This is
proved once for a field and a way to read its value off a call, and then for
all fields at once. -/

/-- **A call that gives a draft a value.** Those that set a field replace what
was set before, but for the alternative names, of which each call adds one. -/
inductive Call where
  /-- The common name of the subject. -/
  | subject (value : String)
  /-- The cluster. -/
  | clusterId (value : String)
  /-- The storage manager. -/
  | scmId (value : String)
  /-- The first day of validity. -/
  | beginDate (value : Calendar.Date)
  /-- The day on which validity ends. -/
  | endDate (value : Calendar.Date)
  /-- The configuration. -/
  | config (value : SecurityConfig)
  /-- The supply of the key. -/
  | key (value : Key.Supply)
  /-- That the subject is an authority. -/
  | makeCa
  /-- One more alternative name. -/
  | altName (value : AltName)

namespace Call

/-- The draft after a call. -/
def apply (d : Draft) : Call → Draft
  | subject value => d.withSubject value
  | clusterId value => d.withClusterId value
  | scmId value => d.withScmId value
  | beginDate value => d.withBeginDate value
  | endDate value => d.withEndDate value
  | config value => d.withConfig value
  | key value => d.withKey value
  | makeCa => d.asCa
  | altName value => d.withAltName value

/-- The common name in a call. -/
def subject? : Call → Option String
  | subject value => some value
  | _ => none

/-- The cluster in a call. -/
def clusterId? : Call → Option String
  | clusterId value => some value
  | _ => none

/-- The storage manager in a call. -/
def scmId? : Call → Option String
  | scmId value => some value
  | _ => none

/-- The first day in a call. -/
def beginDate? : Call → Option Calendar.Date
  | beginDate value => some value
  | _ => none

/-- The last day in a call. -/
def endDate? : Call → Option Calendar.Date
  | endDate value => some value
  | _ => none

/-- The configuration in a call. -/
def config? : Call → Option SecurityConfig
  | config value => some value
  | _ => none

/-- The supply of the key in a call. -/
def key? : Call → Option Key.Supply
  | key value => some value
  | _ => none

/-- What a call gives, if it is needed. -/
def requirement? : Call → Option Requirement
  | subject _ => some .subject
  | clusterId _ => some .clusterId
  | scmId _ => some .scmId
  | beginDate _ => some .beginDate
  | endDate _ => some .endDate
  | config _ => some .config
  | key _ => some .key
  | makeCa => none
  | altName _ => none

/-- Whether a call makes the subject an authority. -/
def isMakeCa : Call → Bool
  | makeCa => true
  | _ => false

/-- The alternative name in a call. -/
def altName? : Call → Option AltName
  | altName value => some value
  | _ => none

end Call

/-- **The draft after some calls**, of which the first is made on an empty one,
and each on what the one before it has left. -/
def ofCalls (calls : List Call) : Draft := calls.foldl Call.apply empty

/-- The last value of a kind in some calls. It is what a field has that each
call of the kind sets, whatever calls of other kinds come in between. -/
def lastOf {α : Type} (value? : Call → Option α) (calls : List Call) : Option α :=
  (calls.filterMap value?).getLast?

/-- A field that takes the value of each call of its kind has the last
one. -/
theorem field_foldl_apply {α : Type} (field : Draft → Option α) (value? : Call → Option α)
    (h : ∀ d c, field (Call.apply d c) = (value? c).or (field d)) (calls : List Call) (d : Draft) :
    field (calls.foldl Call.apply d) = (lastOf value? calls).or (field d) := by
  induction calls generalizing d with
  | nil => rfl
  | cons c calls ih =>
    rw [List.foldl_cons, ih, h]
    unfold lastOf
    rw [List.filterMap_cons]
    cases value? c with
    | none => rfl
    | some a =>
      rw [List.getLast?_cons]
      cases (calls.filterMap value?).getLast? with
      | none => rfl
      | some b => rfl

/-- A field that is empty to begin with has the last value that was given, if
there was one. -/
theorem field_ofCalls {α : Type} (field : Draft → Option α) (value? : Call → Option α)
    (h : ∀ d c, field (Call.apply d c) = (value? c).or (field d)) (hempty : field empty = none)
    (calls : List Call) : field (ofCalls calls) = lastOf value? calls := by
  unfold ofCalls
  rw [field_foldl_apply field value? h, hempty, Option.or_none]

/-- The subject is an authority from the first call on that says so. -/
theorem isCa_foldl_apply (calls : List Call) (d : Draft) :
    (calls.foldl Call.apply d).isCa = (d.isCa || calls.any Call.isMakeCa) := by
  induction calls generalizing d with
  | nil => exact (Bool.or_false d.isCa).symm
  | cons c calls ih =>
    have hstep : (Call.apply d c).isCa = (d.isCa || c.isMakeCa) := by
      cases c with
      | makeCa => exact (Bool.or_true d.isCa).symm
      | _ => exact (Bool.or_false d.isCa).symm
    rw [List.foldl_cons, ih, hstep, List.any_cons, Bool.or_assoc]

theorem san_foldl_apply (calls : List Call) (d : Draft) :
    (calls.foldl Call.apply d).san = d.san ++ calls.filterMap Call.altName? := by
  induction calls generalizing d with
  | nil => exact (List.append_nil d.san).symm
  | cons c calls ih =>
    have hstep : (Call.apply d c).san = d.san ++ c.altName?.toList := by
      cases c with
      | altName name => rfl
      | _ => exact (List.append_nil d.san).symm
    rw [List.foldl_cons, ih, hstep, List.append_assoc, List.filterMap_cons]
    cases c.altName? with
    | none => rfl
    | some name => rfl

/-- **What a draft has after some calls**: the last value of each kind, and
all alternative names. -/
theorem ofCalls_eq (calls : List Call) :
    ofCalls calls = {
      subject := lastOf Call.subject? calls
      clusterId := lastOf Call.clusterId? calls
      scmId := lastOf Call.scmId? calls
      beginDate := lastOf Call.beginDate? calls
      endDate := lastOf Call.endDate? calls
      config := lastOf Call.config? calls
      key := lastOf Call.key? calls
      isCa := calls.any Call.isMakeCa
      san := calls.filterMap Call.altName? } := by
  have hsubject := field_ofCalls subject Call.subject? (fun d c => by cases c <;> rfl) rfl calls
  have hcluster := field_ofCalls clusterId Call.clusterId? (fun d c => by cases c <;> rfl) rfl calls
  have hscm := field_ofCalls scmId Call.scmId? (fun d c => by cases c <;> rfl) rfl calls
  have hbegin := field_ofCalls beginDate Call.beginDate? (fun d c => by cases c <;> rfl) rfl calls
  have hend := field_ofCalls endDate Call.endDate? (fun d c => by cases c <;> rfl) rfl calls
  have hconfig := field_ofCalls config Call.config? (fun d c => by cases c <;> rfl) rfl calls
  have hkey := field_ofCalls key Call.key? (fun d c => by cases c <;> rfl) rfl calls
  have hca : (ofCalls calls).isCa = calls.any Call.isMakeCa := isCa_foldl_apply calls empty
  have hsan : (ofCalls calls).san = calls.filterMap Call.altName? := san_foldl_apply calls empty
  rw [← hsubject, ← hcluster, ← hscm, ← hbegin, ← hend, ← hconfig, ← hkey, ← hca, ← hsan]

/-- **Calls of different kinds may change places.** -/
theorem ofCalls_swap {c c' : Call} (h : c.ctorIdx ≠ c'.ctorIdx) (before after : List Call) :
    ofCalls (before ++ c :: c' :: after) = ofCalls (before ++ c' :: c :: after) := by
  have hswap : ∀ d, Call.apply (Call.apply d c) c' = Call.apply (Call.apply d c') c := by
    intro d
    cases c <;> cases c' <;> first | rfl | exact absurd rfl h
  unfold ofCalls
  rw [List.foldl_append, List.foldl_append, List.foldl_cons, List.foldl_cons, hswap]
  rfl

/-! ## What is missing

What is missing is looked for in a fixed order, and all of it is reported
together. It depends on which kinds of calls there were and on nothing else,
least of all on their order. -/

/-- What is needed, in the order in which it is looked for. -/
def requirements : List Requirement :=
  [.subject, .clusterId, .scmId, .beginDate, .endDate, .config, .key]

/-- There is no last value of a kind if no call gave one. -/
theorem isNone_lastOf {α : Type} (value? : Call → Option α) (q : Requirement)
    (h : ∀ c, value? c = none ↔ c.requirement? ≠ some q) (calls : List Call) :
    (lastOf value? calls).isNone = decide (∀ c ∈ calls, c.requirement? ≠ some q) := by
  unfold lastOf
  rw [Bool.eq_iff_iff, Option.isNone_iff_eq_none, List.getLast?_eq_none_iff,
    List.filterMap_eq_nil_iff, decide_eq_true_iff]
  exact forall₂_congr fun c _ => h c

/-- **What is missing is what no call gave.** -/
theorem missing_ofCalls (calls : List Call) :
    (ofCalls calls).missing
      = requirements.filter fun q => ∀ c ∈ calls, c.requirement? ≠ some q := by
  have hsubject := isNone_lastOf Call.subject? .subject
    (fun c => by cases c <;> simp [Call.subject?, Call.requirement?]) calls
  have hcluster := isNone_lastOf Call.clusterId? .clusterId
    (fun c => by cases c <;> simp [Call.clusterId?, Call.requirement?]) calls
  have hscm := isNone_lastOf Call.scmId? .scmId
    (fun c => by cases c <;> simp [Call.scmId?, Call.requirement?]) calls
  have hbegin := isNone_lastOf Call.beginDate? .beginDate
    (fun c => by cases c <;> simp [Call.beginDate?, Call.requirement?]) calls
  have hend := isNone_lastOf Call.endDate? .endDate
    (fun c => by cases c <;> simp [Call.endDate?, Call.requirement?]) calls
  have hconfig := isNone_lastOf Call.config? .config
    (fun c => by cases c <;> simp [Call.config?, Call.requirement?]) calls
  have hkey := isNone_lastOf Call.key? .key
    (fun c => by cases c <;> simp [Call.key?, Call.requirement?]) calls
  rw [ofCalls_eq, ← List.filterMap_eq_filter]
  unfold missing
  dsimp only
  rw [hsubject, hcluster, hscm, hbegin, hend, hconfig, hkey]
  show List.filterMap _ (requirements.map fun q =>
    (q, decide (∀ c ∈ calls, c.requirement? ≠ some q))) = _
  rw [List.filterMap_map]
  rfl

/-- **A draft that lacks nothing is an order.** -/
theorem exists_order_of_missing {d : Draft} (h : d.missing = []) : ∃ o, d.order? = some o := by
  unfold missing at h
  rw [List.filterMap_eq_nil_iff] at h
  have hgiven : ∀ {α : Type} (q : Requirement) (x : Option α),
      (q, x.isNone) ∈ [(Requirement.subject, d.subject.isNone), (.clusterId, d.clusterId.isNone),
        (.scmId, d.scmId.isNone), (.beginDate, d.beginDate.isNone), (.endDate, d.endDate.isNone),
        (.config, d.config.isNone), (.key, d.key.isNone)] → ∃ a, x = some a := by
    intro α q x hmem
    cases x with
    | none => cases h _ hmem
    | some a => exact ⟨a, rfl⟩
  obtain ⟨subject, hsubject⟩ := hgiven .subject d.subject (by simp)
  obtain ⟨cluster, hcluster⟩ := hgiven .clusterId d.clusterId (by simp)
  obtain ⟨scm, hscm⟩ := hgiven .scmId d.scmId (by simp)
  obtain ⟨first, hbegin⟩ := hgiven .beginDate d.beginDate (by simp)
  obtain ⟨last, hend⟩ := hgiven .endDate d.endDate (by simp)
  obtain ⟨config, hconfig⟩ := hgiven .config d.config (by simp)
  obtain ⟨key, hkey⟩ := hgiven .key d.key (by simp)
  refine ⟨⟨subject, cluster, scm, first, last, config, key, d.isCa, d.san⟩, ?_⟩
  unfold order?
  rw [hsubject, hcluster, hscm, hbegin, hend, hconfig, hkey]
  rfl

/-- **A draft is an order if it is the draft of one.** -/
theorem order?_eq_some_iff {d : Draft} {o : Order} : d.order? = some o ↔ d = o.toDraft := by
  constructor
  · intro h
    obtain ⟨subject, clusterId, scmId, first, last, config, key, isCa, san⟩ := d
    unfold order? at h
    simp only [Option.bind_eq_bind, Option.bind_eq_some_iff, Option.pure_def,
      Option.some.injEq] at h
    obtain ⟨_, rfl, _, rfl, _, rfl, _, rfl, _, rfl, _, rfl, _, rfl, rfl⟩ := h
    rfl
  · rintro rfl
    rfl

theorem toDraft_inj {o o' : Order} : o.toDraft = o'.toDraft ↔ o = o' := by
  have ho : o.toDraft.order? = some o := rfl
  rw [← order?_eq_some_iff, ho, Option.some.injEq]

/-- The dates of an order are those of its draft, which lacks nothing. -/
theorem order?_eq_some {d : Draft} {o : Order} (h : d.order? = some o) :
    d.beginDate = some o.beginDate ∧ d.endDate = some o.endDate ∧ d.missing = [] := by
  obtain rfl := order?_eq_some_iff.1 h
  exact ⟨rfl, rfl, rfl⟩

/-! ## Building

The faults of a draft are a list that can be told before it is built. Since
the key has to be obtained to say what is wrong with it, the list depends on
the host; but for that the checks are functions of the draft. -/

/-- **What speaks against a draft**, in the order in which it is looked
for: what it lacks, or what speaks against it as an order. -/
def faults (d : Draft) (h : Host) : List Error :=
  (if d.missing = [] then [] else [.configuration (.missing d.missing)]) ++
    match d.order? with
    | none => []
    | some o => o.faults (o.supply.obtain.runOn h).1

/-- **A draft that nothing speaks against**: it lacks nothing, and is an
order that nothing speaks against. -/
def IsAcceptable (d : Draft) (h : Host) : Prop :=
  ∃ o, d.order? = some o ∧ o.IsAcceptable (o.supply.obtain.runOn h).1

/-- **There are no faults in the drafts that nothing speaks against**, and in no
others. -/
theorem faults_eq_nil_iff {d : Draft} {h : Host} : d.faults h = [] ↔ d.IsAcceptable h := by
  unfold faults IsAcceptable
  rw [List.append_eq_nil_iff, fault_eq_nil_iff]
  constructor
  · rintro ⟨hmissing, hfaults⟩
    obtain ⟨o, ho⟩ := exists_order_of_missing hmissing
    rw [ho] at hfaults
    exact ⟨o, ho, o.faults_eq_nil_iff.1 hfaults⟩
  · rintro ⟨o, ho, hacceptable⟩
    rw [ho]
    exact ⟨(order?_eq_some ho).2.2, o.faults_eq_nil_iff.2 hacceptable⟩

/-- **A draft ends with its first fault**, or with the certificate that the
key signs. -/
theorem ends_build {d : Draft} (hd : ∀ o, d.order? = some o → o.HasDates) (h : Host) :
    d.build.run.Ends h fun r _ =>
      match d.faults h with
      | e :: _ => r = .error e
      | [] => ∃ o k, d.order? = some o ∧ (o.supply.obtain.runOn h).1 = .ok k ∧ o.Signed k r := by
  have horder : (Action.ofExcept d.order).run.Ends h fun r h' => r = d.order ∧ h' = h := ⟨rfl, rfl⟩
  unfold build
  -- A draft has an order just when nothing is missing, and then its faults are those of the
  -- order.
  refine horder.run_bind (fun o h' hr => ?_) fun e h' hr => ?_
  · obtain ⟨hr, rfl⟩ := hr
    have ho : d.order? = some o := by
      unfold order at hr
      cases hsome : d.order? with
      | none =>
        rw [hsome] at hr
        cases hr
      | some o' =>
        rw [hsome] at hr
        rw [Except.ok.inj hr]
    refine (Order.ends_fill (hd o ho) h').mono fun r h₁ hr' => ?_
    unfold faults
    rw [if_pos (order?_eq_some ho).2.2, ho, List.nil_append]
    dsimp only
    cases hfaults : o.faults (o.supply.obtain.runOn h').1 with
    | cons e faults =>
      rw [hfaults] at hr'
      exact hr'
    | nil =>
      rw [hfaults] at hr'
      obtain ⟨k, hk, hsigned⟩ := hr'
      exact ⟨o, k, rfl, hk, hsigned⟩
  · obtain ⟨hr, -⟩ := hr
    unfold order at hr
    cases hnone : d.order? with
    | some o =>
      rw [hnone] at hr
      cases hr
    | none =>
      have hmissing : d.missing ≠ [] := by
        intro hmissing
        obtain ⟨o, ho⟩ := exists_order_of_missing hmissing
        rw [hnone] at ho
        cases ho
      rw [hnone] at hr
      unfold faults
      rw [if_neg hmissing, List.singleton_append]
      exact congrArg Except.error (Except.error.inj hr)

/-- The last value of a kind is one that was given. -/
theorem mem_of_lastOf {α : Type} {value? : Call → Option α} {calls : List Call} {a : α}
    (h : lastOf value? calls = some a) : ∃ c ∈ calls, value? c = some a :=
  List.mem_filterMap.1 (List.mem_of_getLast? h)

/-- The first day of a draft is a day that was given. -/
theorem mem_of_beginDate {calls : List Call} {date : Calendar.Date}
    (h : (ofCalls calls).beginDate = some date) : Call.beginDate date ∈ calls := by
  rw [ofCalls_eq] at h
  obtain ⟨c, hc, hvalue⟩ := mem_of_lastOf h
  cases c with
  | beginDate date' =>
    cases hvalue
    exact hc
  | _ => cases hvalue

/-- So is the last. -/
theorem mem_of_endDate {calls : List Call} {date : Calendar.Date}
    (h : (ofCalls calls).endDate = some date) : Call.endDate date ∈ calls := by
  rw [ofCalls_eq] at h
  obtain ⟨c, hc, hvalue⟩ := mem_of_lastOf h
  cases c with
  | endDate date' =>
    cases hvalue
    exact hc
  | _ => cases hvalue

/-- The days of an order are days that were given. -/
theorem hasDates_ofCalls {calls : List Call}
    (hdates : ∀ date, .beginDate date ∈ calls ∨ .endDate date ∈ calls →
      date.Valid ∧ 0 ≤ date.year) {o : Order} (ho : (ofCalls calls).order? = some o) :
    o.HasDates := by
  obtain ⟨hbegin, hend, -⟩ := order?_eq_some ho
  obtain ⟨hvalid, hyear⟩ := hdates _ (Or.inl (mem_of_beginDate hbegin))
  obtain ⟨hvalid', hyear'⟩ := hdates _ (Or.inr (mem_of_endDate hend))
  exact ⟨hvalid, hyear, hvalid', hyear'⟩

/-- **Building decides what it asks for, in a fixed order.** Only the last
value of each kind counts, whether the subject was made an authority, and
the alternative names, so that calls of different kinds may change places.
A certificate is built, and says what was asked for, if nothing speaks
against the draft; otherwise the error is the first fault, and what is
missing is what no call gave. -/
theorem build_ofCalls {calls : List Call} {h : Host}
    (hdates : ∀ date, .beginDate date ∈ calls ∨ .endDate date ∈ calls →
      date.Valid ∧ 0 ≤ date.year)
    (hsigns : ∀ o k, (ofCalls calls).order? = some o → (o.supply.obtain.runOn h).1 = .ok k →
      o.Signs k) :
    ofCalls calls = {
        subject := lastOf Call.subject? calls
        clusterId := lastOf Call.clusterId? calls
        scmId := lastOf Call.scmId? calls
        beginDate := lastOf Call.beginDate? calls
        endDate := lastOf Call.endDate? calls
        config := lastOf Call.config? calls
        key := lastOf Call.key? calls
        isCa := calls.any Call.isMakeCa
        san := calls.filterMap Call.altName? } ∧
      (∀ before c c' after, calls = before ++ c :: c' :: after → c.ctorIdx ≠ c'.ctorIdx →
        ofCalls (before ++ c' :: c :: after) = ofCalls calls) ∧
      (ofCalls calls).missing
        = (requirements.filter fun q => ∀ c ∈ calls, c.requirement? ≠ some q) ∧
      (ofCalls calls).build.run.Ends h fun r _ =>
        ((∃ c, r = .ok c) ↔ (ofCalls calls).IsAcceptable h) ∧
        (∀ e, r = .error e → ((ofCalls calls).faults h).head? = some e) ∧
        ∀ c, r = .ok c → ∃ o k, (ofCalls calls).order? = some o
          ∧ (o.supply.obtain.runOn h).1 = .ok k ∧ o.Says k c := by
  refine ⟨ofCalls_eq calls, fun before c c' after hcalls hkinds => ?_, missing_ofCalls calls, ?_⟩
  · rw [hcalls]
    exact (ofCalls_swap hkinds before after).symm
  · have hd : ∀ o, (ofCalls calls).order? = some o → o.HasDates := fun o ho =>
      hasDates_ofCalls hdates ho
    refine (ends_build hd h).mono fun r h' hr => ?_
    rw [← faults_eq_nil_iff]
    -- Whether anything is wrong with the draft decides: its first fault is the error, and
    -- without one the key has signed what the order says.
    cases hfaults : (ofCalls calls).faults h with
    | cons e faults =>
      rw [hfaults] at hr
      dsimp only at hr
      subst hr
      refine ⟨⟨fun hok => ?_, fun hnil => ?_⟩, fun e' he => ?_, fun c hok => ?_⟩
      · obtain ⟨c, hc⟩ := hok
        cases hc
      · cases hnil
      · rw [Except.error.inj he]
        rfl
      · cases hok
    | nil =>
      rw [hfaults] at hr
      obtain ⟨o, k, ho, hk, hsigned⟩ := hr
      have hyears : o.dateFaults = [] := by
        obtain ⟨o', ho', hacceptable⟩ := faults_eq_nil_iff.1 hfaults
        rw [ho] at ho'
        cases ho'
        exact o.dateFaults_eq_nil_iff.2 ⟨hacceptable.begin_year, hacceptable.end_year⟩
      obtain ⟨c, rfl, hsays⟩ := hsigned.says (hd o ho) hyears (hsigns o k ho hk)
      refine ⟨⟨fun _ => rfl, fun _ => ⟨c, rfl⟩⟩, fun e' he => ?_, fun c' hok => ?_⟩
      · cases he
      · cases hok
        exact ⟨o, k, ho, hk, hsays⟩

/-- An order for a certificate that holds for one year. -/
def yearOrder (supply : Key.Supply) : Order where
  subject := "scm-1"
  clusterId := "cluster"
  scmId := "storage"
  beginDate := ⟨2024, 1, 1⟩
  endDate := ⟨2024, 12, 31⟩
  config := { SecurityConfig.default with keyAlgorithm := .ed25519 }
  supply := supply
  isCa := true
  san := [.dns "scm.local"]

section Year

variable (supply : Key.Supply)

/-- Its days are days of the calendar, after the year zero. -/
theorem hasDates_yearOrder : (yearOrder supply).HasDates := by
  have hbegin : (⟨2024, 1, 1⟩ : Calendar.Date).Valid := by decide
  have hend : (⟨2024, 12, 31⟩ : Calendar.Date).Valid := by decide
  exact ⟨hbegin, Int.natCast_nonneg 2024, hend, Int.natCast_nonneg 2024⟩

theorem hasSize_yearOrder (serialNumber : SerialNumber) (h : serialNumber.bytes.length ≤ 8) :
    ((yearOrder supply).plan serialNumber).HasSize 64 := by
  have hsubject : (Text.Utf8.encode "scm-1".toList).length ≤ 64 := by decide +kernel
  have hcluster : (Text.Utf8.encode "cluster".toList).length ≤ 64 := by decide +kernel
  have hscm : (Text.Utf8.encode "storage".toList).length ≤ 64 := by decide +kernel
  have hsan : ([AltName.dns "scm.local"].map Plan.generalName).flatten.length ≤ 64 := by
    decide +kernel
  exact ⟨hsubject, hcluster, hscm, hsan, h.trans (by decide)⟩

/-- Nothing speaks against it, with a key of its algorithm. -/
theorem isAcceptable_yearOrder {k : KeyPair} (h : k.algorithm = .ed25519) :
    (yearOrder supply).IsAcceptable (.ok k) where
  texts := by
    have htexts : ∀ x ∈ [(Requirement.subject, "scm-1"), (.clusterId, "cluster"),
        (.scmId, "storage")], (x.2.toList.any fun c => !Text.isBlank c) = true := by decide +kernel
    intro field value hmem
    obtain ⟨c, hc, hnot⟩ := List.any_eq_true.1 (htexts _ hmem)
    exact ⟨c, hc, by simpa using hnot⟩
  before := by
    have hbefore : (⟨2024, 1, 1⟩ : Calendar.Date).Before ⟨2024, 12, 31⟩ := by decide
    exact hbefore
  days := by
    have hdays : (⟨2024, 12, 31⟩ : Calendar.Date).dayNumber - Calendar.Date.dayNumber ⟨2024, 1, 1⟩
        ≤ 1865 := by decide
    exact hdays
  key := ⟨k, rfl, h⟩
  begin_year := by
    have hyear : (2024 : Int) ≤ 9999 := by decide
    exact hyear
  end_year := by
    have hyear : (2024 : Int) ≤ 9999 := by decide
    exact hyear
  names := by
    intro name hmem
    have hname : AltName.dns name = .dns "scm.local" := List.mem_singleton.1 hmem
    cases hname
    have hascii : ("scm.local".toList.all fun c => c.toNat < 128) = true := by decide +kernel
    exact fun c hc => of_decide_eq_true (List.all_eq_true.1 hascii c hc)

theorem signs_yearOrder {k : KeyPair} (halgorithm : k.algorithm = .ed25519)
    (hlength : k.publicKey.length = 32) : (yearOrder supply).Signs k := by
  have hacceptable := isAcceptable_yearOrder supply halgorithm
  exact Order.signs_of_ed25519 (hasDates_yearOrder supply)
    ((yearOrder supply).dateFaults_eq_nil_iff.2 ⟨hacceptable.begin_year, hacceptable.end_year⟩)
    halgorithm (hlength.trans_le (by decide)) (hasSize_yearOrder supply) (by decide)

/-- **The certificate of that order is built** with every key of Ed25519. -/
theorem ends_build_yearOrder {d : Draft} (hd : d.order? = some (yearOrder supply)) {h : Host}
    {k : KeyPair} (hk : (supply.obtain.runOn h).1 = .ok k) (halgorithm : k.algorithm = .ed25519)
    (hlength : k.publicKey.length = 32) : d.build.run.Ends h fun r _ => ∃ c, r = .ok c := by
  have hdates : ∀ o, d.order? = some o → o.HasDates := by
    intro o ho
    rw [hd] at ho
    cases ho
    exact hasDates_yearOrder supply
  have hacceptable := isAcceptable_yearOrder supply halgorithm
  have hfaults : d.faults h = [] := by
    refine faults_eq_nil_iff.2 ⟨yearOrder supply, hd, ?_⟩
    rw [← hk] at hacceptable
    exact hacceptable
  refine (ends_build hdates h).mono fun r h' hr => ?_
  rw [hfaults] at hr
  obtain ⟨o, k', ho, hk', hsigned⟩ := hr
  rw [hd] at ho
  cases ho
  have hsame : k' = k := Except.ok.inj (hk'.symm.trans hk)
  subst hsame
  obtain ⟨c, hc, -⟩ := hsigned.says (hasDates_yearOrder supply)
    ((yearOrder supply).dateFaults_eq_nil_iff.2 ⟨hacceptable.begin_year, hacceptable.end_year⟩)
    (signs_yearOrder supply halgorithm hlength)
  exact ⟨c, hc⟩

end Year

/-- Calls that order a new key, the subject after a mistake. -/
def yearCalls : List Call :=
  [.subject " ", .makeCa, .clusterId "cluster", .subject "scm-1", .scmId "storage",
    .endDate ⟨2024, 12, 31⟩, .beginDate ⟨2024, 1, 1⟩,
    .config { SecurityConfig.default with keyAlgorithm := .ed25519 }, .altName (.dns "scm.local"),
    .key (.generator .ed25519)]

/-- A host with nothing on it. -/
def bareHost : Host where
  tree := .empty []
  today := ⟨2024, 1, 1⟩
  entropy := fun _ _ => []

/-- These calls make a year's order: the second subject counts. -/
theorem order?_yearCalls : (ofCalls yearCalls).order? = some (yearOrder (.generator .ed25519)) := rfl

/-- The dates that they give are days of the calendar. -/
theorem dates_yearCalls (date : Calendar.Date)
    (h : .beginDate date ∈ yearCalls ∨ .endDate date ∈ yearCalls) :
    date.Valid ∧ 0 ≤ date.year := by
  have hdate : date = ⟨2024, 1, 1⟩ ∨ date = ⟨2024, 12, 31⟩ := by
    simpa [yearCalls] using h
  rcases hdate with rfl | rfl
  · decide
  · decide

/-- **The certificate that these calls ask for is built**, whatever key is
made. -/
theorem build_yearCalls : ∃ c, ((ofCalls yearCalls).build.runOn bareHost).1 = .ok c := by
  obtain ⟨k, hk, halgorithm, hlength⟩ := Key.Supply.obtain_ed25519 bareHost
  have hacceptable := isAcceptable_yearOrder (.generator .ed25519) halgorithm
  have hbuild := build_ofCalls (h := bareHost) dates_yearCalls (by
    intro o k' ho hk'
    rw [order?_yearCalls] at ho
    cases ho
    have hsame : k' = k := Except.ok.inj (hk'.symm.trans hk)
    subst hsame
    exact signs_yearOrder _ halgorithm hlength)
  refine hbuild.2.2.2.1.2 ⟨_, order?_yearCalls, ?_⟩
  rw [← hk] at hacceptable
  exact hacceptable

end Draft

end CertAuthority
