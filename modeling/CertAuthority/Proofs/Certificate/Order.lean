import CertAuthority.Certificate.Draft
import CertAuthority.Proofs.Calendar.Date
import CertAuthority.Proofs.Certificate.Size
import CertAuthority.Proofs.Key.Ed25519

/-!
# What becomes of an order

What speaks against an order is a list of faults in a fixed order
(`Order.faults`), and making the certificate ends with the first of them
(`Order.ends_fill`). If there is none the key signs, and the certificate can
be read back and says what was ordered (`Order.Signed.says`).

The list is written down as one would look for faults on paper: each check
goes over all that it is about and notes whatever is wrong. The checks
themselves stop at the first thing that is wrong, and each of them is shown to
give the first fault of its part of the list (`checkTexts_eq` to
`checkAltName_eq`). Since the first fault of two lists is that of the first
list, or else of the second (`firstFault_append`), the whole comes out as it
should, and "nothing speaks against it" can be said once, as a list that is
empty and as conditions on the order (`faults_eq_nil_iff`).

The key is had after the texts and the window were looked at and before the
dates and names are, which is why it stands in the middle of the list.
-/

namespace CertAuthority

open Program (Ends)

/-! ## Faults

What may speak against an order is listed in the order of the checks: blank
values, the window, the key, the dates and the names. Each part of the list
belongs to one check. -/

/-- The outcome of checks that found the given faults: they end with the first.
-/
def firstFault : List Error → Except Error Unit
  | [] => .ok ()
  | e :: _ => .error e

/-- Checks that are made one after another find the first fault of all of them.
-/
theorem firstFault_append (a b : List Error) :
    firstFault (a ++ b) = (firstFault a >>= fun _ => firstFault b) := by
  cases a with
  | nil => rfl
  | cons e a => rfl

theorem firstFault_eq_ok {faults : List Error} (h : firstFault faults = .ok ()) : faults = [] := by
  cases faults with
  | nil => rfl
  | cons e faults => cases h

/-- A check of one condition finds nothing just when that holds. -/
theorem fault_eq_nil_iff {p : Prop} [Decidable p] {e : Error} :
    (if p then [] else [e]) = [] ↔ p := by
  by_cases hp : p
  · rw [if_pos hp]
    exact ⟨fun _ => hp, fun _ => rfl⟩
  · rw [if_neg hp]
    refine ⟨fun h => ?_, fun h => absurd h hp⟩
    cases h

namespace Order

variable (o : Order)

/-- The values that are blank, each with the field it is for. -/
def blankFaults : List Error :=
  o.texts.filterMap fun (field, value) =>
    if value.toList.all Text.isBlank then some (.configuration (.blank field)) else none

/-- A window that is empty, or too long. It may be both, but the first of these
is what counts. -/
def windowFaults : List Error :=
  (if o.beginDate.Before o.endDate then []
    else [.validity (.notAfter o.endDate o.beginDate)]) ++
  (if o.days ≤ o.config.maxDays then [] else [.validity (.tooLong o.days o.config.maxDays)])

/-- A key that could not be had, or is for another algorithm than the configured
one. -/
def keyFaults : Except Error KeyPair → List Error
  | .error e => [e]
  | .ok k =>
    if k.algorithm = o.config.keyAlgorithm then []
    else [.configuration (.algorithmMismatch k.algorithm o.config.keyAlgorithm)]

/-- The dates whose years have more than four digits. Those can be ordered, but
not be written in a certificate. -/
def dateFaults : List Error :=
  [o.beginDate, o.endDate].filterMap fun d =>
    if d.year ≤ 9999 then none else some (.validity (.outOfRange d))

/-- What speaks against an alternative name: a host name that is not of the
basic alphabet. -/
def nameFault? : AltName → Option Error
  | .dns name =>
    if name.toList.all fun c => c.toNat < 128 then none else some (.configuration (.dnsName name))
  | .ip _ => none

/-- **What speaks against an order**, given the key or why there is none,
in the order in which it is looked for. -/
def faults (key : Except Error KeyPair) : List Error :=
  o.blankFaults ++ o.windowFaults ++ (o.keyFaults key ++ (o.dateFaults ++ o.san.filterMap nameFault?))

/-- **An order that nothing speaks against**, if this is the key that comes of
its supply. Whether the key can sign is not among the conditions, as nothing
checks it beforehand. -/
structure IsAcceptable (o : Order) (key : Except Error KeyPair) : Prop where
  /-- No value is of blanks only. -/
  texts : ∀ field value, (field, value) ∈ o.texts → ∃ c ∈ value.toList, ¬ Text.isBlank c
  /-- The first day comes before the last. -/
  before : o.beginDate.Before o.endDate
  /-- The window is not too long. -/
  days : o.days ≤ o.config.maxDays
  /-- The key is had, and is for the configured algorithm. -/
  key : ∃ k, key = .ok k ∧ k.algorithm = o.config.keyAlgorithm
  /-- The year of the first day has no more than four digits. -/
  begin_year : o.beginDate.year ≤ 9999
  /-- Nor has the year of the last. -/
  end_year : o.endDate.year ≤ 9999
  /-- Host names are of the basic alphabet. -/
  names : ∀ name, .dns name ∈ o.san → ∀ c ∈ name.toList, c.toNat < 128

/-- No value is blank if each has a character that is not. -/
theorem blankFaults_eq_nil_iff :
    o.blankFaults = [] ↔
      ∀ field value, (field, value) ∈ o.texts → ∃ c ∈ value.toList, ¬ Text.isBlank c := by
  unfold blankFaults
  rw [List.filterMap_eq_nil_iff]
  refine ⟨fun h field value hmem => ?_, fun h x hmem => ?_⟩
  · by_contra hblank
    push Not at hblank
    have hnone := h _ hmem
    dsimp only at hnone
    rw [if_pos (List.all_eq_true.2 hblank)] at hnone
    cases hnone
  · obtain ⟨field, value⟩ := x
    obtain ⟨c, hc, hnot⟩ := h field value hmem
    exact if_neg fun hblank => hnot (List.all_eq_true.1 hblank c hc)

/-- A window is at fault unless it goes forward, and no further than it may. -/
theorem windowFaults_eq_nil_iff :
    o.windowFaults = [] ↔ o.beginDate.Before o.endDate ∧ o.days ≤ o.config.maxDays := by
  unfold windowFaults
  rw [List.append_eq_nil_iff, fault_eq_nil_iff, fault_eq_nil_iff]

/-- A key is at fault unless it is had and is of the configured algorithm. -/
theorem keyFaults_eq_nil_iff {key : Except Error KeyPair} :
    o.keyFaults key = [] ↔ ∃ k, key = .ok k ∧ k.algorithm = o.config.keyAlgorithm := by
  cases key with
  | error e =>
    refine ⟨fun h => ?_, fun h => ?_⟩
    · cases h
    · obtain ⟨k, hk, -⟩ := h
      cases hk
  | ok k =>
    unfold keyFaults
    dsimp only
    rw [fault_eq_nil_iff]
    refine ⟨fun h => ⟨k, rfl, h⟩, fun h => ?_⟩
    obtain ⟨k', hk, halgorithm⟩ := h
    cases hk
    exact halgorithm

theorem dateFaults_eq_nil_iff :
    o.dateFaults = [] ↔ o.beginDate.year ≤ 9999 ∧ o.endDate.year ≤ 9999 := by
  have hyear : ∀ d : Calendar.Date, (if d.year ≤ 9999 then none
      else some (Error.validity (.outOfRange d))) = none ↔ d.year ≤ 9999 := by
    intro d
    by_cases hlate : d.year ≤ 9999
    · exact iff_of_true (if_pos hlate) hlate
    · refine iff_of_false (fun h => ?_) hlate
      rw [if_neg hlate] at h
      cases h
  unfold dateFaults
  rw [List.filterMap_eq_nil_iff, List.forall_mem_cons, List.forall_mem_singleton, hyear, hyear]

/-- Host names are at fault unless all of them are of the basic alphabet.
Addresses never are. -/
theorem nameFaults_eq_nil_iff :
    o.san.filterMap nameFault? = [] ↔
      ∀ name, .dns name ∈ o.san → ∀ c ∈ name.toList, c.toNat < 128 := by
  rw [List.filterMap_eq_nil_iff]
  refine ⟨fun h name hmem => ?_, fun h n hmem => ?_⟩
  · have hnone := h _ hmem
    unfold nameFault? at hnone
    dsimp only at hnone
    split_ifs at hnone with hascii
    intro c hc
    exact of_decide_eq_true (List.all_eq_true.1 hascii c hc)
  · cases n with
    | ip address => rfl
    | dns name => exact if_pos (List.all_eq_true.2 fun c hc => decide_eq_true (h name hmem c hc))

/-- **There is no fault in an order that nothing speaks against**, and in no
other. -/
theorem faults_eq_nil_iff {key : Except Error KeyPair} :
    o.faults key = [] ↔ o.IsAcceptable key := by
  unfold faults
  rw [List.append_eq_nil_iff, List.append_eq_nil_iff, List.append_eq_nil_iff,
    List.append_eq_nil_iff, blankFaults_eq_nil_iff, windowFaults_eq_nil_iff, keyFaults_eq_nil_iff,
    dateFaults_eq_nil_iff, nameFaults_eq_nil_iff]
  constructor
  · rintro ⟨⟨htexts, hbefore, hdays⟩, hkey, ⟨hbegin, hend⟩, hnames⟩
    exact ⟨htexts, hbefore, hdays, hkey, hbegin, hend, hnames⟩
  · intro h
    exact ⟨⟨h.texts, h.before, h.days⟩, h.key, ⟨h.begin_year, h.end_year⟩, h.names⟩

/-! ## Checks find the first fault

A check that fails does so with the first fault of its part of the list, and
one that passes has found the part empty. In this way the first error of a row
of checks is the head of the lists set one after another. -/

/-- The check of the values finds the first one that is blank. -/
theorem checkTexts_eq : o.checkTexts = firstFault o.blankFaults := by
  unfold checkTexts blankFaults
  induction o.texts with
  | nil => rfl
  | cons x xs ih =>
    obtain ⟨field, value⟩ := x
    rw [List.find?_cons, List.filterMap_cons]
    dsimp only
    have hsame : Text.isBlankText value = value.toList.all Text.isBlank := rfl
    cases hblank : value.toList.all Text.isBlank with
    | true =>
      rw [hsame, hblank]
      rfl
    | false =>
      rw [hsame, hblank]
      exact ih

variable {o}

/-- The check of the window compares numbers of days, which for days of the
calendar is to compare dates. -/
theorem checkWindow_eq (hbegin : o.beginDate.Valid) (hend : o.endDate.Valid) :
    o.checkWindow = firstFault o.windowFaults := by
  have hbefore : o.beginDate.Before o.endDate ↔ 0 < o.days := by
    rw [← Calendar.Date.dayNumber_lt_iff hbegin hend, days, Int.sub_pos]
  unfold checkWindow windowFaults
  by_cases hdays : o.days ≤ 0
  · rw [if_pos hdays, if_neg (fun h => absurd (hbefore.1 h) (Int.not_lt.2 hdays))]
    rfl
  · rw [if_neg hdays, if_pos (hbefore.2 (Int.not_le.1 hdays))]
    by_cases hlong : o.config.maxDays < o.days
    · rw [if_pos hlong, if_neg (Int.not_le.2 hlong)]
      rfl
    · rw [if_neg hlong, if_pos (Int.not_lt.1 hlong)]
      rfl

theorem checkKey_eq (k : KeyPair) : o.checkKey k = firstFault (o.keyFaults (.ok k)) := by
  unfold checkKey keyFaults
  dsimp only
  split_ifs
  · rfl
  · rfl

/-- The check of a date is that it can be written. -/
theorem checkDate_eq {d : Calendar.Date} (hyear : 0 ≤ d.year) :
    checkDate d = firstFault (if d.year ≤ 9999 then [] else [.validity (.outOfRange d)]) := by
  unfold checkDate
  by_cases hlate : d.year ≤ 9999
  · rw [if_pos ⟨hyear, hlate⟩, if_pos hlate]
    rfl
  · rw [if_neg (fun h => hlate h.2), if_neg hlate]
    rfl

/-- The check of a name finds what speaks against it. -/
theorem checkAltName_eq (n : AltName) : checkAltName n = firstFault (nameFault? n).toList := by
  cases n with
  | ip address => rfl
  | dns name =>
    unfold checkAltName nameFault? isAscii
    dsimp only
    split_ifs
    · rfl
    · rfl

theorem forM_checkAltName (san : List AltName) :
    san.forM checkAltName = firstFault (san.filterMap nameFault?) := by
  induction san with
  | nil => rfl
  | cons n san ih =>
    show (checkAltName n >>= fun _ => san.forM checkAltName) = _
    rw [checkAltName_eq, ih, ← firstFault_append, List.filterMap_cons]
    cases nameFault? n with
    | none => rfl
    | some e => rfl

/-- What is checked once the key is there are the dates and then the names. -/
theorem checkWritable_eq (hbegin : 0 ≤ o.beginDate.year) (hend : 0 ≤ o.endDate.year) :
    o.checkWritable = firstFault (o.dateFaults ++ o.san.filterMap nameFault?) := by
  have hdates : o.dateFaults
      = (if o.beginDate.year ≤ 9999 then [] else [.validity (.outOfRange o.beginDate)])
        ++ if o.endDate.year ≤ 9999 then [] else [.validity (.outOfRange o.endDate)] := by
    unfold dateFaults
    rw [List.filterMap_cons, List.filterMap_cons, List.filterMap_nil]
    split_ifs
    · rfl
    · rfl
    · rfl
    · rfl
  rw [hdates, firstFault_append, firstFault_append, ← checkDate_eq hbegin, ← checkDate_eq hend,
    ← forM_checkAltName]
  unfold checkWritable
  rw [bind_assoc]

/-- What is checked before are the values and then the window. -/
theorem check_eq (hbegin : o.beginDate.Valid) (hend : o.endDate.Valid) :
    o.check = firstFault (o.blankFaults ++ o.windowFaults) := by
  rw [firstFault_append, ← checkTexts_eq, ← checkWindow_eq hbegin hend]
  rfl

/-! ## Making the certificate

Once all checks are passed the serial number is drawn and the key signs. The
result is read back before it is handed out, which succeeds if it is of a size
that can be written. -/

/-- **An order with dates of the calendar**, none before the year zero. The
calendar goes further back than that, and the dates of a certificate do not. -/
structure HasDates (o : Order) : Prop where
  /-- The first day is one. -/
  begin_valid : o.beginDate.Valid
  /-- It is not before the year zero. -/
  begin_year : 0 ≤ o.beginDate.year
  /-- The last day is one. -/
  end_valid : o.endDate.Valid
  /-- It is not before the year zero. -/
  end_year : 0 ≤ o.endDate.year

/-- **The key is had and is the right one**, or there is a fault. -/
theorem ends_key (o : Order) (h : Host) :
    o.key.run.Ends h fun r _ => r = (firstFault (o.keyFaults (o.supply.obtain.runOn h).1)
      >>= fun _ => (o.supply.obtain.runOn h).1) := by
  unfold key
  have hobtain : o.supply.obtain.run.Ends h fun r _ => r = (o.supply.obtain.runOn h).1 := rfl
  refine hobtain.run_bind (fun k h' hr => ?_) fun e h' hr => ?_
  · have hcheck : (Action.ofExcept (o.checkKey k)).run.Ends h' fun r _ =>
        r = firstFault (o.keyFaults (.ok k)) := checkKey_eq k
    rw [← hr]
    refine hcheck.run_bind (fun u h'' hr' => ?_) fun e h'' hr' => ?_
    · rw [← hr']
      rfl
    · rw [← hr']
      rfl
  · rw [← hr]
    rfl

/-- How an order without faults ends: with the certificate that the key
signs, if it signs. -/
def Signed (o : Order) (k : KeyPair) (r : Except Error Certificate) : Prop :=
  ∃ entropy, match (o.plan (serialOfEntropy entropy)).sign? k with
    | none => r = .error (.encoding .notSigned)
    | some der => r = Certificate.ofDer der

/-- To note that a certificate was read changes nothing about it. -/
theorem ends_parsed (r : Except Error Certificate) (h : Host) :
    (Action.parsed r).run.Ends h fun r' _ => r' = r := by
  cases r with
  | ok c => rfl
  | error e => rfl

/-- The certificate is signed and read back, unless it cannot be written. -/
theorem ends_certify (o : Order) (k : KeyPair) (h : Host) :
    (o.certify k).run.Ends h fun r _ =>
      match o.checkWritable with
      | .error e => r = .error e
      | .ok () => o.Signed k r := by
  unfold certify
  have hrandom : (Program.request (.random serialSize)).Ends h fun _ _ => True := trivial
  refine hrandom.run_lift_bind fun entropy h' _ => ?_
  have hwritable : (Action.ofExcept o.checkWritable).run.Ends h' fun r _ => r = o.checkWritable :=
    rfl
  refine hwritable.run_bind (fun u h'' hr => ?_) fun e h'' hr => ?_
  · rw [← hr]
    unfold Signed
    cases hder : (o.plan (serialOfEntropy entropy)).sign? k with
    | none => 
      refine ⟨entropy, ?_⟩
      rw [hder]
      rfl
    | some der =>
      refine (ends_parsed (Certificate.ofDer der) h'').run_bind (fun c h₁ hc => ?_) fun e h₁ he => ?_
      · refine ⟨entropy, ?_⟩
        rw [hder]
        exact hc
      · refine ⟨entropy, ?_⟩
        rw [hder]
        exact he
  · rw [← hr]

/-- **An order ends with its first fault**, or with the certificate that the key
signs. The key is whatever the supply has for the host. -/
theorem ends_fill {o : Order} (ho : o.HasDates) (h : Host) :
    o.fill.run.Ends h fun r _ =>
      match o.faults (o.supply.obtain.runOn h).1 with
      | e :: _ => r = .error e
      | [] => ∃ k, (o.supply.obtain.runOn h).1 = .ok k ∧ o.Signed k r := by
  have hcheck : (Action.ofExcept o.check).run.Ends h fun r h' =>
      r = firstFault (o.blankFaults ++ o.windowFaults) ∧ h' = h :=
    ⟨check_eq ho.begin_valid ho.end_valid, rfl⟩
  unfold fill faults
  -- Faults are listed in the order of the checks, and a check that is passed drops its own
  -- from the front of the list.
  refine hcheck.run_bind (fun u h' hr => ?_) fun e h' hr => ?_
  · obtain ⟨hr, rfl⟩ := hr
    rw [firstFault_eq_ok hr.symm, List.nil_append]
    refine (o.ends_key h').run_bind (fun k h'' hr' => ?_) fun e h'' hr' => ?_
    · refine (o.ends_certify k h'').mono fun r h₁ hr => ?_
      rw [checkWritable_eq ho.begin_year ho.end_year] at hr
      cases hkey : o.keyFaults (o.supply.obtain.runOn h').1 with
      | cons e faults =>
        rw [hkey] at hr'
        cases hr'
      | nil =>
        rw [hkey] at hr'
        rw [List.nil_append]
        cases hrest : o.dateFaults ++ o.san.filterMap nameFault? with
        | cons e faults =>
          rw [hrest] at hr
          exact hr
        | nil =>
          rw [hrest] at hr
          exact ⟨k, hr'.symm, hr⟩
    · cases hobtain : (o.supply.obtain.runOn h').1 with
      | ok k =>
        rw [hobtain] at hr'
        cases hkey : o.keyFaults (.ok k) with
        | cons e' faults =>
          rw [hkey] at hr'
          rw [List.cons_append]
          exact congrArg Except.error (Except.error.inj hr')
        | nil =>
          rw [hkey] at hr'
          cases hr'
      | error e' =>
        have hkey : o.keyFaults (.error e') = [e'] := rfl
        rw [hobtain, hkey] at hr'
        rw [hkey, List.singleton_append]
        exact congrArg Except.error (Except.error.inj hr')
  · cases hfaults : o.blankFaults ++ o.windowFaults with
    | cons e' faults =>
      rw [hfaults] at hr
      rw [List.cons_append]
      exact congrArg Except.error (Except.error.inj hr.1)
    | nil =>
      rw [hfaults] at hr
      cases hr.1

/-- **A key that signs what an order asks for**, with no more bytes than can
be counted. -/
def Signs (o : Order) (k : KeyPair) : Prop :=
  ∀ entropy, ∃ der, (o.plan (serialOfEntropy entropy)).sign? k = some der ∧ Der.IsSized der

/-- **What a certificate that was made for an order says**: what the order
asks for, under the key, with a serial number of its own. -/
def Says (o : Order) (k : KeyPair) (c : Certificate) : Prop :=
  ∃ entropy signature,
    let plan := o.plan (serialOfEntropy entropy)
    k.sign? (plan.statement k.algorithm k.publicKey) = some signature
      ∧ c.der = Plan.signed (plan.statement k.algorithm k.publicKey) k.algorithm signature
      ∧ c.facts = plan.facts k.algorithm k.publicKey signature

/-- An order with dates that can be written has a plan that can. -/
theorem isWritable_plan {o : Order} (ho : o.HasDates) (hyears : o.dateFaults = [])
    (serialNumber : SerialNumber) : (o.plan serialNumber).IsWritable := by
  obtain ⟨hbegin, hend⟩ := o.dateFaults_eq_nil_iff.1 hyears
  exact ⟨ho.begin_valid, ⟨ho.begin_year, hbegin⟩, ho.end_valid, ⟨ho.end_year, hend⟩⟩

/-- **A signed certificate can be read back**, and then says what was ordered.
For that its length has to be one that can be counted. -/
theorem Signed.says {o : Order} (ho : o.HasDates) (hyears : o.dateFaults = []) {k : KeyPair}
    (hsigns : o.Signs k) {r : Except Error Certificate} (hr : o.Signed k r) :
    ∃ c, r = .ok c ∧ o.Says k c := by
  obtain ⟨entropy, hr⟩ := hr
  obtain ⟨der, hder, hsized⟩ := hsigns entropy
  rw [hder] at hr
  obtain ⟨signature, hsignature, rfl⟩ := Option.map_eq_some_iff.1 hder
  have hfacts := Plan.ofDer_signed (isWritable_plan ho hyears _) hsized.content
  refine ⟨⟨_, _, hfacts⟩, ?_, entropy, signature, hsignature, rfl, rfl⟩
  rw [hr]
  exact Certificate.ofDer_eq_ok_iff.2 rfl

/-! ## Keys that sign -/

/-- Serial numbers that are drawn have eight bytes at most. -/
theorem length_serialOfEntropy (entropy : Bytes) : (serialOfEntropy entropy).bytes.length ≤ 8 := by
  have hlow : Bytes.toNat entropy % Nat.pow 256 serialSize < 256 ^ 8 := Nat.mod_lt _ (by decide)
  have hsmall : max 1 (Bytes.toNat entropy % Nat.pow 256 serialSize / 2) < 256 ^ 8 :=
    max_lt (by decide) ((Nat.div_le_self _ 2).trans_lt hlow)
  exact (List.dropWhile_sublist _).length_le.trans (Bytes.length_ofNat_le hsmall)

/-- **Keys of Ed25519 sign everything.** -/
theorem signs_of_ed25519 {o : Order} {k : KeyPair} {n : Nat} (ho : o.HasDates)
    (hyears : o.dateFaults = []) (halgorithm : k.algorithm = .ed25519)
    (hkey : k.publicKey.length ≤ n)
    (hsize : ∀ serialNumber, serialNumber.bytes.length ≤ 8 → (o.plan serialNumber).HasSize n)
    (hn : 64 ≤ n ∧ n ≤ 2 ^ 48) : o.Signs k := by
  intro entropy
  unfold Plan.sign?
  dsimp only
  rw [KeyPair.sign?_ed25519 halgorithm]
  refine ⟨_, rfl, Plan.isSized_signed (isWritable_plan ho hyears _)
    (hsize _ (length_serialOfEntropy entropy)) hkey ?_ hn.2⟩
  rw [Crypto.Ed25519.length_sign]
  exact hn.1

end Order

end CertAuthority
