import CertAuthority.Command.Generate
import CertAuthority.Proofs.Program.Run
import CertAuthority.Proofs.Store.Location

/-!
# Making a certificate

Before `generate` stores anything it makes a certificate and a key. It looks
at files for that and changes none (`looks_make`), and what it has made is to
go where the request and the configuration say (`ends_make`), which is into
the directory of a component (`Made.IsFor.isPlaced`). If it fails, it is for
the reason of one of its steps and not because of a report
(`failsEarly_make`).

Every step is taken by itself, in the order in which `make` takes it: the
component is settled, then where the two files go, then whether they may go
there, and only then is anything drawn, signed or asked of a source of keys.
The three kinds of facts go side by side along these steps. What the steps ask
comes first (`Asks`, `Looks`), for every host and without a run; then what
they end with, on a host; and last, with what failures. The commands that
store and report rely on these lemmas alone, and none of them opens `make`
again.
-/

namespace CertAuthority

open Program (Asks Ends)

/-! ## Making a certificate changes no file

Programs are put together of parts, and what a part asks for is known of the
part. So there is one lemma for each part, in the order in which they are
called, and the last one is about the whole. What is prepared has a name of
its own, because it does not even draw random bytes. -/

/-- A key is drawn or asked for, and files have no part in that. -/
theorem Key.Supply.looks_obtain (s : Key.Supply) : s.obtain.run.Looks := by
  cases s with
  | pair k => trivial
  | generator algorithm =>
    have hgenerate : (KeyPair.generate algorithm).run.Looks := by
      refine Program.Looks.run_bind (Program.Looks.run_request rfl) fun entropy => ?_
      cases KeyPair.ofEntropy? algorithm entropy with
      | some k => trivial
      | none => trivial
    exact hgenerate.run_bind fun k => Program.Looks.run_note.run_bind fun _ => trivial
  | outside => exact Program.Looks.request rfl

/-- A serial number is drawn, and a certificate is signed. -/
theorem Order.looks_certify (o : Order) (k : KeyPair) : (o.certify k).run.Looks := by
  unfold certify
  refine Program.Looks.run_bind (Program.Looks.run_request rfl) fun entropy => ?_
  refine Program.Looks.run_bind trivial fun _ => ?_
  cases (o.plan (serialOfEntropy entropy)).sign? k with
  | none => trivial
  | some der =>
    have hparsed : (Action.parsed (Certificate.ofDer der)).run.Looks := by
      refine Program.Looks.run_bind trivial fun c => ?_
      exact Program.Looks.run_note.run_bind fun _ => trivial
    exact hparsed.run_bind fun c => Program.Looks.run_note.run_bind fun _ => trivial

/-- **Building a certificate** asks nothing about files. -/
theorem Draft.looks_build (d : Draft) : d.build.run.Looks := by
  refine Program.Looks.run_bind trivial fun o => ?_
  refine Program.Looks.run_bind trivial fun _ => ?_
  have hkey : o.key.run.Looks := by
    refine o.supply.looks_obtain.run_bind fun k => ?_
    exact Program.Looks.run_bind trivial fun _ => trivial
  exact hkey.run_bind fun k => o.looks_certify k

/-- Settling a component is a matter of its label, and leaves notes. -/
theorem Store.Component.asks_resolve {P : Request → Prop} (hnote : ∀ e, P (.note e))
    (config : SecurityConfig) (label : String) : (resolve config label).run.Asks P :=
  Asks.run_bind trivial fun _ => (Program.asks_note (hnote _)).run_bind fun _ => trivial

theorem Store.Component.looks_resolve (config : SecurityConfig) (label : String) :
    (resolve config label).run.Looks :=
  asks_resolve (fun _ => rfl) config label

namespace Command

open Store (Component Location)

section Asks

variable {P : Request → Prop}

theorem asks_ofExcept {α : Type} (r : Except Error α) : (ExceptT.run (ofExcept r)).Asks P :=
  Asks.run_ofAction trivial

theorem asks_targets (r : GenerateRequest) (component : Component) :
    (ExceptT.run (targets r component)).Asks P := by
  unfold targets
  dsimp only
  split_ifs
  · trivial
  · trivial

/-- To make sure that a file can be new takes one look. -/
theorem asks_requireVacant (hkind : ∀ p, P (.kind p)) (l : Location) :
    (ExceptT.run (requireVacant l)).Asks P := by
  refine (asks_ofExcept _).run_bind fun path => ?_
  refine Asks.run_bind (Asks.run_lift (Program.asks_request (hkind _))) fun found => ?_
  split_ifs
  · trivial
  · trivial

/-- **Making sure of the targets** takes looks: one at each, unless what is
there may be replaced. -/
theorem asks_requireTargets (hkind : ∀ p, P (.kind p)) (force : Bool)
    (certificate key : Location) : (ExceptT.run (requireTargets force certificate key)).Asks P := by
  unfold requireTargets
  split_ifs
  · trivial
  · refine (asks_ofExcept _).run_bind fun _ => (asks_ofExcept _).run_bind fun _ => ?_
    exact (asks_requireVacant hkind certificate).run_bind fun _ => asks_requireVacant hkind key

/-- **What comes before a certificate is made**: the component is settled and
where both files go, and that they can go there. -/
def prepare (config : SecurityConfig) (label : String) (r : GenerateRequest) :
    Command (Component × Location × Location) := do
  let component ← ofAction (Component.resolve (r.effectiveConfig config) label)
  let locations ← targets r component
  requireTargets r.force locations.1 locations.2
  return (component, locations)

/-- **Making is preparing and then issuing**, so that what is so of both parts
is so of it. -/
theorem make_eq (config : SecurityConfig) (label : String) (r : GenerateRequest) :
    make config label r = prepare config label r >>= fun settled =>
      issue (r.effectiveConfig config) r settled.1 settled.2.1 settled.2.2 := by
  unfold make prepare
  simp only [bind_assoc, pure_bind]

/-- **Preparing** takes looks, and leaves notes. Nothing is drawn before the
targets are known to be free. -/
theorem asks_prepare (hkind : ∀ p, P (.kind p)) (hnote : ∀ e, P (.note e))
    (config : SecurityConfig) (label : String) (r : GenerateRequest) :
    (ExceptT.run (prepare config label r)).Asks P := by
  refine (Asks.run_ofAction (Component.asks_resolve hnote _ label)).run_bind fun component => ?_
  refine (asks_targets r component).run_bind fun locations => ?_
  exact (asks_requireTargets hkind _ _ _).run_bind fun _ => trivial

end Asks

theorem looks_endDate (beginDate : Calendar.Date) (days : Nat) :
    (ExceptT.run (endDate beginDate days)).Looks := by
  unfold endDate
  cases beginDate.addDays? days with
  | none => trivial
  | some d => trivial

/-- Issuing asks for the day, for random bytes and for a key, none of which is a
change to files. -/
theorem looks_issue (config : SecurityConfig) (r : GenerateRequest) (component : Component)
    (certificate key : Location) :
    (ExceptT.run (issue config r component certificate key)).Looks := by
  refine Program.Looks.run_bind (Program.Looks.run_request rfl) fun today => ?_
  refine (looks_endDate _ _).run_bind fun last => ?_
  refine (Key.Supply.looks_obtain _).run_ofAction.run_bind fun k => ?_
  exact (Draft.looks_build _).run_ofAction.run_bind fun c => trivial

/-- **Making a certificate** asks for no change to files. -/
theorem looks_make (config : SecurityConfig) (label : String) (r : GenerateRequest) :
    (ExceptT.run (make config label r)).Looks := by
  rw [make_eq]
  exact (asks_prepare (fun _ => rfl) (fun _ => rfl) config label r).run_bind fun _ =>
    looks_issue _ _ _ _ _

/-! ## What was made

What was made carries its locations along. Where they come from matters later,
when the files are written: both are in the directory of one component,
whatever name the request gives for the certificate. -/

/-- The location that the certificate is to go to: the file that was named in
the request, or else the component's own. -/
def GenerateRequest.certificateLocation (r : GenerateRequest) (c : Component) : Location :=
  (r.fileName.map c.locationFor).getD c.certificateLocation

/-- **What was made for a request**: it is to go where the request and the
configuration say. -/
structure Made.IsFor (m : Made) (config : SecurityConfig) (label : String) (r : GenerateRequest) :
    Prop where
  /-- The component is the configured one. -/
  component : Component.ofConfig config label = .ok m.component
  /-- The certificate goes to the file that was asked for. -/
  certificate : m.certificateLocation = r.certificateLocation m.component
  /-- The key goes to the component's own file. -/
  key : m.keyLocation = m.component.keyLocation

/-- **A component of the store, and where its files go.** Whatever the file of
the certificate is called, it is beside that of the key, and this is all that
storing the two has to know. -/
structure Made.IsPlaced (m : Made) : Prop where
  /-- The directory is a name below another. -/
  directory : Path.EndsInName m.component.directory
  /-- The certificate goes there. -/
  certificate : m.certificateLocation.directory = m.component.directory
  /-- So does the key. -/
  key : m.keyLocation.directory = m.component.directory

/-- Wherever in the directory of the component, it is in that directory. -/
theorem GenerateRequest.directory_certificateLocation (r : GenerateRequest) (c : Component) :
    (r.certificateLocation c).directory = c.directory := by
  unfold certificateLocation
  cases r.fileName with
  | none => rfl
  | some name => rfl

/-- **What was made for a request is placed**: both files are to go into the
directory of one component. -/
theorem Made.IsFor.isPlaced {m : Made} {config : SecurityConfig} {label : String}
    {r : GenerateRequest} (h : m.IsFor config label r) : m.IsPlaced := by
  refine ⟨Component.endsInName_directory h.component, ?_, ?_⟩
  · rw [h.certificate, r.directory_certificateLocation]
  · rw [h.key]
    rfl

theorem ends_resolve (config : SecurityConfig) (label : String) (h : Host) :
    (Component.resolve config label).run.Ends h fun result _ =>
      ∀ component, result = .ok component → Component.ofConfig config label = .ok component := by
  have hofConfig : (Action.ofExcept (Component.ofConfig config label)).run.Ends h
      fun result _ => result = Component.ofConfig config label := rfl
  refine hofConfig.run_bind (fun component h' hr => ?_) fun e h' hr component hc => by cases hc
  have hnote : (Action.note (.componentResolved label component.directory)).run.Ends h'
      fun _ _ => True := trivial
  refine hnote.run_bind (fun _ h'' _ component' hc => ?_) fun e h'' _ component' hc => by cases hc
  cases hc
  exact hr.symm

/-- To resolve a component is a step of a command as well. -/
theorem ends_ofAction_resolve (config : SecurityConfig) (label : String) (h : Host) :
    (ExceptT.run (ofAction (Component.resolve config label))).Ends h fun result _ =>
      ∀ component, result = .ok component → Component.ofConfig config label = .ok component := by
  refine (ends_resolve config label h).run_ofAction (fun c h' hr c' hc => ?_)
    fun e h' hr c' hc => by cases hc
  cases hc
  exact hr c rfl

/-- The files go where the request says, and the key to its own place. -/
theorem ends_targets (r : GenerateRequest) (component : Component) (h : Host) :
    (ExceptT.run (targets r component)).Ends h fun result _ => ∀ locations, result = .ok locations →
      locations = (r.certificateLocation component, component.keyLocation) := by
  intro locations hresult
  unfold targets at hresult
  dsimp only at hresult
  split_ifs at hresult
  · cases hresult
  · cases hresult
    rfl

/-- What was issued is to go where it was said to go. -/
theorem ends_issue (config : SecurityConfig) (r : GenerateRequest) (component : Component)
    (certificate key : Location) (h : Host) :
    (ExceptT.run (issue config r component certificate key)).Ends h fun result _ =>
      ∀ m, result = .ok m → m.component = component ∧ m.certificateLocation = certificate
        ∧ m.keyLocation = key := by
  have htoday : (Program.request .today).Ends h fun _ _ => True := trivial
  refine htoday.run_lift_bind fun today h₁ _ => ?_
  have hlast : (ExceptT.run (endDate today (r.days.getD config.defaultDays))).Ends h₁
      fun _ _ => True := trivial
  refine hlast.run_bind (fun last h₂ _ => ?_) fun e h₂ _ m hm => by cases hm
  have hkey : (ExceptT.run (ofAction (Key.Supply.generator config.keyAlgorithm).obtain)).Ends h₂
      fun _ _ => True := trivial
  refine hkey.run_bind (fun k h₃ _ => ?_) fun e h₃ _ m hm => by cases hm
  have hbuild : (ExceptT.run (ofAction (r.draft config today last k).build)).Ends h₃
      fun _ _ => True := trivial
  refine hbuild.run_bind (fun c h₄ _ m hm => ?_) fun e h₄ _ m hm => by cases hm
  cases hm
  exact ⟨rfl, rfl, rfl⟩

/-- **What is made is made for the request.** -/
theorem ends_make (config : SecurityConfig) (label : String) (r : GenerateRequest) (h : Host) :
    (ExceptT.run (make config label r)).Ends h fun result _ =>
      ∀ m, result = .ok m → m.IsFor config label r := by
  refine (ends_ofAction_resolve (r.effectiveConfig config) label h).run_bind
    (fun component h₁ hcomponent => ?_) fun e h₁ _ m hm => by cases hm
  refine (ends_targets r component h₁).run_bind (fun locations h₂ hlocations => ?_)
    fun e h₂ _ m hm => by cases hm
  have hvacant : (ExceptT.run (requireTargets r.force locations.1 locations.2)).Ends h₂
      fun _ _ => True := trivial
  refine hvacant.run_bind (fun _ h₃ _ => ?_) fun e h₃ _ m hm => by cases hm
  refine (ends_issue _ r component locations.1 locations.2 h₃).mono fun result h₄ hr m hm => ?_
  obtain ⟨rfl, hcertificate, hkey⟩ := hr m hm
  rw [hlocations locations rfl] at hcertificate hkey
  exact ⟨hcomponent m.component rfl, hcertificate, hkey⟩

/-- Nothing has become of the files when something was made, and the host
refuses what it has refused before. -/
theorem runOn_make {config : SecurityConfig} {label : String} {r : GenerateRequest}
    {h h' : Host} {m : Made} (hmade : (make config label r).runOn h = (.ok m, h')) :
    m.IsFor config label r ∧ h'.tree = h.tree ∧ h'.refuses = h.refuses := by
  have hrun : (ExceptT.run (make config label r)).runOn h = (.ok m, h') := hmade
  have hfor := ends_make config label r h m
  have htree := (looks_make config label r).tree_runOn h
  have hrefuses := Program.refuses_runOn (ExceptT.run (make config label r)) h
  rw [hrun] at hfor htree hrefuses
  exact ⟨hfor rfl, htree, hrefuses⟩

/-- So what was made can be stored as if nothing had been asked yet. -/
theorem placed_of_make {config : SecurityConfig} {label : String} {r : GenerateRequest}
    {h h' : Host} {m : Made} (hmade : (make config label r).runOn h = (.ok m, h')) :
    m.IsPlaced ∧ h'.tree = h.tree ∧ h'.refuses = h.refuses :=
  (runOn_make hmade).imp_left Made.IsFor.isPlaced

/-! ## Why nothing was made

Commands fail for many reasons, and the only thing that matters here is which
of them have to do with a report. None of the parts that come before the
report fails for such a reason, and two of them in a row do not either. -/

/-- Whether a failure comes before anything is reported. Those of the report are
that there is no form for it or no room to print. -/
def Failure.IsBeforeReport : Failure → Prop
  | .authority _ | .argument _ => True
  | .format _ | .output _ => False

/-- **A command that does not fail because of a report.** Of a run that fails in
another way it is then known that nothing has been reported. -/
def FailsEarly {α : Type} (c : Command α) : Prop :=
  ∀ h, (ExceptT.run c).Ends h fun result _ =>
    ∀ failure, result = .error failure → failure.IsBeforeReport

section FailsEarly

variable {α β : Type}

/-- Of two commands, one after the other, neither has to do with reports. -/
theorem FailsEarly.bind {c : Command α} {f : α → Command β} (hc : FailsEarly c)
    (hf : ∀ a, FailsEarly (f a)) : FailsEarly (c >>= f) :=
  fun h => (hc h).run_bind (fun a h' _ => hf a h') fun e h' hr failure hfailure => by
    cases hfailure
    exact hr e rfl

/-- A command that gives a value does not fail. -/
theorem failsEarly_pure (a : α) : FailsEarly (pure a) := by
  intro h failure hfailure
  cases hfailure

/-- One that fails does so for the reason that it gives. -/
theorem failsEarly_throw {failure : Failure} (hfailure : failure.IsBeforeReport) :
    FailsEarly (throw failure : Command α) := by
  intro h failure' heq
  cases heq
  exact hfailure

/-- What fails as part of the authority fails for a reason of the authority's.
-/
theorem failsEarly_ofAction (p : Action α) : FailsEarly (ofAction p) := by
  intro h
  have hp : p.run.Ends h fun _ _ => True := trivial
  refine hp.run_ofAction (fun a h' _ failure hfailure => ?_) fun e h' _ failure hfailure => ?_
  · cases hfailure
  · cases hfailure
    trivial

/-- A request is answered, and the answer may be a fault, which is no failure
yet. -/
theorem failsEarly_request (r : Request) :
    FailsEarly (liftM (Program.request r) : Command r.Answer) := by
  intro h
  have hr : (Program.request r).Ends h fun _ _ => True := trivial
  exact hr.run_lift fun a h' _ failure hfailure => by cases hfailure

end FailsEarly

/-- A file that is in the way is an error of the authority. -/
theorem failsEarly_requireVacant (l : Location) : FailsEarly (requireVacant l) := by
  refine (failsEarly_ofAction _).bind fun path => (failsEarly_request _).bind fun found => ?_
  split_ifs
  · exact failsEarly_throw trivial
  · exact failsEarly_pure ()

theorem failsEarly_requireTargets (force : Bool) (certificate key : Location) :
    FailsEarly (requireTargets force certificate key) := by
  unfold requireTargets
  split_ifs
  · exact failsEarly_pure ()
  · refine (failsEarly_ofAction _).bind fun _ => (failsEarly_ofAction _).bind fun _ => ?_
    exact (failsEarly_requireVacant certificate).bind fun _ => failsEarly_requireVacant key

/-- What is asked for and cannot be issued is an error of the authority, or an
argument that is wrong. -/
theorem failsEarly_issue (config : SecurityConfig) (r : GenerateRequest) (component : Component)
    (certificate key : Location) : FailsEarly (issue config r component certificate key) := by
  refine (failsEarly_request _).bind fun today => FailsEarly.bind ?_ fun last => ?_
  · unfold endDate
    cases today.addDays? (r.days.getD config.defaultDays) with
    | none => exact failsEarly_throw trivial
    | some d => exact failsEarly_pure d
  · refine (failsEarly_ofAction _).bind fun k => (failsEarly_ofAction _).bind fun c => ?_
    exact failsEarly_pure _

/-- **Making a certificate** does not fail because of a report. -/
theorem failsEarly_make (config : SecurityConfig) (label : String) (r : GenerateRequest) :
    FailsEarly (make config label r) := by
  refine (failsEarly_ofAction _).bind fun component => FailsEarly.bind ?_ fun locations => ?_
  · unfold targets
    dsimp only
    split_ifs
    · exact failsEarly_throw trivial
    · exact failsEarly_pure _
  · refine (failsEarly_requireTargets _ _ _).bind fun _ => ?_
    exact failsEarly_issue _ _ _ _ _

end Command

end CertAuthority
