import CertAuthority.Proofs.Calendar.Days
import CertAuthority.Proofs.Certificate.Identity
import CertAuthority.Proofs.Command.Grant
import CertAuthority.Proofs.Key.Reload

/-!
# What a certificate is made with

What `generate` has made before it stores anything fits together
(`Made.IsIssued`). The certificate and the key go to two different locations,
the key is of the algorithm that was asked for, its text is read as that key,
and the public key in the certificate ends with the key's own.

The last of these goes through the certificate's bytes: the builder writes the
public key behind the name of its algorithm, and the reader keeps both as they
stand (`GenerateRequest.publicKey_of_build`). All that is asked of the host is
that today is a day of the calendar, since the window is counted from it.

It is needed when the pair is read back: its files are two, so that one does
not take the other's place, and the key that is read is the one in the
certificate.
-/

namespace CertAuthority

open Program (Ends)

namespace Command

open Store (Component Location)

/-- **The public key in the certificate** ends with the key's own. -/
theorem GenerateRequest.publicKey_of_build {r : GenerateRequest} {config : SecurityConfig}
    {first last : Calendar.Date} {key : KeyPair} {h : Host} {c : Certificate}
    (hfirst : first.Valid) (hlast : last.Valid)
    (hbuild : ((r.draft config first last key).build.runOn h).1 = .ok c) :
    key.publicKey <:+ c.publicKey := by
  obtain ⟨o, k, horder, hbuilt⟩ := Draft.built_of_build (fun date hdate => by
    rcases hdate with hdate | hdate
    · exact Option.some.inj hdate ▸ hfirst
    · exact Option.some.inj hdate ▸ hlast) hbuild
  have hsupply : Key.Supply.pair key = o.supply := Option.some.inj (congrArg Draft.key horder)
  have hobtained := hbuilt.obtained
  rw [← hsupply] at hobtained
  obtain rfl : key = k := Except.ok.inj hobtained
  exact hbuilt.names.publicKey_suffix

/-! ## Making

That the two locations differ is checked before a key is drawn. What else fits
together does so by the order that the certificate is built for: the subject
is the component, and the key is the one that signed. -/

/-- **A certificate and a key that fit together.** That is said of what was
made, before either of them is stored, and does not depend on what becomes of
the files. -/
structure Made.IsIssued (m : Made) (algorithm : Key.Algorithm) : Prop where
  /-- They go to different locations. -/
  different : m.certificateLocation ≠ m.keyLocation
  /-- The key is of the algorithm. -/
  algorithm : m.key.algorithm = algorithm
  /-- Its text is read as the key. -/
  reloads : KeyPair.decodePem m.key.privateKey.pem = .ok m.key
  /-- It is in the certificate. -/
  publicKey : m.key.publicKey <:+ m.certificate.publicKey

/-- Targets that are one location are refused, so those that are settled are
two. -/
theorem ends_targets_different (r : GenerateRequest) (component : Component) (h : Host) :
    (ExceptT.run (targets r component)).Ends h fun result _ => ∀ locations, result = .ok locations →
      locations.1 ≠ locations.2 := by
  intro locations hresult
  unfold targets at hresult
  dsimp only at hresult
  split_ifs at hresult with hsame
  · cases hresult
  · cases hresult
    exact hsame

/-- The last day is one of the calendar, if the first is. -/
theorem ends_endDate {first : Calendar.Date} (hfirst : first.Valid) (days : Nat) (h : Host) :
    (ExceptT.run (endDate first days)).Ends h fun result _ =>
      ∀ last, result = .ok last → last.Valid := by
  refine (ends_endDate_eq hfirst days h).mono fun result h' hr last hlast => ?_
  rw [hr.2] at hlast
  split_ifs at hlast
  cases hlast
  exact (Calendar.Date.iterate_next_spec hfirst days).1

/-- **What is issued fits together**, if it is to go to two locations. -/
theorem ends_issue_isIssued (config : SecurityConfig) (r : GenerateRequest) (component : Component)
    {certificate key : Location} (hne : certificate ≠ key) {h : Host} (htoday : h.today.Valid) :
    (ExceptT.run (issue config r component certificate key)).Ends h fun result _ =>
      ∀ m, result = .ok m → m.IsIssued config.keyAlgorithm := by
  have hday : (Program.request .today).Ends h fun today _ => today.Valid := htoday
  refine hday.run_lift_bind fun today h₁ hfirst => ?_
  refine (ends_endDate hfirst _ h₁).run_bind (fun last h₂ hlast => ?_)
    fun e h₂ _ m hm => by cases hm
  refine ((Key.Supply.ends_obtain_generator config.keyAlgorithm h₂).run_ofAction
    (Q := fun result _ => ∀ k, result = .ok k →
      ∃ entropy, KeyPair.ofEntropy? config.keyAlgorithm entropy = some k)
    (fun k h' hk k' hk' => ?_) fun e h' _ k hk => by cases hk).run_bind (fun k h₃ hk => ?_)
    fun e h₃ _ m hm => by cases hm
  · cases hk'
    exact ⟨_, (hk k).1 rfl⟩
  obtain ⟨entropy, hmade⟩ := hk k rfl
  have hbuild : (r.draft config today last k).build.run.Ends h₃ fun result _ =>
      ((r.draft config today last k).build.runOn h₃).1 = result := rfl
  refine (hbuild.run_ofAction (Q := fun result _ => ∀ c, result = .ok c →
    k.publicKey <:+ c.publicKey) (fun c h' hc c' hc' => ?_) fun e h' _ c hc => by cases hc).run_bind
    (fun c h₄ hc m hm => ?_) fun e h₄ _ m hm => by cases hm
  · cases hc'
    exact GenerateRequest.publicKey_of_build hfirst (hlast last rfl) hc
  · cases hm
    exact ⟨hne, KeyPair.algorithm_of_ofEntropy? hmade, KeyPair.decodePem_of_ofSecret? hmade,
      hc c rfl⟩

/-- **What is made fits together**, on a day of the calendar. -/
theorem ends_make_isIssued (config : SecurityConfig) (label : String) (r : GenerateRequest)
    {h : Host} (htoday : h.today.Valid) :
    (ExceptT.run (make config label r)).Ends h fun result _ =>
      ∀ m, result = .ok m → m.IsIssued (r.algorithm.getD config.keyAlgorithm) := by
  have hresolve : (ExceptT.run (ofAction (Component.resolve (r.effectiveConfig config)
      label))).Ends h fun _ h₁ => h₁.today = h.today := Program.today_runOn _ h
  refine hresolve.run_bind (fun component h₁ hday₁ => ?_) fun e h₁ _ m hm => by cases hm
  have htargets : (ExceptT.run (targets r component)).Ends h₁ fun result h₂ =>
      (∀ locations, result = .ok locations → locations.1 ≠ locations.2) ∧ h₂.today = h₁.today :=
    ⟨ends_targets_different r component h₁, Program.today_runOn _ h₁⟩
  refine htargets.run_bind (fun locations h₂ hr => ?_) fun e h₂ _ m hm => by cases hm
  obtain ⟨hne, hday₂⟩ := hr
  have hvacant : (ExceptT.run (requireTargets r.force locations.1 locations.2)).Ends h₂
      fun _ h₃ => h₃.today = h₂.today := Program.today_runOn _ h₂
  refine hvacant.run_bind (fun _ h₃ hday₃ => ?_) fun e h₃ _ m hm => by cases hm
  rw [← hday₁, ← hday₂, ← hday₃] at htoday
  exact ends_issue_isIssued _ r component (hne locations rfl) htoday

end Command

end CertAuthority
