import CertAuthority.Proofs.Command.Work
import CertAuthority.Proofs.Files.Parent
import CertAuthority.Proofs.Files.Targets

/-!
# What invocations may change

An invocation has targets: the certificate's path and the key's path for
`generate`, the destination for `export-der`, and none for `show`
(`Invocation.targets`). In the files that it comes upon, whatever they are, it
changes at most what its targets lead to, once directories were made on the
way to them, and without `--force` it changes nothing that was there
(`Task.confined_carryOut`).

A session is any number of invocations on the same files. What one invocation
keeps to, sessions keep to: an entry that has changed after a session is one
that some invocation of it may change, in the files that this one came upon,
and a session without `--force` only adds entries
(`invocations_keep_to_targets`).

What may have changed is said place by place and relative to a tree in
between, with the directories on the way to all the targets (`Confined`). That
tree is needed because a target need not lead anywhere before they are made,
and need not lead to the same place any more afterwards. Hosts may refuse
whatever they like. There is one thing that this can bring about which is not
a change at a target: a temporary file stays if the request to remove it,
which is the last one that a failed write makes, is refused.
-/

namespace CertAuthority.Command

open Files (Tree Place WriteMode)
open Program (Ends)
open Store (Component Location)

/-! ## Targets -/

namespace Task

/-- Where a task writes for a component. -/
def locations (c : Component) : Task → List Location
  | generate r => [r.certificateLocation c, c.keyLocation]
  | showCertificate _ => []
  | exportDer out _ _ => (out.fileName?.map fun name => ⟨out.parent?.getD ⟨""⟩, name⟩).toList

/-- Whether a task may replace what is there. -/
def force : Task → Bool
  | generate r => r.force
  | showCertificate _ => false
  | exportDer _ _ force => force

end Task

/-- The paths of those locations that have one. -/
def pathsOf (ls : List Location) : List Path := ls.filterMap fun l => l.path.toOption

/-- Such a path is that of one of the locations. -/
theorem mem_pathsOf {ls : List Location} {path : Path} :
    path ∈ pathsOf ls ↔ ∃ l ∈ ls, l.path = .ok path := by
  refine List.mem_filterMap.trans (exists_congr fun l => and_congr_right fun _ => ?_)
  cases l.path with
  | ok p => simp [Except.toOption]
  | error e => simp [Except.toOption]

/-- **The paths that a task may write to**, none for showing a certificate, and
none if there is no such component. They are told from the task and the
configuration. -/
def Task.targets (config : SecurityConfig) (label : String) (task : Task) : List Path :=
  match Component.ofConfig config label with
  | .ok c => pathsOf (task.locations c)
  | .error _ => []

/-- **The paths that an invocation may write to**, with the configuration as it
finds it. -/
def Invocation.targets (i : Invocation) (h : Host) : List Path :=
  match ((resolveConfig i.config i.metadataDir).runOn h).1 with
  | .ok config => i.task.targets config i.component
  | .error _ => []

/-! ## One task

A task consists of looking and of at most two writes, and looking changes
nothing. Each write is confined to the path of its location, and two in a row
are confined to both paths if the second one finds the first directory where
it was, which is what `Confined.after_write` is about. -/

/-- **Files that were changed at most where some paths lead**, and where
nothing was there, unless it may be replaced. If the last request about files was
to remove a temporary file, and was refused, that file is there as well. -/
structure Confined (paths : List Path) (force : Bool) (h h' : Host) : Prop where
  /-- What has changed. -/
  changed : ∃ made, Tree.ChangedAt paths h'.HasJustRefused h.tree made h'.tree
  /-- What was there is there, as it was. -/
  added : force = false → Tree.Extends h.tree h'.tree

namespace Confined

variable {paths paths' : List Path} {force : Bool} {h h₁ h' : Host}

/-- Files that are as they were are confined to any paths. -/
theorem of_tree_eq (htree : h'.tree = h.tree) : Confined paths force h h' := by
  refine ⟨⟨h.tree, ?_⟩, fun _ => ?_⟩
  · rw [htree]
    exact .refl paths h'.HasJustRefused h.tree
  · rw [htree]
    exact .refl h.tree

theorem mono (hc : Confined paths force h h') (hsub : ∀ p ∈ paths, p ∈ paths') :
    Confined paths' force h h' :=
  ⟨hc.changed.imp fun _ hchanged => hchanged.mono hsub, hc.added⟩

/-- Only what the files are before matters. -/
theorem congr_left (hc : Confined paths force h₁ h') (htree : h₁.tree = h.tree) :
    Confined paths force h h' := by
  obtain ⟨hchanged, hadded⟩ := hc
  rw [htree] at hchanged hadded
  exact ⟨hchanged, hadded⟩

theorem congr_right (hc : Confined paths force h h₁) (hsame : h₁.Unasked h') :
    Confined paths force h h' := by
  obtain ⟨hchanged, hadded⟩ := hc
  rw [← hsame.tree] at hchanged hadded
  rw [← hsame.hasJustRefused] at hchanged
  exact ⟨hchanged, hadded⟩

/-- **A write to a location** is confined to its path. -/
theorem of_writeEndAt {l : Location} {content : Bytes} {r : Except Error Path}
    (hend : Component.WriteEndAt h l.path content (.ofFlag force) r h') :
    Confined (pathsOf [l]) force h h' := by
  cases hpath : l.path with
  | error e =>
    rw [hpath] at hend
    exact of_tree_eq hend.2
  | ok path =>
    rw [hpath] at hend
    have hpaths : pathsOf [l] = [path] := by simp [pathsOf, hpath, Except.toOption]
    rw [hpaths]
    refine ⟨hend.2.changedAt, fun hforce => ?_⟩
    subst hforce
    exact hend.2.toExtends

/-- **A write that succeeds, and what comes after it** in the same directory. -/
theorem after_write {l : Location} {content : Bytes} {path : Path} {dir : Path} {ls : List Location}
    (hend : Component.WriteEndAt h l.path content (.ofFlag force) (.ok path) h₁)
    (hrest : Confined (pathsOf ls) force h₁ h')
    (hdir : ∀ p ∈ pathsOf (l :: ls), p.directory = dir) : Confined (pathsOf (l :: ls)) force h h' := by
  obtain ⟨hpath, made₁, q, hwritten⟩ := hend.written
  have hpaths : pathsOf (l :: ls) = path :: pathsOf ls := by
    simp [pathsOf, hpath, Except.toOption]
  rw [hpaths] at hdir ⊢
  have hsame : ∀ p ∈ pathsOf ls, p.directory = path.directory := fun p hp =>
    (hdir p (List.mem_cons_of_mem _ hp)).trans (hdir path List.mem_cons_self).symm
  refine ⟨?_, fun hforce => ?_⟩
  · obtain ⟨made₂, hchanged⟩ := hrest.changed
    exact hwritten.changedAt_cons hchanged hsame
  · subst hforce
    exact (hwritten.toExtends (hwritten.isNew rfl)).trans (hrest.added rfl)

end Confined

/-- Paths of locations in one directory are in that directory. -/
theorem directory_of_mem_pathsOf {ls : List Location} {dir path : Path}
    (hdir : Path.EndsInName dir) (hls : ∀ l ∈ ls, l.directory = dir) (hpath : path ∈ pathsOf ls) :
    path.directory = dir := by
  obtain ⟨l, hl, htarget⟩ := mem_pathsOf.1 hpath
  obtain ⟨hplain, rfl⟩ := Location.path_eq_ok htarget
  rw [hls l hl]
  exact Path.directory_join hdir hplain.isNamePiece

section Steps

variable {α β : Type} {paths : List Path} {force : Bool} {h : Host}

/-- Looking at files before makes no difference. -/
theorem ends_confined_bind {p : Command α} {f : α → Command β} (hp : (ExceptT.run p).Looks)
    (hf : ∀ a h₁, p.runOn h = (.ok a, h₁) →
      (ExceptT.run (f a)).Ends h₁ fun _ h' => Confined paths force h₁ h') :
    (ExceptT.run (p >>= f)).Ends h fun _ h' => Confined paths force h h' := by
  have hlooks : (ExceptT.run p).Ends h fun result h₁ =>
      p.runOn h = (result, h₁) ∧ h₁.tree = h.tree := ⟨rfl, hp.tree_runOn h⟩
  refine hlooks.run_bind (fun a h₁ hr => ?_) fun e h₁ hr => .of_tree_eq hr.2
  exact (hf a h₁ hr.1).mono fun _ h' hc => hc.congr_left hr.2

/-- **A write to a location**, with no change to files after it, is confined to
its path. -/
theorem ends_confined_write {l : Location} {content : Bytes} {p : Action Path}
    {f : Path → Command α}
    (hp : p.run.Ends h (Component.WriteEndAt h l.path content (.ofFlag force)))
    (hf : ∀ path, (ExceptT.run (f path)).Looks) :
    (ExceptT.run (ofAction p >>= f)).Ends h fun _ h' => Confined (pathsOf [l]) force h h' := by
  have hwrite : (ExceptT.run (ofAction p)).Ends h fun result h₁ => match result with
      | .ok path => Component.WriteEndAt h l.path content (.ofFlag force) (.ok path) h₁
      | .error _ => Confined (pathsOf [l]) force h h₁ :=
    hp.run_ofAction (fun path h₁ hr => hr) fun e h₁ hr => .of_writeEndAt hr
  exact hwrite.run_bind (fun path h₁ hr => .of_writeEndAt (hr.congr ((hf path).tree_runOn h₁)))
    fun e h₁ hc => hc

end Steps

namespace Task

variable (config : SecurityConfig) (label : String) (h : Host)

/-- What is made for a request goes to the targets of the task. -/
theorem targets_generate {m : Made} {r : GenerateRequest} (hfor : m.IsFor config label r) :
    (generate r).targets config label = pathsOf [m.certificateLocation, m.keyLocation] := by
  rw [targets, hfor.component, hfor.certificate, hfor.key]
  rfl

/-- **Generating a certificate** is confined to the two paths. -/
theorem confined_generate (r : GenerateRequest) :
    (ExceptT.run ((generate r).carryOut config label)).Ends h fun _ h' =>
      Confined ((generate r).targets config label) r.force h h' := by
  refine ends_confined_bind (looks_make config label r) fun m h₁ hmade => ?_
  have hfor := (runOn_make hmade).1
  have hplaced := hfor.isPlaced
  rw [targets_generate config label hfor]
  have hdir : ∀ p ∈ pathsOf [m.certificateLocation, m.keyLocation],
      p.directory = m.component.directory := by
    refine fun p => directory_of_mem_pathsOf hplaced.directory fun l hl => ?_
    rcases List.mem_pair.1 hl with rfl | rfl
    · exact hplaced.certificate
    · exact hplaced.key
  have hcertificate := Component.ends_writeCertificate h₁ m.component (some m.certificateLocation)
    (.ofFlag r.force) m.certificate
  refine (hcertificate.run_ofAction (Q := fun result h₂ => match result with
    | .ok path => Component.WriteEndAt h₁ m.certificateLocation.path
        (Text.Utf8.encode m.certificate.encodePem.toList) (.ofFlag r.force) (.ok path) h₂
    | .error _ => Confined (pathsOf [m.certificateLocation]) r.force h₁ h₂) (fun path h₂ hr => hr)
    fun e h₂ hr => .of_writeEndAt hr).run_bind (fun path h₂ hstored => ?_) fun e h₂ hr => ?_
  · refine Ends.mono (Q := fun _ h' => Confined (pathsOf [m.keyLocation]) r.force h₂ h') ?_
      fun _ h' hc => .after_write hstored hc hdir
    exact ends_confined_write (Component.ends_writePrivateKey h₂ m.component (some m.keyLocation)
      (.ofFlag r.force) m.key.privateKey)
      fun keyPath => Program.Looks.run_note.run_ofAction.run_bind fun _ => trivial
  · refine hr.mono fun p hp => ?_
    obtain ⟨l, hl, hpath⟩ := mem_pathsOf.1 hp
    exact mem_pathsOf.2 ⟨l, List.mem_cons.2 (Or.inl (List.mem_singleton.1 hl)), hpath⟩

/-- A destination that was settled is the last component of the path, in what is
above. -/
theorem destination_eq_ok {out : Path} {target : Location} {h h₁ : Host}
    (hrun : (destination out).runOn h = (.ok target, h₁)) :
    out.fileName? = some target.fileName ∧ target.directory = out.parent?.getD ⟨""⟩ := by
  have hresult : ((destination out).runOn h).1 = .ok target := congrArg Prod.fst hrun
  unfold destination at hresult
  cases hname : out.fileName? with
  | none =>
    rw [hname] at hresult
    cases hresult
  | some name =>
    rw [hname] at hresult
    cases hresult
    exact ⟨rfl, rfl⟩

/-- **Exporting a certificate** is confined to the destination. -/
theorem confined_exportDer (out : Path) (fileName : Option String) (force : Bool) :
    (ExceptT.run ((exportDer out fileName force).carryOut config label)).Ends h fun _ h' =>
      Confined ((exportDer out fileName force).targets config label) force h h' := by
  refine ends_confined_bind (looks_destination out) fun target h₁ htarget => ?_
  refine ends_confined_bind (Component.looks_resolve config label).run_ofAction
    fun component h₂ hresolve => ?_
  refine ends_confined_bind (component.looks_readCertificate _).run_ofAction
    fun certificate h₃ _ => ?_
  have htargets : (exportDer out fileName force).targets config label = pathsOf [target] := by
    obtain ⟨hname, hdirectory⟩ := destination_eq_ok htarget
    have hcomponent : Component.ofConfig config label = .ok component :=
      ends_ofAction_resolve config label h₁ component (congrArg Prod.fst hresolve)
    rw [targets, hcomponent]
    show pathsOf (out.fileName?.map _).toList = _
    rw [hname, ← hdirectory]
    rfl
  rw [htargets]
  exact ends_confined_write (Component.ends_writeDer h₃ component (some target) (.ofFlag force)
    certificate) fun path => trivial

/-- **A task is confined to its targets**, and adds only unless it may
replace. -/
theorem confined_carryOut (task : Task) :
    (ExceptT.run (task.carryOut config label)).Ends h fun _ h' =>
      Confined (task.targets config label) task.force h h' := by
  cases task with
  | generate r => exact confined_generate config label h r
  | showCertificate fileName =>
    exact .of_tree_eq ((looks_carryOut_show config label fileName).tree_runOn h)
  | exportDer out fileName force => exact confined_exportDer config label h out fileName force

/-- **The target of an export** is the destination, however it is spelled. -/
theorem sameAs_of_mem_targets {out path : Path} {fileName : Option String} {force : Bool}
    (hpath : path ∈ (exportDer out fileName force).targets config label) : path.SameAs out := by
  unfold targets at hpath
  cases hcomponent : Component.ofConfig config label with
  | error e =>
    rw [hcomponent] at hpath
    cases hpath
  | ok c =>
    rw [hcomponent] at hpath
    obtain ⟨l, hl, htarget⟩ := mem_pathsOf.1 hpath
    obtain ⟨name, hname, rfl⟩ := Option.map_eq_some_iff.1 (Option.mem_toList.1 hl)
    obtain ⟨hplain, rfl⟩ := Location.path_eq_ok htarget
    exact Path.sameAs_join_of_fileName? hname hplain.isNamePiece

end Task

/-! ## One invocation

Before its task an invocation reads a configuration, and after it, it
complains if it has to. Neither is a change to files, so both are as confined
as the task. -/

namespace Invocation

variable (i : Invocation) (h : Host)

/-- An invocation's work is confined to its targets. -/
theorem confined_carryOut :
    (ExceptT.run i.carryOut).Ends h fun _ h' => Confined (i.targets h) i.task.force h h' := by
  refine ends_confined_bind (looks_resolveConfig _ _).run_ofAction fun config h₁ hrun => ?_
  have hconfig : ((resolveConfig i.config i.metadataDir).runOn h).1 = .ok config :=
    congrArg Prod.fst (Program.runOn_eq_of_ofAction hrun)
  rw [targets, hconfig]
  exact i.task.confined_carryOut config i.component h₁

/-- **The host after an invocation**, which may have complained. -/
def after : Host := ((Command.perform i).runOn h).2

/-- A complaint is neither about files nor printed. -/
theorem after_eq :
    (i.perform.runOn h).2.Unasked (i.after h)
      ∧ (i.after h).printed = (i.perform.runOn h).2.printed := by
  have hperform : (ExceptT.run i.perform).Ends h fun _ h' => h' = (i.perform.runOn h).2 := rfl
  have hafter : (Command.perform i).Ends h fun _ h' =>
      (i.perform.runOn h).2.Unasked h' ∧ h'.printed = (i.perform.runOn h).2.printed := by
    refine hperform.bind fun result h' hr => ?_
    rw [← hr]
    cases result with
    | ok u => exact ⟨.refl h', rfl⟩
    | error failure => exact ⟨⟨rfl, rfl, rfl⟩, rfl⟩
  exact hafter

/-- **An invocation that keeps to its targets.** The work is confined to them,
whether or not it succeeds, and what comes after it is not about files. -/
structure KeepsToTargets (i : Invocation) (h : Host) : Prop where
  /-- Showing a certificate changes nothing. -/
  shows : ∀ fileName, i.task = .showCertificate fileName → (i.after h).tree = h.tree
  /-- The target of an export is the destination. -/
  exports : ∀ out fileName force, i.task = .exportDer out fileName force →
    ∀ path ∈ i.targets h, path.SameAs out
  /-- What has changed is where the targets lead, and what may not be replaced
  is there as it was. -/
  confined : Confined (i.targets h) i.task.force h (i.after h)
  /-- A failure that is not one of the report is one of the work, and then
  nothing has been printed. -/
  prints : ∀ failure, (i.perform.runOn h).1 = .error failure →
    (failure.IsBeforeReport ↔ (i.carryOut.runOn h).1 = .error failure)
      ∧ (failure.IsBeforeReport → (i.after h).printed = h.printed)

/-- **Every invocation keeps to its targets**, on every host. -/
theorem keepsToTargets : i.KeepsToTargets h := by
  obtain ⟨hafter, hprinted⟩ := i.after_eq h
  have hwork : (i.carryOut.runOn h).2.Unasked (i.after h) := (i.unasked_perform h).trans hafter
  refine ⟨fun fileName htask => ?_, fun out fileName force htask path hpath => ?_, ?_,
    fun failure hfailure => ?_⟩
  · have hlooks : (ExceptT.run i.carryOut).Looks := by
      refine (looks_resolveConfig _ _).run_ofAction.run_bind fun config => ?_
      rw [htask]
      exact Task.looks_carryOut_show config i.component fileName
    exact hwork.tree.trans (hlooks.tree_runOn h)
  · unfold targets at hpath
    split at hpath
    · rw [htask] at hpath
      exact Task.sameAs_of_mem_targets _ _ hpath
    · cases hpath
  · exact Confined.congr_right (i.confined_carryOut h) hwork
  · rw [hprinted]
    exact i.printed_perform h hfailure

end Invocation

/-! ## Sessions

Launches have nothing in common but the files, which each of them finds as the
last one left them. What each may change depends on them, as do the places to
which its targets lead. The fold over launches is by induction, and says of
every change which launch has made it. -/

/-- **A launch of the program**: what it is called with, and the host it runs
on, whose files are those that are there. -/
structure Launch where
  /-- What it is called with. -/
  invocation : Invocation
  /-- The host, but for the files. -/
  host : Host

namespace Launch

/-- The host with the files that are there. -/
def on (s : Launch) (t : Tree) : Host := { s.host with tree := t }

/-- The host afterwards. -/
def after (s : Launch) (t : Tree) : Host := s.invocation.after (s.on t)

/-- The files that are there afterwards. -/
def leaves (s : Launch) (t : Tree) : Tree := (s.after t).tree

/-- **What a launch may change**: directories that are missing on the way to its
targets, and where the targets lead once these were made. If the last that the
host was asked about files was to remove a temporary file, and it has refused,
there is that file, too. -/
def MayChange (s : Launch) (t : Tree) (p : Place) : Prop :=
  ∃ made, Tree.WaysMade (s.invocation.targets (s.on t)) t made
    ∧ (made.get? p ≠ t.get? p ∨ made.LedTo (s.invocation.targets (s.on t)) p
      ∨ made.Withheld (s.leaves t) (s.after t).HasJustRefused p)

/-- The files after launches, one after another. Each of them finds the files
that the one before it has left, on whatever host it is made. -/
def filesAfter (t : Tree) (session : List Launch) : Tree := session.foldl (fun t s => s.leaves t) t

/-- **One launch** changes what it may change. -/
theorem mayChange_of_leaves (s : Launch) {t : Tree} {p : Place}
    (hp : (s.leaves t).get? p ≠ t.get? p) : s.MayChange t p := by
  obtain ⟨made, hchanged⟩ := (s.invocation.keepsToTargets (s.on t)).confined.changed
  refine ⟨made, hchanged.ways, ?_⟩
  rcases hchanged.get? p with heq | hleads | hwithheld
  · exact Or.inl (heq ▸ hp)
  · exact Or.inr (Or.inl hleads)
  · exact Or.inr (Or.inr hwithheld)

/-- **A session** changes what one of its launches may change. -/
theorem mayChange_of_filesAfter {t : Tree} {session : List Launch} {p : Place}
    (hp : (filesAfter t session).get? p ≠ t.get? p) :
    ∃ before s later, session = before ++ s :: later ∧ s.MayChange (filesAfter t before) p := by
  induction session generalizing t with
  | nil => exact absurd rfl hp
  | cons s session ih =>
    by_cases hfirst : (s.leaves t).get? p = t.get? p
    · rw [← hfirst] at hp
      obtain ⟨before, s', later, rfl, hmay⟩ := ih hp
      exact ⟨s :: before, s', later, rfl, hmay⟩
    · exact ⟨[], s, session, rfl, s.mayChange_of_leaves hfirst⟩

/-- **A session that may replace nothing** adds only. -/
theorem extends_filesAfter {t : Tree} {session : List Launch}
    (hforce : ∀ s ∈ session, s.invocation.task.force = false) :
    Tree.Extends t (filesAfter t session) := by
  induction session generalizing t with
  | nil => exact .refl t
  | cons s session ih =>
    have hfirst : Tree.Extends t (s.leaves t) :=
      (s.invocation.keepsToTargets (s.on t)).confined.added (hforce s List.mem_cons_self)
    exact hfirst.trans (ih fun s' hs' => hforce s' (List.mem_cons_of_mem s hs'))

end Launch

/-- **Invocations keep to their targets.** An invocation is its work and then
its report. Whatever the files are, and whatever the host refuses: showing a
certificate changes nothing; generating one changes at most what its path and
the key's path lead to, and exporting one what the destination leads to, but for
directories that were missing on the way, and for the temporary file of a failed
write if the host has just refused to remove it; nothing that was there is
changed without `--force`; and an invocation that fails before its report prints
nothing. So in a session whatever has changed is what some invocation of it may
change in the files that it came upon, and without `--force` a session only adds
entries. -/
theorem invocations_keep_to_targets :
    (∀ i : Invocation, i.perform = (do
        let s ← i.carryOut
        s.report i.format))
      ∧ (∀ (i : Invocation) (h : Host), i.KeepsToTargets h)
      ∧ (∀ (t : Tree) (session : List Launch) (p : Place),
        (Launch.filesAfter t session).get? p ≠ t.get? p →
        ∃ before s later, session = before ++ s :: later
          ∧ s.MayChange (Launch.filesAfter t before) p)
      ∧ ∀ (t : Tree) (session : List Launch),
        (∀ s ∈ session, s.invocation.task.force = false) →
        Tree.Extends t (Launch.filesAfter t session) :=
  ⟨Invocation.perform_eq, Invocation.keepsToTargets, fun _ _ _ => Launch.mayChange_of_filesAfter,
    fun _ _ => Launch.extends_filesAfter⟩

end CertAuthority.Command
