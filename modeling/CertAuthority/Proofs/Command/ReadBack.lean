import CertAuthority.Proofs.Command.Issue
import CertAuthority.Proofs.Command.Report
import CertAuthority.Proofs.Files.Pair
import CertAuthority.Proofs.Files.Parent
import CertAuthority.Proofs.Store.History

/-!
# What was generated is read back

`generate`, `showCertificate` and `exportDer` each settle for themselves which
file they are about, and what they are about goes through a text, a file and
back. They agree nevertheless. When `generate` has succeeded, there is a pair
of private files in one directory (`Generated`), and as long as the path of
the component leads to that directory, the certificate is shown as it was
reported and exported as it was made (`generate_readsBack`).

The path leads there, but for one case. If files may be replaced and the name
of the key's file belongs to a link that the path itself goes by, the key
takes the place of that link. Nothing is lost then, and yet nothing is found
either. It is also not enough for an export that there is nothing at its
destination, since a file is first given a temporary name beside it, and a
destination whose name is too long is refused like any other; so it is asked
for to be fresh (`Files.Tree.IsFresh`). Both conditions are shown to be needed
(`not_readsBack`).

The hosts on which reading is done need not be the one on which the pair was
made. They have the files that were left, in whatever way they have come by
them, refuse nothing, and have room for what is printed. In the proof a run of
`generate` is taken apart into its steps, each of which has succeeded
(`carryOut_generate_eq_ok`), and the two writes are followed in the tree: the
second one leaves the first file alone, and puts its own beside it.
-/

namespace CertAuthority.Command

open Files (Place Tree WriteMode)
open Program (Ends)
open Store (Component History Location Material)

/-! ## The steps of a run -/

section Steps

variable {α β : Type} {h h' : Host}

/-- **A command that succeeds has succeeded in each of its parts.** -/
theorem runOn_bind_eq_ok {c : Command α} {f : α → Command β} {b : β}
    (hrun : (c >>= f).runOn h = (.ok b, h')) :
    ∃ a h₁, c.runOn h = (.ok a, h₁) ∧ (f a).runOn h₁ = (.ok b, h') := by
  unfold runOn at hrun ⊢
  rw [ExceptT.run_bind, Program.runOn_bind] at hrun
  cases hc : (Program.runOn (ExceptT.run c) h).1 with
  | error e =>
    rw [hc] at hrun
    cases hrun
  | ok a =>
    rw [hc] at hrun
    exact ⟨a, _, Prod.ext hc rfl, hrun⟩

variable {config : SecurityConfig} {label : String} {r : GenerateRequest} {s : Summary}

/-- **The work of `generate`**, step by step. -/
theorem carryOut_generate_eq_ok
    (hrun : ((Task.generate r).carryOut config label).runOn h = (.ok s, h')) :
    ∃ m h₁ path h₂ keyPath h₃, (make config label r).runOn h = (.ok m, h₁)
      ∧ (m.storeCertificate (.ofFlag r.force)).runOn h₁ = (.ok path, h₂)
      ∧ (m.storeKey (.ofFlag r.force)).runOn h₂ = (.ok keyPath, h₃)
      ∧ h'.tree = h₃.tree
      ∧ s = .certificate ((CertificateSummary.ofCertificate m.certificate path).withKey keyPath
          m.key.algorithm.name) := by
  obtain ⟨m, h₁, hmade, hrun⟩ := runOn_bind_eq_ok hrun
  obtain ⟨path, h₂, hcertificate, hrun⟩ := runOn_bind_eq_ok hrun
  obtain ⟨keyPath, h₃, hkey, hrun⟩ := runOn_bind_eq_ok hrun
  obtain ⟨u, h₄, hnote, hrun⟩ := runOn_bind_eq_ok hrun
  cases hrun
  cases hnote
  exact ⟨m, h₁, path, h₂, keyPath, h₃, hmade, Program.runOn_eq_of_ofAction hcertificate,
    Program.runOn_eq_of_ofAction hkey, rfl, rfl⟩

end Steps

/-! ## What is left

The two files were written one after the other, into the same directory. The
second write could have spoiled the first file, and it is known not to: its
target is another name, and its temporary file has a name that was vacant. -/

/-- **The certificate and the key are in a directory**, as the texts of their
blocks and under the names of their locations. -/
def Made.IsKeptIn (m : Made) (t : Tree) (d : Place) : Prop :=
  t.HoldsPair m.component.directory d m.certificateLocation.fileName m.keyLocation.fileName
    (Text.Utf8.encode m.certificate.encodePem.toList)
    (Text.Utf8.encode m.key.privateKey.pem.toList)

/-- **What has been done when `generate` has succeeded.** It says where the two
files are and what is in them, by places of the tree, so that it does not depend
on how paths lead there. -/
structure Generated (config : SecurityConfig) (label : String) (format : Format)
    (r : GenerateRequest) (h h' : Host) (m : Made) (path keyPath : Path) (d : Place) : Prop where
  /-- A certificate and a key were made. -/
  made : ((make config label r).runOn h).1 = .ok m
  /-- They go where the request and the configuration say. -/
  isFor : m.IsFor config label r
  /-- They fit together, and the key is of the algorithm that was asked for, or
  else of the configured one. -/
  isIssued : m.IsIssued (r.algorithm.getD config.keyAlgorithm)
  /-- The path of the certificate. -/
  located : m.certificateLocation.path = .ok path
  /-- The path of the key. -/
  keyLocated : m.keyLocation.path = .ok keyPath
  /-- Both are in one directory, each in a private file of its own. -/
  kept : m.IsKeptIn h'.tree d
  /-- That is the component's, but for a link that was replaced. -/
  directory : h'.tree.HasDirectory m.component.directory d
    ∨ r.force = true ∧ ∃ target, h.tree.get? (m.keyLocation.fileName :: d) = some (.link target)
  /-- What was reported. -/
  reported : h'.printed = h.printed ++ Text.Utf8.encode (reportText format
    ((CertificateSummary.ofCertificate m.certificate path).withKey keyPath
      m.key.algorithm.name)).toList

/-- Files may be replaced only if that was asked for. -/
theorem ofFlag_eq_overwrite {force : Bool} (h : WriteMode.ofFlag force = .overwrite) :
    force = true := by
  cases force with
  | true => rfl
  | false => cases h

/-- **When `generate` has succeeded there is a pair**, which was reported. -/
theorem generated_of_generate {config : SecurityConfig} {label : String} {format : Format}
    {r : GenerateRequest} {h h' : Host} (htoday : h.today.Valid)
    (hrun : (generate config label format r).runOn h = (.ok (), h')) :
    ∃ m path keyPath d, Generated config label format r h h' m path keyPath d := by
  obtain ⟨s, h₄, hwork, htree, hprinted⟩ := Task.perform_eq_ok (.generate r) hrun
  obtain ⟨m, h₁, path, h₂, keyPath, h₃, hmade, hcertificate, hkey, htree₄, rfl⟩ :=
    carryOut_generate_eq_ok hwork
  obtain ⟨hfor, htree₁, -⟩ := runOn_make hmade
  have hissued := ends_make_isIssued config label r htoday m (congrArg Prod.fst hmade)
  have hplaced := hfor.isPlaced
  obtain ⟨hpath, made, q, hwritten⟩ := (storeCertificate_end hcertificate).written
  obtain ⟨hkeyPath, made', q', hwritten'⟩ := (storeKey_end hkey).written
  obtain ⟨hplain, rfl⟩ := Location.path_eq_ok hpath
  obtain ⟨hplain', rfl⟩ := Location.path_eq_ok hkeyPath
  rw [hplaced.certificate, htree₁] at hwritten
  rw [hplaced.key] at hwritten'
  have hne : m.certificateLocation.fileName ≠ m.keyLocation.fileName :=
    Location.fileName_ne hissued.different (hplaced.certificate.trans hplaced.key.symm)
  -- The key comes second. Its file is apart from the certificate's, but what it
  -- replaces may be on the way there.
  obtain ⟨d, hpair, hthere⟩ := hwritten.pair hplaced.directory hplain.isNamePiece
    hplain'.isNamePiece hne hwritten'
  rw [← htree₄, ← htree] at hpair hthere
  exact ⟨m, _, _, d, congrArg Prod.fst hmade, hfor, hissued, hpath, hkeyPath, hpair,
    hthere.imp_right fun hlink => ⟨ofFlag_eq_overwrite hlink.1, hlink.2⟩, hprinted⟩

/-! ## Reading

Reading takes a path from the top of the tree again. That it comes to the file
that was written is a hypothesis here, which the next section has to meet. -/

/-- **Where an export goes**: the last component of its destination, in the
directory before it. -/
def exportPath? (out : Path) : Option Path :=
  out.fileName?.map fun name => (out.parent?.getD ⟨""⟩).join ⟨name⟩

/-- **A destination with a name is settled** without asking the host. -/
theorem ends_destination {out p : Path} (h : exportPath? out = some p) (g : Host) :
    ∃ target : Location, target.path = .ok p
      ∧ (ExceptT.run (destination out)).Ends g fun result g' => result = .ok target ∧ g' = g := by
  obtain ⟨name, hname, rfl⟩ := Option.map_eq_some_iff.1 h
  have hplain := Path.isPlainSegment_iff.2 (Path.isNamePiece_of_fileName? hname)
  unfold destination
  rw [hname]
  exact ⟨⟨out.parent?.getD ⟨""⟩, name⟩, Location.path_of_plain hplain, rfl, rfl⟩

section Reading

variable {config : SecurityConfig} {label : String} {fileName : Option String}
  {component : Component} {c : Certificate} {path : Path} {g : Host}

/-- **A certificate that is in the file is read**, on a host that refuses
nothing. -/
theorem ends_readCertificate_ok {location : Option Location} (hobliging : g.Obliging)
    (hpath : (location.getD component.certificateLocation).path = .ok path)
    (hread : g.tree.read path = .ok (Text.Utf8.encode c.encodePem.toList)) :
    (ExceptT.run (ofAction (component.readCertificate location))).Ends g fun result g' =>
      result = .ok c ∧ g'.tree = g.tree ∧ g'.refuses = g.refuses := by
  have hresult := Component.runOn_readCertificate hpath (hobliging _ _) hread
  rw [show Component.readBack path (Text.Utf8.encode c.encodePem.toList) = .ok c from
    (History.readBack_bytes path).2.1 c] at hresult
  have hend : (component.readCertificate location).run.Ends g fun result g' =>
      result = .ok c ∧ g'.tree = g.tree ∧ g'.refuses = g.refuses :=
    ⟨hresult, (Component.looks_readCertificate component location).tree_runOn g,
      Program.refuses_runOn _ g⟩
  exact hend.run_ofAction_ok

/-- **The bytes of a certificate are put** at a fresh path. -/
theorem ends_writeDer_ok {target : Location} (hobliging : g.Obliging)
    (htarget : target.path = .ok path) (hfresh : g.tree.IsFresh path) (c : Certificate)
    (mode : WriteMode) :
    (ExceptT.run (ofAction (component.writeDer c (some target) mode))).Ends g fun result g' =>
      result = .ok path ∧ ∃ q, g'.tree.LeadsToPrivate path q c.der := by
  refine Ends.run_ofAction_ok ?_
  unfold Component.writeDer
  rw [Option.getD_some, htarget]
  exact (Files.ends_write_fresh hobliging hfresh c.der mode).run_bind_ok fun g' hr => ⟨rfl, hr⟩

variable (hobliging : g.Obliging) (hcomponent : Component.ofConfig config label = .ok component)
  (hpath : ((fileName.map component.locationFor).getD component.certificateLocation).path
    = .ok path)
  (hread : g.tree.read path = .ok (Text.Utf8.encode c.encodePem.toList))
include hobliging hcomponent hpath hread

/-- **A certificate that is in its file is shown.** -/
theorem Task.ends_carryOut_show :
    (ExceptT.run ((showCertificate fileName).carryOut config label)).Ends g fun result g' =>
      result = .ok (.certificate (CertificateSummary.ofCertificate c path)) ∧ g'.tree = g.tree := by
  refine (ends_resolve_ok hcomponent g).run_bind_ok fun g₁ hlooked => ?_
  rw [← hlooked.tree] at hread ⊢
  refine (ends_readCertificate_ok (hobliging.of_refuses hlooked.refuses) hpath hread).run_bind_ok
    fun g₂ hr => ?_
  rw [hpath]
  exact ⟨rfl, hr.1⟩

/-- **It is exported to a fresh path**, byte for byte. -/
theorem Task.ends_carryOut_export {out p : Path} (hout : exportPath? out = some p)
    (hfresh : g.tree.IsFresh p) (force : Bool) :
    (ExceptT.run ((exportDer out fileName force).carryOut config label)).Ends g fun result g' =>
      result = .ok (.exported ⟨c.serialNumber.text, p, c.der.length⟩)
        ∧ ∃ q, g'.tree.LeadsToPrivate p q c.der := by
  obtain ⟨target, htarget, hend⟩ := ends_destination hout g
  refine hend.run_bind_ok fun g₀ hr => ?_
  obtain rfl := hr
  refine (ends_resolve_ok hcomponent g₀).run_bind_ok fun g₁ hlooked => ?_
  rw [← hlooked.tree] at hread hfresh
  have hobliging₁ := hobliging.of_refuses hlooked.refuses
  refine (ends_readCertificate_ok hobliging₁ hpath hread).run_bind_ok fun g₂ hr => ?_
  obtain ⟨htree₂, hrefuses₂⟩ := hr
  rw [← htree₂] at hfresh
  exact (ends_writeDer_ok (hobliging₁.of_refuses hrefuses₂) htarget hfresh c _).run_bind_ok
    fun g' hr => ⟨rfl, hr⟩

end Reading

/-! ## Reading back

The path that was written to was walked when it was written, and whoever reads
walks it again. That it leads to the same directory afterwards is asked of the
files that are left, and need not be so, as the key may have replaced a link
that the path goes by. -/

/-- **What was made is read back** on a host: by its files, as a key, as it is
shown and as it is exported. The format of the report makes no difference. -/
structure Made.ReadsBack (m : Made) (config : SecurityConfig) (label : String)
    (fileName : Option String) (path keyPath : Path) (g : Host) : Prop where
  /-- The paths lead to two private files, with the certificate and the key. -/
  files : ∃ q q', q ≠ q'
    ∧ g.tree.LeadsToPrivate path q (Text.Utf8.encode m.certificate.encodePem.toList)
    ∧ g.tree.LeadsToPrivate keyPath q' (Text.Utf8.encode m.key.privateKey.pem.toList)
  /-- What is in the key's file is the text of the key that was made. -/
  key : ∃ content text, g.tree.read keyPath = .ok content
    ∧ Text.Utf8.decode? content = some text ∧ KeyPair.decodePem text = .ok m.key
  /-- The certificate that was made is shown, in every format. -/
  shown : ∀ format, (ExceptT.run (showCertificate config label format fileName)).Ends g
    fun result g' => result = .ok () ∧ g'.tree = g.tree
      ∧ g'.printed = g.printed ++ Text.Utf8.encode (reportText format
        (CertificateSummary.ofCertificate m.certificate path)).toList
  /-- It is exported to every fresh path: the file there is read as the
  certificate that was made, and its size is reported. -/
  exported : ∀ format out p force, exportPath? out = some p → g.tree.IsFresh p →
    (ExceptT.run (exportDer config label format out fileName force)).Ends g
      fun result g' => result = .ok () ∧ ∃ q content, g'.tree.LeadsToPrivate p q content
        ∧ Certificate.ofDer content = .ok m.certificate
        ∧ g'.printed = g.printed ++ Text.Utf8.encode (reportText format
          (⟨m.certificate.serialNumber.text, p, content.length⟩ : ExportSummary)).toList

/-- **Where the path leads to the pair**, what was made is read back. -/
theorem Generated.readsBack {config : SecurityConfig} {label : String} {format : Format}
    {r : GenerateRequest} {h h' g : Host} {m : Made} {path keyPath : Path} {d : Place}
    (hgenerated : Generated config label format r h h' m path keyPath d)
    (htree : g.tree = h'.tree) (hobliging : g.Obliging) (hroom : g.room = none)
    (hthere : g.tree.HasDirectory m.component.directory d) :
    m.ReadsBack config label r.fileName path keyPath g := by
  have hplaced := hgenerated.isFor.isPlaced
  have hpair := hgenerated.kept
  rw [Made.IsKeptIn, ← htree] at hpair
  have hlocated : (r.certificateLocation m.component).path = .ok path :=
    hgenerated.isFor.certificate ▸ hgenerated.located
  obtain ⟨hplain, rfl⟩ := Location.path_eq_ok hgenerated.located
  obtain ⟨hplain', rfl⟩ := Location.path_eq_ok hgenerated.keyLocated
  obtain ⟨hleads, hleads'⟩ := hpair.leadsToPrivate hplaced.directory hplain.isNamePiece
    hplain'.isNamePiece hthere
  rw [← hplaced.certificate] at hleads
  rw [← hplaced.key] at hleads'
  have hread := hleads.read
  have hcomponent := hgenerated.isFor.component
  -- The two files are where their paths lead. What is shown and what is exported follows
  -- from reading the first.
  refine ⟨⟨_, _, fun hsame => hpair.different (List.head_eq_of_cons_eq hsame), hleads, hleads'⟩,
    ⟨_, _, hleads'.read, Text.Utf8.decode?_encode _, hgenerated.isIssued.reloads⟩,
    fun format => ?_, fun format out p force hout hfresh => ?_⟩
  · have hwork := Task.ends_carryOut_show hobliging hcomponent hlocated hread
    refine (Task.ends_of_carryOut hroom (Q := fun s t => s = .certificate
      (CertificateSummary.ofCertificate m.certificate _) ∧ t = g.tree)
      (hwork.mono fun result g₁ hr => ⟨_, hr.1, rfl, hr.2⟩) format).mono fun result g' hr => ?_
    obtain ⟨hok, s, ⟨rfl, htree'⟩, hprinted⟩ := hr
    exact ⟨hok, htree', hprinted⟩
  · have hwork := Task.ends_carryOut_export hobliging hcomponent hlocated hread hout hfresh force
    refine (Task.ends_of_carryOut hroom (Q := fun s t => s = .exported
      ⟨m.certificate.serialNumber.text, p, m.certificate.der.length⟩
      ∧ ∃ q, t.LeadsToPrivate p q m.certificate.der)
      (hwork.mono fun result g₁ hr => ⟨_, hr.1, rfl, hr.2⟩) format).mono fun result g' hr => ?_
    obtain ⟨hok, s, ⟨rfl, q, hexported⟩, hprinted⟩ := hr
    exact ⟨hok, q, _, hexported, Certificate.ofDer_eq_ok_iff.2 rfl, hprinted⟩

/-- **What `generate` has made is read back.** When it has succeeded, on a day of
the calendar, there is a pair of private files, one with the certificate and one
with a key of the algorithm that was asked for, which is the key in the
certificate. On every host with these files that refuses nothing and has room,
as long as the component's path leads to them, `showCertificate` with the same
configuration, component and file name reports what `generate` reported of the
certificate, and `exportDer` writes it to every fresh path, and reports its
serial number and how many bytes it has. -/
theorem generate_readsBack (config : SecurityConfig) (label : String) (format : Format)
    (r : GenerateRequest) {h h' : Host} (htoday : h.today.Valid)
    (hrun : (generate config label format r).runOn h = (.ok (), h')) :
    ∃ m path keyPath d, Generated config label format r h h' m path keyPath d
      ∧ ∀ g : Host, g.tree = h'.tree → g.Obliging → g.room = none →
          g.tree.HasDirectory m.component.directory d →
          m.ReadsBack config label r.fileName path keyPath g := by
  obtain ⟨m, path, keyPath, d, hgenerated⟩ := generated_of_generate htoday hrun
  exact ⟨m, path, keyPath, d, hgenerated, fun g htree hobliging hroom hthere =>
    hgenerated.readsBack htree hobliging hroom hthere⟩

/-! ### On a host with nothing on it -/

/-- A request is granted there, and leaves room for an export. -/
theorem generate_bareHost :
    (((generate .default "scm" .table yearRequest).runOn Draft.bareHost).1.isOk
      && ((generate .default "scm" .table yearRequest).runOn Draft.bareHost).2.tree.isFresh
        ⟨"security/scm.der"⟩) = true := by
  decide +kernel

/-- The run that grants it. -/
theorem exists_generate_bareHost :
    ∃ h', (generate .default "scm" .table yearRequest).runOn Draft.bareHost = (.ok (), h')
      ∧ h'.tree.IsFresh ⟨"security/scm.der"⟩ := by
  have htest := generate_bareHost
  generalize (generate .default "scm" .table yearRequest).runOn Draft.bareHost = run at htest ⊢
  obtain ⟨result, h'⟩ := run
  cases result with
  | error e => cases htest
  | ok u =>
    rw [Bool.and_eq_true_iff] at htest
    exact ⟨h', rfl, Tree.isFresh_iff.1 htest.2⟩

/-- **What it has made is shown and exported** there, a key of Ed25519 with
it. -/
theorem readsBack_bareHost :
    ∃ m path keyPath, ∃ g : Host,
      ((make .default "scm" yearRequest).runOn Draft.bareHost).1 = .ok m
        ∧ m.key.algorithm = .ed25519 ∧ m.key.publicKey <:+ m.certificate.publicKey
        ∧ m.ReadsBack .default "scm" none path keyPath g
        ∧ ((showCertificate .default "scm" .json none).runOn g).1 = .ok ()
        ∧ ((exportDer .default "scm" .json ⟨"security/scm.der"⟩ none false).runOn g).1
          = .ok () := by
  obtain ⟨h', hrun, hfresh⟩ := exists_generate_bareHost
  have htoday : Draft.bareHost.today.Valid := by decide
  obtain ⟨m, path, keyPath, d, hgenerated, hreads⟩ :=
    generate_readsBack .default "scm" .table yearRequest htoday hrun
  have hthere := hgenerated.directory.resolve_right fun hreplaced => by cases hreplaced.1
  have hback := hreads { Draft.bareHost with tree := h'.tree } rfl (fun _ _ => rfl) rfl hthere
  have hout : exportPath? ⟨"security/scm.der"⟩ = some ⟨"security/scm.der"⟩ := by decide +kernel
  exact ⟨m, path, keyPath, _, hgenerated.made, hgenerated.isIssued.algorithm,
    hgenerated.isIssued.publicKey, hback, (hback.shown .json).1,
    (hback.exported .json _ _ false hout hfresh).1⟩

/-! ### Where it is not read back

One host for each of the two conditions. On the first one the key takes the
place of a link, with leave to replace files; on the second there is nothing
at the destination of an export, whose name is too long for a file. -/

/-- **An export fails** where file systems do not take the path. -/
theorem error_of_exportDer {config : SecurityConfig} {label : String} {format : Format}
    {dir : Path} {n : String} (hdir : Path.EndsInName dir) (hn : Path.IsNamePiece n.toList)
    (htaken : ¬ Tree.IsTaken dir n) (fileName : Option String) (force : Bool) (h : Host) :
    ∃ e, ((exportDer config label format (dir.join ⟨n⟩) fileName force).runOn h).1 = .error e := by
  cases hresult : ((exportDer config label format (dir.join ⟨n⟩) fileName force).runOn h).1 with
  | error e => exact ⟨e, rfl⟩
  | ok u =>
    obtain ⟨s, h₅, hwork, -⟩ := Task.perform_eq_ok (.exportDer (dir.join ⟨n⟩) fileName force)
      (Prod.ext hresult rfl)
    obtain ⟨target, h₁, htarget, hwork⟩ := runOn_bind_eq_ok hwork
    obtain ⟨component, h₂, -, hwork⟩ := runOn_bind_eq_ok hwork
    obtain ⟨c, h₃, -, hwork⟩ := runOn_bind_eq_ok hwork
    obtain ⟨p, h₄, hwrite, -⟩ := runOn_bind_eq_ok hwork
    have hend := Component.ends_writeDer h₃ component (some target) (.ofFlag force) c
    unfold Ends at hend
    rw [show (component.writeDer c (some target) (.ofFlag force)).run.runOn h₃ = (.ok p, h₄) from
      Program.runOn_eq_of_ofAction hwrite] at hend
    obtain ⟨hpath, made, q, hwritten⟩ := hend.written
    unfold destination at htarget
    rw [Path.fileName?_join dir hn, Path.parent?_join hdir hn] at htarget
    cases htarget
    obtain ⟨-, rfl⟩ := Location.path_eq_ok hpath
    obtain ⟨d, -, htaken', -⟩ := hwritten.below hdir hn
    exact absurd htaken' htaken

theorem length_le_utf8ByteSize (s : List Char) : s.length ≤ (String.ofList s).utf8ByteSize := by
  induction s with
  | nil => exact Nat.zero_le _
  | cons c rest ih =>
    have hcons : String.ofList (c :: rest) = String.singleton c ++ String.ofList rest := by
      rw [String.singleton_eq_ofList, ← String.ofList_append, List.singleton_append]
    rw [hcons, String.utf8ByteSize_append, String.utf8ByteSize_singleton, List.length_cons]
    have hsize := c.utf8Size_pos
    omega

/-- A name of a given length. -/
def longName (k : Nat) : String := String.ofList (List.replicate k 'x')

theorem isNamePiece_longName {k : Nat} (hk : 2 < k) : Path.IsNamePiece (longName k).toList := by
  have hlength : (longName k).toList.length = k := by
    rw [longName, String.toList_ofList, List.length_replicate]
  refine ⟨fun hnil => ?_, fun hdot => ?_, fun hup => ?_, fun hslash => ?_⟩
  · rw [hnil] at hlength
    exact absurd (hlength ▸ hk) (by decide)
  · rw [hdot] at hlength
    exact absurd (hlength ▸ hk) (by decide)
  · rw [hup] at hlength
    exact absurd (hlength ▸ hk) (by decide)
  · rw [longName, String.toList_ofList] at hslash
    exact absurd (List.eq_of_mem_replicate hslash) (by decide)

/-- There is a limit to the length. -/
theorem not_isTaken_longName {k : Nat} (hk : Tree.longestName < k) (dir : Path) :
    ¬ Tree.IsTaken dir (longName k) := by
  intro htaken
  have hlength := (length_le_utf8ByteSize (List.replicate k 'x')).trans htaken.name
  rw [List.length_replicate] at hlength
  exact absurd hlength (Nat.not_le.2 hk)

/-- Whether a command succeeds. -/
def succeeds (c : Command Unit) : Command Bool :=
  tryCatch (do c; return true) fun _ => return false

/-- A command that is found not to succeed has failed. -/
theorem error_of_succeeds {c : Command Unit} {h h' : Host}
    (hrun : (succeeds c).runOn h = (.ok false, h')) : ∃ e, (c.runOn h).1 = .error e := by
  have hc : (ExceptT.run c).Ends h fun result _ => (c.runOn h).1 = result := rfl
  have hpart : (ExceptT.run (do c; return true : Command Bool)).Ends h fun result _ =>
      match result with
      | .ok succeeded => succeeded = true
      | .error e => (c.runOn h).1 = .error e := hc.run_bind (fun _ _ _ => rfl) fun _ _ he => he
  have hend : (ExceptT.run (succeeds c)).Ends h fun result _ =>
      result = .ok false → ∃ e, (c.runOn h).1 = .error e := by
    refine hpart.run_tryCatch (fun succeeded h₁ hr hfalse => ?_) fun e h₁ hr _ => ⟨e, hr⟩
    cases hfalse
    cases hr
  exact hend (congrArg Prod.fst hrun)

/-- A host on which the path of a component goes by a link that has the name of
the component's key. -/
def linkHost : Host where
  tree := ⟨[], [(["security"], .directory 0o755), (["private.pem", "security"], .link ⟨"."⟩)]⟩
  today := ⟨2024, 1, 1⟩
  entropy := fun _ _ => []

/-- A request that is granted there, and after which nothing is shown. -/
theorem generate_linkHost :
    ((do
      generate .default "private.pem" .table { yearRequest with force := true }
      succeeds (showCertificate .default "private.pem" .table none) : Command Bool).runOn
        linkHost).1.toOption = some false := by
  decide +kernel

/-- The key takes the place of a link that the path goes by. -/
theorem not_shown_linkHost :
    ∃ h' e, (generate .default "private.pem" .table { yearRequest with force := true }).runOn
        linkHost = (.ok (), h')
      ∧ ((showCertificate .default "private.pem" .table none).runOn h').1 = .error e := by
  have htest := generate_linkHost
  generalize hboth : Command.runOn _ linkHost = run at htest
  obtain ⟨result, h'⟩ := run
  cases result with
  | error e => cases htest
  | ok shown =>
    obtain rfl : shown = false := Option.some.inj htest
    obtain ⟨u, h₁, hrun, hshow⟩ := runOn_bind_eq_ok hboth
    obtain ⟨e, he⟩ := error_of_succeeds hshow
    exact ⟨h₁, e, hrun, he⟩

/-- **What was generated is not always shown**, nor is it exported wherever there
is nothing: the key may take the place of a link that the component's path goes
by, and there are names that no file can have. -/
theorem not_readsBack :
    (∃ h' e, (generate .default "private.pem" .table { yearRequest with force := true }).runOn
        linkHost = (.ok (), h')
      ∧ ((showCertificate .default "private.pem" .table none).runOn h').1 = .error e)
    ∧ ∃ h' e, (generate .default "scm" .table yearRequest).runOn Draft.bareHost = (.ok (), h')
      ∧ h'.tree.kind? ⟨"security"⟩ = some .directory
      ∧ h'.tree.kind? (Path.join ⟨"security"⟩ ⟨longName 256⟩) = none
      ∧ ((exportDer .default "scm" .table (Path.join ⟨"security"⟩ ⟨longName 256⟩) none
        false).runOn h').1 = .error e := by
  refine ⟨not_shown_linkHost, ?_⟩
  obtain ⟨h', hrun, hfresh⟩ := exists_generate_bareHost
  have hplain : Path.IsPlainSegment "security" := by decide +kernel
  have hdir : Path.EndsInName ⟨"security"⟩ :=
    ⟨[], "security".toList, Path.pieces_name hplain.isNamePiece, hplain.isNamePiece⟩
  have hdirectory : (Path.mk "security/scm.der").directory = ⟨"security"⟩ := by decide +kernel
  obtain ⟨d, mode, hd⟩ := hfresh.directory
  rw [hdirectory] at hd
  have hname : Path.IsNamePiece (longName 256).toList := isNamePiece_longName (by decide)
  have hlong : ¬ Tree.IsTaken ⟨"security"⟩ (longName 256) := not_isTaken_longName (by decide) _
  -- The text of the name is not to be computed with from here on.
  generalize longName 256 = n at hname hlong ⊢
  obtain ⟨e, hexport⟩ := error_of_exportDer hdir hname hlong none false h'
  exact ⟨h', e, hrun, Files.kind?_directory hd, Tree.kind?_join_refused hdir hname hd hlong,
    hexport⟩

end CertAuthority.Command
