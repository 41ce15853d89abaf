import CertAuthority.Proofs.Command.ReadBack

/-!
# The file that an export is written to

An operator names the destination of an export by a path, and the last component
of that path becomes a file name, which is checked like every file name of the
store, in the directory that is left. Nothing is lost between the two: however
the path is spelled, if it ends in a name the check passes, and the path that is
put together again has the components of the one that was given. If the path
ends in anything else, the command is over before it has asked for anything
(`exportDer_destination`).

That a location passes the check of file names does not depend on how the
directory is spelled, and idle pieces may stand anywhere in the destination,
behind the name as well. The directory is taken as it is, and it may be empty,
which is the working directory.

An export that has succeeded has written the certificate there and has left
the rest as it was, but for directories that were missing
(`exported_of_exportDer`). Both are known from the write: the reading before
it changes nothing.
-/

namespace CertAuthority.Command

open Files (Place Tree)
open Store (Component Location)

variable {config : SecurityConfig} {label : String} {format : Format} {out p : Path}
  {fileName : Option String} {force : Bool} {h h' : Host}

/-! ## The destination -/

theorem fileName?_eq_some_iff {n : String} :
    out.fileName? = some n ↔ out.components.getLast? = some (.normal n) := by
  refine ⟨Path.fileName?_eq_some, fun hlast => ?_⟩
  rw [Path.fileName?, hlast]

/-- **A path that ends in a name** is a location, and the path of that location
is the same path. -/
theorem exists_destination {n : String} (hlast : out.components.getLast? = some (.normal n)) :
    ∃ target : Location, target.fileName = n ∧ target.directory = out.parent?.getD ⟨""⟩
      ∧ ExceptT.run (destination out) = .done (.ok target)
      ∧ ∃ p, target.path = .ok p ∧ p.components = out.components := by
  have hname := fileName?_eq_some_iff.2 hlast
  have hpiece := Path.isNamePiece_of_fileName? hname
  refine ⟨⟨out.parent?.getD ⟨""⟩, n⟩, rfl, rfl, ?_, _,
    Location.path_of_plain (Path.isPlainSegment_iff.2 hpiece),
    Path.sameAs_join_of_fileName? hname hpiece⟩
  unfold destination
  rw [hname]
  rfl

/-- **A path that ends in anything else** is none, and that is found out before
anything is asked for. -/
theorem run_exportDer_of_fileName?_eq_none (hname : out.fileName? = none) :
    ExceptT.run (exportDer config label format out fileName force)
      = .done (.error (.argument (.noFileName out))) := by
  unfold exportDer destination
  rw [hname]
  rfl

/-! ## The export

The destination is taken apart by its pieces, without asking the host: the
last one is the name of the file, and the others lead to its directory. A
piece that is no name, such as one that goes up, cannot be the last. -/

/-- **A certificate that was exported** to a path: what was in a file of the
component is now, in its encoding, where the path leads, and nowhere else, for
all that is new besides are directories on the way. -/
structure Exported (config : SecurityConfig) (label : String) (fileName : Option String)
    (force : Bool) (p : Path) (h h' : Host) (source : Path) (c : Certificate) (made : Tree)
    (q : Place) : Prop where
  /-- The file is the one that was named, or else the component's own. -/
  located : ∃ component, Component.ofConfig config label = .ok component
    ∧ ((fileName.map component.locationFor).getD component.certificateLocation).path = .ok source
  /-- The certificate is in it. -/
  stored : ∃ content, h.tree.read source = .ok content
    ∧ Component.readBack source content = .ok c
  /-- Its encoding was written. -/
  written : Files.Written p c.der (.ofFlag force) h.tree made h'.tree q

/-- **An export that succeeds** has been written to its destination. -/
theorem exported_of_exportDer {target : Location}
    (htarget : ExceptT.run (destination out) = .done (.ok target)) (hpath : target.path = .ok p)
    (hrun : (exportDer config label format out fileName force).runOn h = (.ok (), h')) :
    ∃ source c made q, Exported config label fileName force p h h' source c made q := by
  obtain ⟨s, h₄, hwork, htree, -⟩ := Task.perform_eq_ok (.exportDer out fileName force) hrun
  obtain ⟨target', h₁, hdestination, hwork⟩ := runOn_bind_eq_ok hwork
  obtain ⟨component, h₂, hresolve, hwork⟩ := runOn_bind_eq_ok hwork
  obtain ⟨c, h₃, hread, hwork⟩ := runOn_bind_eq_ok hwork
  obtain ⟨p', h₅, hwrite, hdone⟩ := runOn_bind_eq_ok hwork
  -- Up to the write the files are as they were.
  rw [runOn, htarget] at hdestination
  cases hdestination
  cases hdone
  have hcomponent : Component.ofConfig config label = .ok component :=
    ends_ofAction_resolve config label h component (congrArg Prod.fst hresolve)
  have htree₂ : h₂.tree = h.tree :=
    congrArg (fun x => x.2.tree) hresolve ▸
      (Component.looks_resolve config label).run_ofAction.tree_runOn h
  have htree₃ : h₃.tree = h₂.tree :=
    congrArg (fun x => x.2.tree) hread ▸
      (component.looks_readCertificate _).run_ofAction.tree_runOn h₂
  obtain ⟨source, content, hsource, hcontent, hback⟩ := Component.readCertificate_eq_ok
    (congrArg Prod.fst (Program.runOn_eq_of_ofAction hread))
  have hend := Component.ends_writeDer h₃ component (some target) (.ofFlag force) c
  unfold Program.Ends at hend
  rw [show (component.writeDer c (some target) (.ofFlag force)).run.runOn h₃ = (.ok p', h₄) from
    Program.runOn_eq_of_ofAction hwrite, Option.getD_some, hpath] at hend
  obtain ⟨hsame, made, q, hwritten⟩ := hend.written
  cases hsame
  rw [htree₃, htree₂, ← htree] at hwritten
  rw [htree₂] at hcontent
  exact ⟨source, c, made, q, ⟨component, hcomponent, hsource⟩, ⟨content, hcontent, hback⟩,
    hwritten⟩

/-- **The export goes to the file that was named.** Where the destination ends in
a name, that name in the directory before it is a location that passes the check
of file names, its path has exactly the components of the destination, and an
export that succeeds has written the encoding of the stored certificate to that
path and nowhere else. Where the destination is empty or ends in a slash that
leads to the top, in `.` or in `..`, the export fails, and it has neither read
nor written anything, for it has asked for nothing. -/
theorem exportDer_destination (config : SecurityConfig) (label : String) (format : Format)
    (out : Path) (fileName : Option String) (force : Bool) :
    match out.components.getLast? with
    | some (.normal n) => ∃ target : Location, target.fileName = n
        ∧ target.directory = out.parent?.getD ⟨""⟩
        ∧ ExceptT.run (destination out) = .done (.ok target)
        ∧ ∃ p, target.path = .ok p ∧ p.components = out.components
          ∧ ∀ h h', (exportDer config label format out fileName force).runOn h = (.ok (), h') →
              ∃ source c made q, Exported config label fileName force p h h' source c made q
    | _ => ExceptT.run (exportDer config label format out fileName force)
        = .done (.error (.argument (.noFileName out))) := by
  split
  · rename_i n hlast
    obtain ⟨target, hname, hdirectory, htarget, p, hpath, hcomponents⟩ := exists_destination hlast
    exact ⟨target, hname, hdirectory, htarget, p, hpath, hcomponents, fun h h' hrun =>
      exported_of_exportDer htarget hpath hrun⟩
  · rename_i hlast
    refine run_exportDer_of_fileName?_eq_none (Option.eq_none_iff_forall_ne_some.2 fun n hname => ?_)
    exact hlast n (fileName?_eq_some_iff.1 hname)

/-- What was generated on a host with nothing on it is exported, to a destination
that is spelled with idle pieces in the middle and at its end. -/
theorem exported_bareHost : ∃ g g' source c made q,
    (exportDer .default "scm" .json ⟨"security/./scm.der/."⟩ none false).runOn g = (.ok (), g')
      ∧ Exported .default "scm" none false ⟨"security/scm.der"⟩ g g' source c made q
      ∧ ExceptT.run (exportDer .default "scm" .json ⟨"security/.."⟩ none false)
        = .done (.error (.argument (.noFileName ⟨"security/.."⟩))) := by
  obtain ⟨h', hrun, hfresh⟩ := exists_generate_bareHost
  have htoday : Draft.bareHost.today.Valid := by decide
  obtain ⟨m, path, keyPath, d, hgenerated⟩ := generated_of_generate htoday hrun
  have hthere := hgenerated.directory.resolve_right fun hreplaced => by cases hreplaced.1
  let g : Host := { Draft.bareHost with tree := h'.tree }
  have hback := hgenerated.readsBack (g := g) rfl (fun _ _ => rfl) rfl hthere
  have hout : exportPath? ⟨"security/./scm.der/."⟩ = some ⟨"security/scm.der"⟩ := by
    decide +kernel
  have hok := (hback.exported .json _ _ false hout hfresh).1
  have hlast : (Path.mk "security/./scm.der/.").components.getLast? = some (.normal "scm.der") := by
    decide +kernel
  have hexport := exportDer_destination .default "scm" .json ⟨"security/./scm.der/."⟩ none false
  rw [hlast] at hexport
  obtain ⟨target, hname, hdirectory, -, p, hpath, -, hexported⟩ := hexport
  obtain ⟨source, c, made, q, hthis⟩ := hexported g _ (Prod.ext hok rfl)
  have hp : p = ⟨"security/scm.der"⟩ := by
    rw [(Location.path_eq_ok hpath).2, hname, hdirectory]
    decide +kernel
  rw [hp] at hthis
  have hup : (Path.mk "security/..").components.getLast? = some .parent := by decide +kernel
  have hnone := exportDer_destination .default "scm" .json ⟨"security/.."⟩ none false
  rw [hup] at hnone
  exact ⟨g, _, source, c, made, q, Prod.ext hok rfl, hthis, hnone⟩

end CertAuthority.Command
