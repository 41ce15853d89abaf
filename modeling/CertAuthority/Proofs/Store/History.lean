import CertAuthority.Proofs.Certificate.Binary
import CertAuthority.Proofs.Files.Linkless
import CertAuthority.Proofs.Store.Call
import Mathlib.Data.List.Find

/-!
# The last write is what is read

A history of a store is a host and the writes that succeeded on it, the last
one first. Many paths lead to one file, so a write counts for every path that
leads to the place it went to: `History.lastWrite?` is the last write to where
a path leads.

Without links the places of paths are settled once there is an entry, and no
call unsettles them (`Faithful.entryPlace?_call`). So what every call preserves
is that the files that were written have what was last written to them
(`History.Faithful`): a write that succeeds puts its own content there and
leaves the other files alone, and any other call leaves all files alone. By
induction this holds after any calls (`faithful_after`), and what is read is
what was last written (`reads_last_write`).
-/

namespace CertAuthority

namespace Files.Tree

variable {t t' : Tree} {p : Path} {q : Place}

/-- **The place of the entry a path leads to**, links seen through. -/
def entryPlace? (t : Tree) (p : Path) : Option Place :=
  match t.locate true p with
  | .entry q _ => some q
  | _ => none

/-- A path leads to a place if it leads to an entry there. -/
theorem entryPlace?_eq_some_iff : t.entryPlace? p = some q ↔ ∃ e, t.locate true p = .entry q e := by
  unfold entryPlace?
  cases t.locate true p with
  | entry q' e => simp
  | vacant d n => simp
  | refused fault => simp

/-- Where a path leads it leads ever after. -/
theorem Linkless.entryPlace?_keeps (ht : t.Linkless) (h : KeepsPlaces t t')
    (hq : t.entryPlace? p = some q) : t'.entryPlace? p = some q := by
  rw [entryPlace?_eq_some_iff] at hq ⊢
  obtain ⟨e, he⟩ := hq
  exact ht.locate_keeps h (by rw [he]; rfl) (Or.inl ⟨e, he⟩)

/-- What is read at a path is what the file at its place holds. -/
theorem read_of_entryPlace? {mode : Nat} {content : Bytes} (hq : t.entryPlace? p = some q)
    (hget : t.get? q = some (.file mode content)) : t.read p = .ok content := by
  obtain ⟨e, he⟩ := entryPlace?_eq_some_iff.1 hq
  rw [read, he, eq_file_of_locate he hget]

end Files.Tree

namespace Store

open Files (Place Tree)

/-- **What has happened to a store**: the host as it is, and what was
written. -/
structure History where
  /-- The host. -/
  host : Host
  /-- The writes that succeeded, the last one first. -/
  writes : List Write := []

namespace History

variable (s : History) (k : Call)

/-- The history with one more call. -/
def call : History where
  host := (k.perform.runOn s.host).2
  writes :=
    match (k.perform.runOn s.host).1 with
    | .ok (some w) => w :: s.writes
    | _ => s.writes

/-- **The history of calls on a host**, one after another. -/
def after (h : Host) (calls : List Call) : History := calls.foldl call ⟨h, []⟩

/-- The last write to a place. -/
def lastWriteAt? (q : Place) : Option Write :=
  s.writes.find? fun w => s.host.tree.entryPlace? w.path = some q

/-- **The last write to the place that a path leads to** now. It may have been
made by another path. -/
def lastWrite? (path : Path) : Option Write :=
  (s.host.tree.entryPlace? path).bind s.lastWriteAt?

/-! ## One more call -/

/-- **What a call does to a history.** Either something was written, or
nothing is lost. -/
theorem call_cases :
    (∃ w mode made q, (k.perform.runOn s.host).1 = .ok (some w)
        ∧ (s.call k).writes = w :: s.writes
        ∧ Files.Written w.path w.content mode s.host.tree made (s.call k).host.tree q)
      ∨ (∀ w, (k.perform.runOn s.host).1 ≠ .ok (some w)) ∧ (s.call k).writes = s.writes
        ∧ Tree.Extends s.host.tree (s.call k).host.tree
        ∧ (s.host.tree.Linkless → (s.call k).host.tree.Linkless) := by
  have hend : Call.End s.host (k.perform.runOn s.host).1 (s.call k).host := k.ends_perform s.host
  unfold call at hend ⊢
  cases hresult : (k.perform.runOn s.host).1 with
  | ok written =>
    rw [hresult] at hend
    cases written with
    | some w =>
      obtain ⟨mode, made, q, hwritten⟩ := hend
      exact Or.inl ⟨w, mode, made, q, rfl, rfl, hwritten⟩
    | none =>
      have htree : (k.perform.runOn s.host).2.tree = s.host.tree := hend
      refine Or.inr ⟨by simp, rfl, ?_, ?_⟩
      · rw [htree]
        exact Tree.Extends.refl _
      · rw [htree]
        exact id
  | error e =>
    rw [hresult] at hend
    refine Or.inr ⟨by simp, rfl, ?_⟩
    rcases hend with htree | ⟨path, hunwritten⟩
    · rw [htree]
      exact ⟨Tree.Extends.refl _, id⟩
    · exact ⟨hunwritten.toExtends, hunwritten.linkless⟩

/-- A call keeps places. -/
theorem keepsPlaces_call : Tree.KeepsPlaces s.host.tree (s.call k).host.tree := by
  rcases s.call_cases k with ⟨w, mode, made, q, -, -, hwritten⟩ | ⟨-, -, hextends, -⟩
  · exact hwritten.keepsPlaces
  · exact hextends.keepsPlaces

/-! ## What every call preserves

The files agree with a history if at each place there is what was last written
there. A call that writes changes one place, and on files without links no
path leads elsewhere afterwards. So the agreement is kept, call by call. -/

/-- **A history that the files agree with.** It is what every call preserves,
and it is about places: two paths that lead to one place have one last write. -/
structure Faithful (s : History) : Prop where
  /-- There are no links. -/
  linkless : s.host.tree.Linkless
  /-- What was written is there. -/
  leads : ∀ w ∈ s.writes, ∃ q, s.host.tree.entryPlace? w.path = some q
  /-- It is what was last written. -/
  content : ∀ q w, s.lastWriteAt? q = some w →
    ∃ mode, s.host.tree.get? q = some (.file mode w.content)

namespace Faithful

variable {s k}

/-- **Where a path leads it leads after any call.** Nothing that a call does
takes an entry away or makes another kind of it. -/
theorem entryPlace?_call (hs : s.Faithful) (k : Call) {path : Path} {q : Place}
    (hq : s.host.tree.entryPlace? path = some q) : (s.call k).host.tree.entryPlace? path = some q :=
  hs.linkless.entryPlace?_keeps (s.keepsPlaces_call k) hq

/-- The earlier writes to a place are the same, whichever tree is asked. -/
theorem find?_call (hs : s.Faithful) (k : Call) (q : Place) :
    (s.writes.find? fun w => (s.call k).host.tree.entryPlace? w.path = some q)
      = s.lastWriteAt? q := by
  refine List.find?_congr fun w hw => ?_
  obtain ⟨q', hq'⟩ := hs.leads w hw
  rw [hq', hs.entryPlace?_call k hq']

/-- **After a write its place has it**, and the other places have what they
had. -/
theorem lastWriteAt?_of_written (hs : s.Faithful) {w : Write} {mode : Files.WriteMode} {made : Tree}
    {q : Place} (hwrites : (s.call k).writes = w :: s.writes)
    (hwritten : Files.Written w.path w.content mode s.host.tree made (s.call k).host.tree q)
    (q' : Place) : (s.call k).lastWriteAt? q' = if q' = q then some w else s.lastWriteAt? q' := by
  have hplace : (s.call k).host.tree.entryPlace? w.path = some q :=
    Tree.entryPlace?_eq_some_iff.2 ⟨_, hwritten.locate hs.linkless true⟩
  rw [lastWriteAt?, hwrites]
  split_ifs with hq
  · rw [List.find?_cons_of_pos]
    rw [hq]
    exact decide_eq_true hplace
  · rw [List.find?_cons_of_neg, hs.find?_call]
    rw [hplace, decide_eq_true_eq]
    exact fun h => hq (Option.some.inj h).symm

/-- After any other call the places have what they had. -/
theorem lastWriteAt?_of_not_written (hs : s.Faithful) (hwrites : (s.call k).writes = s.writes)
    (q : Place) : (s.call k).lastWriteAt? q = s.lastWriteAt? q := by
  rw [lastWriteAt?, hwrites, hs.find?_call]

/-- **Every call preserves that the files agree** with what was written. -/
theorem call (hs : s.Faithful) (k : Call) : (s.call k).Faithful := by
  rcases s.call_cases k with ⟨w, mode, made, q, -, hwrites, hwritten⟩
    | ⟨-, hwrites, hextends, hlinkless⟩
  · refine ⟨hwritten.linkless hs.linkless, fun w' hw' => ?_, fun q' w' hlast => ?_⟩
    · rw [hwrites] at hw'
      rcases List.mem_cons.1 hw' with rfl | hw'
      · exact ⟨q, Tree.entryPlace?_eq_some_iff.2 ⟨_, hwritten.locate hs.linkless true⟩⟩
      · obtain ⟨q', hq'⟩ := hs.leads w' hw'
        exact ⟨q', hs.entryPlace?_call k hq'⟩
    · rw [hs.lastWriteAt?_of_written hwrites hwritten] at hlast
      split_ifs at hlast with hq
      · cases hlast
        exact ⟨_, hq ▸ hwritten.moved.self⟩
      · obtain ⟨mode', hfile⟩ := hs.content q' w' hlast
        exact ⟨mode', hwritten.get?_of_ne hq hfile⟩
  · refine ⟨hlinkless hs.linkless, fun w hw => ?_, fun q w hlast => ?_⟩
    · rw [hwrites] at hw
      obtain ⟨q, hq⟩ := hs.leads w hw
      exact ⟨q, hs.entryPlace?_call k hq⟩
    · rw [hs.lastWriteAt?_of_not_written hwrites] at hlast
      obtain ⟨mode, hfile⟩ := hs.content q w hlast
      exact ⟨mode, hextends.get? _ _ hfile⟩

end Faithful

/-- **After any calls the files agree** with what was written. -/
theorem faithful_after {h : Host} (hlinkless : h.tree.Linkless) (calls : List Call) :
    (after h calls).Faithful := by
  have hrun : ∀ s : History, s.Faithful → (calls.foldl History.call s).Faithful := by
    induction calls with
    | nil => exact fun s hs => hs
    | cons k calls ih => exact fun s hs => ih (s.call k) (hs.call k)
  refine hrun ⟨h, []⟩ ⟨hlinkless, fun w hw => ?_, fun q w hlast => ?_⟩
  · cases hw
  · cases hlast

/-! ## What is read

Paths are spelled in many ways, and the last write to a path is that to its
place. What is read there is then what was written, and for each kind of
material it is known what reading makes of it. -/

/-- **What is read is what was last written**, as far as paths lead to one
place. -/
structure ReadsLastWrite (s : History) : Prop where
  /-- A certificate that is read is the one in the last write's bytes, unless
  the host refuses to read. -/
  read : ∀ (c : Component) location path w,
    (location.getD c.certificateLocation).path = .ok path → s.lastWrite? path = some w →
    s.host.refuses s.host.asked (.read path) = none →
    ((c.readCertificate location).runOn s.host).1 = Component.readBack path w.content
  /-- A path that was written has a last write. -/
  written : ∀ w ∈ s.writes, ∃ w', s.lastWrite? w.path = some w'
  /-- Where a path leads it leads after any further call. -/
  settled : ∀ k path q, s.host.tree.entryPlace? path = some q →
    (s.call k).host.tree.entryPlace? path = some q
  /-- A write that succeeds is a write of its material to its location, and the
  last one to its place and to no other. -/
  write : ∀ c m location mode w,
    ((Call.write c m location mode).perform.runOn s.host).1 = .ok (some w) →
    (location.getD (m.home c)).path = .ok w.path ∧ w.content = m.bytes
      ∧ (s.call (.write c m location mode)).lastWrite? w.path = some w
      ∧ ∀ path w', s.lastWrite? path = some w' →
        (s.call (.write c m location mode)).lastWrite? path
          = if (s.call (.write c m location mode)).host.tree.entryPlace? path
              = (s.call (.write c m location mode)).host.tree.entryPlace? w.path
            then some w else some w'
  /-- A call that is refused, that fails, or that reads takes nothing away, and
  changes no last write. -/
  other : ∀ k, (∀ w, (k.perform.runOn s.host).1 ≠ .ok (some w)) →
    Tree.Extends s.host.tree (s.call k).host.tree
      ∧ ∀ path w, s.lastWrite? path = some w → (s.call k).lastWrite? path = some w

theorem exists_place_of_lastWrite? {s : History} {path : Path} {w : Write}
    (h : s.lastWrite? path = some w) :
    ∃ q, s.host.tree.entryPlace? path = some q ∧ s.lastWriteAt? q = some w :=
  Option.bind_eq_some_iff.1 h

/-- The last write of a path is that of its place. -/
theorem lastWrite?_eq {s : History} {path : Path} {q : Place}
    (hq : s.host.tree.entryPlace? path = some q) : s.lastWrite? path = s.lastWriteAt? q := by
  rw [lastWrite?, hq]
  rfl

/-- **Where the files agree with what was written**, what is read is what was
last written. -/
theorem Faithful.readsLastWrite {s : History} (hs : s.Faithful) : s.ReadsLastWrite where
  read := fun c location path w hpath hlast hrefuses => by
    obtain ⟨q, hq, hlastAt⟩ := exists_place_of_lastWrite? hlast
    obtain ⟨mode, hfile⟩ := hs.content q w hlastAt
    exact Component.runOn_readCertificate hpath hrefuses (Tree.read_of_entryPlace? hq hfile)
  written := fun w hw => by
    obtain ⟨q, hq⟩ := hs.leads w hw
    rw [lastWrite?_eq hq, ← Option.isSome_iff_exists, lastWriteAt?, List.find?_isSome]
    exact ⟨w, hw, decide_eq_true hq⟩
  settled := fun k path q hq => hs.entryPlace?_call k hq
  write := fun c m location mode w hresult => by
    obtain ⟨hpath, hcontent⟩ := Call.write_eq_ok hresult
    rcases s.call_cases (.write c m location mode) with
      ⟨w', mode', made, q, hresult', hwrites, hwritten⟩ | ⟨hnot, -⟩
    · obtain rfl : w = w' := Option.some.inj (Except.ok.inj (hresult.symm.trans hresult'))
      have hplace : (s.call (.write c m location mode)).host.tree.entryPlace? w.path = some q :=
        Tree.entryPlace?_eq_some_iff.2 ⟨_, hwritten.locate hs.linkless true⟩
      refine ⟨hpath, hcontent, ?_, fun path w' hlast => ?_⟩
      · rw [lastWrite?_eq hplace, hs.lastWriteAt?_of_written hwrites hwritten, if_pos rfl]
      -- Another path has a new last write if it leads to the same place, and its old one if
      -- not.
      · obtain ⟨q', hq', hlastAt⟩ := exists_place_of_lastWrite? hlast
        have hq'' := hs.entryPlace?_call (.write c m location mode) hq'
        rw [lastWrite?_eq hq'', hs.lastWriteAt?_of_written hwrites hwritten, hlastAt, hq'', hplace]
        simp only [Option.some.injEq]
    · exact absurd hresult (hnot w)
  other := fun k hnot => by
    rcases s.call_cases k with ⟨w, _, _, _, hresult, -, -⟩ | ⟨-, hwrites, hextends, -⟩
    · exact absurd hresult (hnot w)
    · refine ⟨hextends, fun path w hlast => ?_⟩
      obtain ⟨q, hq, hlastAt⟩ := exists_place_of_lastWrite? hlast
      rw [lastWrite?_eq (hs.entryPlace?_call k hq), hs.lastWriteAt?_of_not_written hwrites, hlastAt]

/-- **What is read of what was written**: of a text what it is read as, of a
certificate that certificate, and of its encoding an error of reading. -/
theorem readBack_bytes (path : Path) :
    (∀ text, Component.readBack path (Material.text text).bytes = Certificate.decodePem text)
      ∧ (∀ c, Component.readBack path (Material.certificate c).bytes = .ok c)
      ∧ ∀ c, ∃ cause, Component.readBack path (Material.encoding c).bytes
        = .error (.encoding cause) := by
  have htext : ∀ text : String, Component.readBack path (Text.Utf8.encode text.toList)
      = Certificate.decodePem text := by
    intro text
    simp only [Component.readBack, Text.Utf8.decode_encode, String.ofList_toList]
  refine ⟨htext, fun c => (htext _).trans (Certificate.decodePem_encodePem c), fun c => ?_⟩
  unfold Component.readBack Material.bytes
  cases hdecode : Text.Utf8.decode c.der with
  | error fault => exact ⟨_, rfl⟩
  | ok chars => exact ⟨_, Certificate.not_decodePem_der c hdecode⟩

/-- **The store returns the last write.** After any calls on a host without
links, a certificate that is read is read off the bytes of the last write that
succeeded where its path leads: a certificate that was stored is itself, a text
is what it is read as, and an encoding is refused. Calls that fail and calls
that read change none of this. A call without a location is one to the default
location, and all this is so whichever calls the host refuses on the way. -/
theorem store_returns_last_write (h : Host) (hlinkless : h.tree.Linkless) (calls : List Call) :
    (after h calls).ReadsLastWrite
      ∧ (∀ path, (∀ text, Component.readBack path (Material.text text).bytes
            = Certificate.decodePem text)
          ∧ (∀ c, Component.readBack path (Material.certificate c).bytes = .ok c)
          ∧ ∀ c, ∃ cause, Component.readBack path (Material.encoding c).bytes
            = .error (.encoding cause))
      ∧ ∀ c : Component, (∀ m mode, c.store m none mode = c.store m (some (m.home c)) mode)
          ∧ c.readCertificate none = c.readCertificate (some c.certificateLocation) := by
  exact ⟨(faithful_after hlinkless calls).readsLastWrite, readBack_bytes, fun c =>
    ⟨c.store_none, rfl⟩⟩

/-! ## A file that is written twice -/

/-- A component whose directory is there. -/
def scm : Component := ⟨"scm", ⟨"scm"⟩, ⟨⟨"."⟩, "certificate.crt", "private.pem"⟩⟩

/-- A host with an empty directory for it. -/
def scmHost : Host where
  tree := ⟨[], [(["scm"], .directory 0o700)]⟩
  today := ⟨2024, 1, 1⟩
  entropy := fun _ _ => []

/-- A text is written and then another one in its place, which is not allowed
for a third. -/
def rewrites : List Call :=
  [.write scm (.text "one") none .createNew,
    .write scm (.text "two") (some scm.certificateLocation) .overwrite,
    .write scm (.text "three") none .createNew]

/-- **The second text is read.** -/
theorem readCertificate_rewrites : scmHost.tree.Linkless
    ∧ ((scm.readCertificate none).runOn (after scmHost rewrites).host).1
      = Certificate.decodePem "two" := by
  have hlinkless : scmHost.tree.Linkless := by
    refine Tree.Linkless.of_entries fun x hx target => ?_
    rw [List.mem_singleton.1 hx]
    exact fun h => by cases h
  have hlast : (after scmHost rewrites).lastWrite? ⟨"scm/certificate.crt"⟩
      = some ⟨⟨"scm/certificate.crt"⟩, (Material.text "two").bytes⟩ := by
    decide +kernel
  have htold := store_returns_last_write scmHost hlinkless rewrites
  refine ⟨hlinkless, (htold.1.read scm none _ _ rfl hlast rfl).trans ?_⟩
  exact (htold.2.1 _).1 "two"

end History

end Store

end CertAuthority
