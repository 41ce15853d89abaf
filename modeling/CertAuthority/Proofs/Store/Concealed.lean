import CertAuthority.Proofs.Files.AtomicWrite
import CertAuthority.Proofs.Pem.Block
import CertAuthority.Proofs.Program.Abreast
import CertAuthority.Store.Component

/-!
# Storing shows no more than a size

Two files of one size are written in the same way. On hosts that are alike the
same directories are made, a temporary file of the same name is filled, the
same is noted and the same step fails, if any does, whatever is in the files
(`Files.agree_write`). For texts the size is that of the encoding, and the
texts of certificates and keys are of one size if these have encodings of one
length (`Pem.length_encode_encodeBlock`). So nobody can tell two keys apart by
how they are stored (`Store.Component.agree_writePrivateKey`), nor two
certificates that differ in no more than the key
(`Store.Component.agree_writeCertificate`).

A write has one step that is not blind, the one that fills the temporary file.
Every other step is the same program twice, and that it asks for no secret is
read off the program. What is noted of a certificate is its serial number and
where it has gone, so that two certificates need to have one serial number for
their traces to be the same; of a key only the path is noted.
-/

namespace CertAuthority

open Program (Agree Asks)

namespace Files

open Program (request)

variable {h h' : Host} {content content' : Bytes}

/-- **Filling a file and giving it its name** goes the same way with equally
many bytes. -/
theorem agree_fillAndSettle (hh : h.Alike h') (hlength : content.length = content'.length)
    (temporary path : Path) (mode : WriteMode) :
    Agree (Matches Eq) Host.Alike (fillAndSettle temporary path content mode).run
      (fillAndSettle temporary path content' mode).run h h' := by
  have hfill : Agree (Matches Eq) Host.Alike (request (.fill temporary content))
      (request (.fill temporary content')) h h' :=
    (hh.answer_fill temporary hlength).imp_left matches_eq_iff.2
  have hrest : (Action.orFault temporary (request (.restrict temporary privateFileMode))
      >>= fun _ => settle temporary path mode).run.IsBlind := by
    refine Asks.run_bind (Asks.run_orFault (Program.asks_request ?_)) fun _ => ?_
    · rfl
    · exact asks_settle (fun _ => rfl) (fun _ _ => rfl) (fun _ _ => rfl) temporary path mode
  exact hfill.run_orFault.run_bind (fun _ _ g g' _ hg => hrest.matches hg) fun _ _ hg => hg

/-- **Files of one size are written in the same way.** -/
theorem agree_write (hh : h.Alike h') (hlength : content.length = content'.length) (path : Path)
    (mode : WriteMode) :
    Agree (Matches Eq) Host.Alike (write path content mode).run (write path content' mode).run
      h h' := by
  unfold write
  extract_lets dir proceed proceed'
  -- Filling the file is the one request with a secret in it. All others are the same on
  -- both sides.
  have hproceed : ∀ {g g' : Host}, g.Alike g' →
      Agree (Matches Eq) Host.Alike (proceed ()).run (proceed' ()).run g g' := by
    intro g g' hg
    have hdirectory : (ensureDirectory dir).run.IsBlind :=
      asks_ensureDirectory (fun _ => rfl) (fun _ => rfl) fun _ _ _ => rfl
    have htemporary : (Action.orFault dir (request (.createTemporary dir path))).run.IsBlind :=
      Asks.run_orFault ⟨rfl, fun _ => trivial⟩
    refine (hdirectory.matches hg).run_bind (fun _ _ g g' _ hg => ?_) fun _ _ hg => hg
    refine (htemporary.matches hg).run_bind (fun temporary _ g g' ht hg => ?_) fun _ _ hg => hg
    subst ht
    refine Agree.run_bind (Agree.run_tryCatch (agree_fillAndSettle hg hlength temporary path mode)
      fun e g g' hg => ?_) (fun _ _ g g' _ hg => ?_) fun _ _ hg => hg
    · have hdiscard : (discard temporary >>= fun _ => throw e : Action Unit).run.IsBlind :=
        (asks_discard (fun _ => rfl) temporary).run_bind fun _ => trivial
      exact hdiscard.matches hg
    · rw [hlength]
      exact Program.IsBlind.matches (Program.asks_note rfl) hg
  split_ifs
  · have hfound : (request (.kind path)).IsBlind := ⟨rfl, fun _ => trivial⟩
    refine (hfound.agree hh).run_lift.run_bind (fun found _ g g' hf hg => ?_) fun _ _ hg => hg
    subst hf
    split_ifs
    · have hrefused : (Action.note (.overwriteRefused path)
          >>= fun _ => throw (.fileAlreadyExists path) : Action Unit).run.IsBlind :=
        Asks.run_bind (Program.asks_note rfl) fun _ => trivial
      exact hrefused.matches hg
    · exact hproceed hg
  · exact hproceed hh

end Files

namespace Store.Component

variable {h h' : Host} (c : Component) (location : Option Location) (mode : Files.WriteMode)

/-- A path that is noted and returned. -/
theorem agree_noted (hh : h.Alike h') (path : Path) (e : Event) :
    Agree (Matches Eq) Host.Alike (Action.note e >>= fun _ => pure path : Action Path).run
      (Action.note e >>= fun _ => pure path : Action Path).run h h' :=
  Program.IsBlind.matches (Asks.run_bind (Program.asks_note rfl) fun _ => trivial) hh

/-- Where a text of a given size goes does not depend on the text. -/
theorem agree_writeAt (hh : h.Alike h') {text text' : String}
    (hlength : (Text.Utf8.encode text.toList).length = (Text.Utf8.encode text'.toList).length)
    (target : Except Error Path) {f f' : Path → Action Path}
    (hf : ∀ path g g', g.Alike g' → Agree (Matches Eq) Host.Alike (f path).run (f' path).run g g') :
    Agree (Matches Eq) Host.Alike
      (do
        let path ← Action.ofExcept target
        Files.writeText path text mode
        f path : Action Path).run
      (do
        let path ← Action.ofExcept target
        Files.writeText path text' mode
        f' path : Action Path).run h h' := by
  have htarget : (Action.ofExcept target).run.IsBlind := trivial
  refine (htarget.matches hh).run_bind (fun path _ g g' hpath hg => ?_) fun _ _ hg => hg
  subst hpath
  exact (Files.agree_write hg hlength path mode).run_bind (fun _ _ g g' _ hg => hf path g g' hg)
    fun _ _ hg => hg

/-- **How a key is stored does not tell which.** -/
theorem agree_writePrivateKey (hh : h.Alike h') {k k' : PrivateKey}
    (hlength : k.der.length = k'.der.length) :
    Agree (Matches Eq) Host.Alike (c.writePrivateKey k location mode).run
      (c.writePrivateKey k' location mode).run h h' :=
  agree_writeAt mode hh (Pem.length_encode_encodeBlock _ hlength) _ fun path _ _ hg =>
    agree_noted hg path _

/-- **How a certificate is stored does not tell its key.** -/
theorem agree_writeCertificate (hh : h.Alike h') {certificate certificate' : Certificate}
    (hlength : certificate.der.length = certificate'.der.length)
    (hserial : certificate.serialNumber = certificate'.serialNumber) :
    Agree (Matches Eq) Host.Alike (c.writeCertificate certificate location mode).run
      (c.writeCertificate certificate' location mode).run h h' := by
  have hpem : Agree (Matches Eq) Host.Alike (c.writePem certificate.encodePem location mode).run
      (c.writePem certificate'.encodePem location mode).run h h' :=
    agree_writeAt mode hh (Pem.length_encode_encodeBlock _ hlength) _ fun _ _ _ hg => ⟨.ok rfl, hg⟩
  refine hpem.run_bind (fun path _ g g' hpath hg => ?_) fun _ _ hg => hg
  subst hpath
  rw [hserial]
  exact agree_noted hg path _

end Store.Component

end CertAuthority
