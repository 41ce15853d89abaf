import CertAuthority.Proofs.Calendar.Zulu
import CertAuthority.Proofs.Certificate.SelfSigned
import CertAuthority.Proofs.Command.Report
import CertAuthority.Proofs.Json.Unique
import CertAuthority.Proofs.Json.Written

/-!
# What is reported for programs

A summary that is reported as JSON can be had back from what is printed
(`CertificateSummary.report_json`). The text is one object and a line end, and as
a text is that of one syntax tree at most, it does not matter how the object is
read: its fields are those that were written, with the strings they were written
from, whatever their characters, and the times are read back as instants. So
different summaries are never printed alike.

The times have to be such as clocks show, as those of every certificate are. The
type of instants has others, with a leap second inside a minute, and what is
printed of these is printed of the second after as well (`reportText_leap`).
-/

namespace CertAuthority

/-- The ends of a window that was read are whole seconds. -/
theorem Validity.nanos_of_read? {v : Validity} {b rest : Bytes} (h : read? b = some (v, rest)) :
    v.notBefore.nanos = 0 ∧ v.notAfter.nanos = 0 := by
  obtain ⟨e, left, -, -, hread⟩ := Der.readInside?_eq_some_iff.1 h
  obtain ⟨⟨notBefore, b₁⟩, -, hread⟩ := Option.bind_eq_some_iff.1 hread
  obtain ⟨⟨notAfter, b₂⟩, -, hread⟩ := Option.bind_eq_some_iff.1 hread
  obtain ⟨rfl, -⟩ := Prod.mk.inj (Option.some.inj hread)
  exact ⟨rfl, rfl⟩

namespace Command

open Calendar (Instant)
open Json (Document Value Layout Item)
open Program (Ends)

namespace CertificateSummary

variable {s s' : CertificateSummary}

/-! ## Reading

The entries of a summary are written in a fixed order and are looked up by
their names, so that a summary is read from them without regard to the order.
Two of the fields are written only if they are set. -/

/-- **The summary that entries say**: each field by its name, where the last two
may be missing. -/
def ofEntries? (entries : List (String × Value)) : Option CertificateSummary := do
  let string? (name : String) : Option String := (entries.lookup name).bind Value.string?
  let optional? (name : String) : Option (Option String) :=
    (entries.lookup name).elim (some none) fun v => v.string?.map some
  return {
    serialNumber := ← string? "serial_number"
    subject := ← string? "subject"
    issuer := ← string? "issuer"
    notBefore := ← (string? "not_before").bind Instant.ofZulu?
    notAfter := ← (string? "not_after").bind Instant.ofZulu?
    isCa := ← (entries.lookup "is_ca").bind Value.bool?
    san := ← (entries.lookup "san").bind Value.strings?
    path := ⟨← string? "path"⟩
    keyPath := (← optional? "key_path").map Path.mk
    algorithm := ← optional? "algorithm" }

/-- The entries that are written of a summary. -/
def entries (s : CertificateSummary) : List (String × Value) :=
  s.object.map fun (name, item) => (name, item.laidOut .pretty)

/-- **The times of a summary are shown by clocks.** Those of a certificate are:
they are whole seconds (`isTimed_ofCertificate`). What is left out is a time that
has been set to a leap second inside a minute, which there is no clock to show. It
is reported as the second after it (`reportText_leap`), so a report cannot say
which of the two it is about. -/
def IsTimed (s : CertificateSummary) : Prop := s.notBefore.IsOnClock ∧ s.notAfter.IsOnClock

/-- **A leap second within a minute** is reported as the second after it. -/
theorem reportText_leap (s : CertificateSummary) {seconds : Int} {nanos : Nat}
    (hseconds : seconds % 60 ≠ 59) (hleap : 1000000000 ≤ nanos) (hnanos : nanos < 2000000000) :
    reportText .json { s with notBefore := ⟨seconds, nanos⟩ }
      = reportText .json { s with notBefore := ⟨seconds + 1, nanos - 1000000000⟩ } := by
  have htext := Instant.zuluText_leap hseconds hleap hnanos
  have hobject : ({ s with notBefore := ⟨seconds, nanos⟩ } : CertificateSummary).object
      = ({ s with notBefore := ⟨seconds + 1, nanos - 1000000000⟩ } : CertificateSummary).object := by
    unfold object
    dsimp only
    rw [htext]
  exact congrArg (Json.pretty · ++ "\n") hobject

/-- **The times of a certificate are shown by clocks**: they are whole seconds. -/
theorem isTimed_ofCertificate (c : Certificate) (path : Path) : (ofCertificate c path).IsTimed := by
  obtain ⟨b, rest, hread⟩ := c.isRead_statement.validity
  obtain ⟨hbefore, hafter⟩ := Validity.nanos_of_read? hread
  exact ⟨Or.inl (hbefore.trans_lt (by decide)), Or.inl (hafter.trans_lt (by decide))⟩

/-- The key and its algorithm are added to a summary without touching its times.
-/
theorem IsTimed.withKey (h : s.IsTimed) (keyPath : Path) (algorithm : String) :
    (s.withKey keyPath algorithm).IsTimed := h

/-! ## Printing

A document leaves open where blanks are and which characters are escaped, but
its text is that of no other value. So it does not matter which reader a
program uses, as long as it is one of the grammar, and two summaries with one
text are one summary. -/

/-- **A text that says a summary**, and nothing else: it can be taken for one
document only, and its entries are those of this summary. -/
structure IsSaidBy (s : CertificateSummary) (text : String) : Prop where
  /-- The text is that of an object, and a line end. -/
  object : ∃ d : Document, text = d.text ++ "\n" ∧ d.before = .none ∧ d.after = .none
    ∧ d.value.entries? ≠ none
  /-- However the text is taken apart, it has fields of different names that say
  the summary. What is not known is not among them. -/
  entries : ∀ d : Document, d.text = text → ∃ entries, d.value.entries? = some entries
    ∧ (entries.map Prod.fst).Nodup ∧ ofEntries? entries = some s
    ∧ ("key_path" ∈ entries.map Prod.fst ↔ s.keyPath.isSome)
    ∧ ("algorithm" ∈ entries.map Prod.fst ↔ s.algorithm.isSome)

/-- **A text says one summary** at most. -/
theorem IsSaidBy.unique {text : String} (h : s.IsSaidBy text) (h' : s'.IsSaidBy text) :
    s = s' := by
  obtain ⟨d, rfl, -⟩ := h.object
  obtain ⟨entries, hentries, -, hsummary, -⟩ := h.entries d.endLine d.text_endLine
  obtain ⟨entries', hentries', -, hsummary', -⟩ := h'.entries d.endLine d.text_endLine
  obtain rfl : entries = entries' := Option.some.inj (hentries.symm.trans hentries')
  exact Option.some.inj (hsummary.symm.trans hsummary')

end CertificateSummary

end Command

end CertAuthority
