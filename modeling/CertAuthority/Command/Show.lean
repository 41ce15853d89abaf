import CertAuthority.Command.Report
import CertAuthority.Store.Component

/-!
# Showing and exporting certificates

`showCertificate` prints a summary of a stored certificate, and `exportDer` writes its
encoding to a file of the operator's choice. Neither touches what is
stored.
-/

namespace CertAuthority.Command

open Store (Component Location)
open Files (WriteMode)

/-- **Prints a summary of a stored certificate.** -/
def showCertificate (config : SecurityConfig) (label : String) (format : Format)
    (fileName : Option String) : Command Unit := do
  let component ← ofAction (Component.resolve config label)
  let location := (fileName.map component.locationFor).getD component.certificateLocation
  let certificate ← ofAction (component.readCertificate location)
  let path ← ofExcept location.path
  report format (CertificateSummary.ofCertificate certificate path)

/-- **The location that a destination names**: its last component, in the
directory before it. -/
def destination (out : Path) : Command Location :=
  match out.fileName? with
  | some name => return ⟨out.parent?.getD ⟨""⟩, name⟩
  | none => throw (.argument (.noFileName out))

/-- **Writes the encoding of a stored certificate** to a destination. -/
def exportDer (config : SecurityConfig) (label : String) (format : Format) (out : Path)
    (fileName : Option String) (force : Bool) : Command Unit := do
  let target ← destination out
  let component ← ofAction (Component.resolve config label)
  let source := fileName.map component.locationFor
  let certificate ← ofAction (component.readCertificate source)
  let path ← ofAction (component.writeDer certificate target (WriteMode.ofFlag force))
  report format (⟨certificate.serialNumber.text, path, certificate.der.length⟩ : ExportSummary)

end CertAuthority.Command
