import CertAuthority.Certificate.Pem
import CertAuthority.Files.AtomicWrite
import CertAuthority.Store.Layout

/-!
# The files of a component

A component of the cluster has a certificate and a private key in a
directory of its own. What is written there is written in one piece and
readable for its owner only; what is read has to be exactly one certificate.

Every operation takes a location. Without one it goes to the component's
own file, whose name the configuration sets.
-/

namespace CertAuthority.Store

open Files (WriteMode)

/-- **A component and where its files are.** -/
structure Component where
  /-- What the component is called. -/
  label : String
  /-- The directory of its files. -/
  directory : Path
  /-- The layout of the store. -/
  layout : Layout
  deriving DecidableEq, Repr

namespace Component

/-- **The component with a label**, in the store that a configuration
describes. -/
def ofConfig (c : SecurityConfig) (label : String) : Except Error Component := do
  let layout ← Layout.ofConfig c
  let directory ← layout.componentDir label
  return ⟨label, directory, layout⟩

/-- Settles where the files of a component are. -/
def resolve (c : SecurityConfig) (label : String) : Action Component := do
  let component ← Action.ofExcept (ofConfig c label)
  Action.note (.componentResolved label component.directory)
  return component

variable (c : Component)

/-- The location of a name in the component's directory. -/
def locationFor (name : String) : Location := ⟨c.directory, name⟩

/-- **Where the component's certificate is.** -/
def certificateLocation : Location := c.locationFor c.layout.certificateFileName

/-- **Where the component's private key is.** -/
def keyLocation : Location := c.locationFor c.layout.privateKeyFileName

/-- Writes a text, by default as the certificate. Returns where it is. -/
def writePem (text : String) (location : Option Location) (mode : WriteMode) : Action Path := do
  let path ← Action.ofExcept (location.getD c.certificateLocation).path
  Files.writeText path text mode
  return path

/-- **Stores a certificate** as text. Returns where it is. -/
def writeCertificate (certificate : Certificate) (location : Option Location) (mode : WriteMode) :
    Action Path := do
  let path ← c.writePem certificate.encodePem location mode
  Action.note (.certificateStored c.label certificate.serialNumber path)
  return path

/-- **Writes a certificate** in its encoding. Returns where it is. -/
def writeDer (certificate : Certificate) (location : Option Location) (mode : WriteMode) :
    Action Path := do
  let path ← Action.ofExcept (location.getD c.certificateLocation).path
  Files.write path certificate.der mode
  return path

/-- **Stores a private key** as text. Returns where it is. -/
def writePrivateKey (key : PrivateKey) (location : Option Location) (mode : WriteMode) :
    Action Path := do
  let path ← Action.ofExcept (location.getD c.keyLocation).path
  Files.writeText path key.pem mode
  Action.note (.keyStored c.label path)
  return path

/-- **Reads a certificate** that is stored as text. -/
def readCertificate (location : Option Location) : Action Certificate := do
  let path ← Action.ofExcept (location.getD c.certificateLocation).path
  let text ← Files.readText path
  let certificate ← Action.parsed (Certificate.decodePem text)
  Action.note (.certificateLoaded c.label certificate.serialNumber path)
  return certificate

end Component

end CertAuthority.Store
