import CertAuthority.Certificate.Draft
import CertAuthority.Command.Report
import CertAuthority.Store.Component

/-!
# Generating a certificate

`generate` makes a key and a self-signed certificate for a component and
stores both. Unless it may overwrite, it first makes sure that neither file
is there, so that it does not stop half-way over a file that was there all
along.
-/

namespace CertAuthority.Command

open Store (Component Location)
open Files (WriteMode)

/-- **What `generate` is asked for.** -/
structure GenerateRequest where
  /-- The common name of the subject. -/
  subject : String
  /-- The cluster. -/
  clusterId : String
  /-- The storage manager. -/
  scmId : String
  /-- For how many days the certificate is to hold, if not the configured
  number. -/
  days : Option Nat
  /-- Whether the subject may sign certificates. -/
  ca : Bool
  /-- The host names of the subject. -/
  dnsNames : List String
  /-- The addresses of the subject. -/
  ipAddresses : List IpAddress
  /-- The algorithm, if not the configured one. -/
  algorithm : Option Key.Algorithm
  /-- The name of the certificate's file, if not the configured one. -/
  fileName : Option String
  /-- Whether files that are there may be replaced. -/
  force : Bool
  deriving DecidableEq

namespace GenerateRequest

/-- The configuration with the algorithm that is asked for. -/
def effectiveConfig (r : GenerateRequest) (config : SecurityConfig) : SecurityConfig :=
  { config with keyAlgorithm := r.algorithm.getD config.keyAlgorithm }

/-- The alternative names that are asked for: host names, then
addresses. -/
def altNames (r : GenerateRequest) : List AltName :=
  r.dnsNames.map .dns ++ r.ipAddresses.map .ip

/-- **The draft of the certificate** that is asked for. -/
def draft (r : GenerateRequest) (config : SecurityConfig) (beginDate endDate : Calendar.Date)
    (key : KeyPair) : Draft where
  subject := some r.subject
  clusterId := some r.clusterId
  scmId := some r.scmId
  beginDate := some beginDate
  endDate := some endDate
  config := some config
  key := some (.pair key)
  isCa := r.ca
  san := r.altNames

end GenerateRequest

/-- Fails if there is a file at a location. -/
def requireVacant (l : Location) : Command Unit := do
  let path ← ofExcept l.path
  if (← Program.request (.kind path)).isSome then
    throw (.authority (.fileAlreadyExists path))

/-- Makes sure that both files are vacant, the names of both being plain
ones. -/
def requireBothVacant (certificate key : Location) : Command Unit := do
  let _ ← ofExcept certificate.path
  let _ ← ofExcept key.path
  requireVacant certificate
  requireVacant key

/-- The day on which a certificate that begins on a given day ends. -/
def endDate (beginDate : Calendar.Date) (days : Nat) : Command Calendar.Date :=
  match beginDate.addDays? days with
  | some d => return d
  | none => throw (.argument (.daysOutOfRange days))

/-- Where the certificate and the key go; not to the same file. -/
def targets (r : GenerateRequest) (component : Component) : Command (Location × Location) := do
  let certificate := (r.fileName.map component.locationFor).getD component.certificateLocation
  let key := component.keyLocation
  if certificate = key then throw (.argument (.keyFileName certificate.fileName))
  return (certificate, key)

/-- **What `generate` has made** and is about to store. -/
structure Made where
  /-- The component that it is for. -/
  component : Component
  /-- Where the certificate goes. -/
  certificateLocation : Location
  /-- Where the key goes. -/
  keyLocation : Location
  /-- The key. -/
  key : KeyPair
  /-- The certificate. -/
  certificate : Certificate
  /-- For how many days it holds. -/
  days : Nat

/-- Makes sure that both files are vacant, unless they may be replaced. -/
def requireTargets (force : Bool) (certificate key : Location) : Command Unit :=
  if force then return else requireBothVacant certificate key

/-- **Makes a key and a certificate** that begins to hold today. -/
def issue (config : SecurityConfig) (r : GenerateRequest) (component : Component)
    (certificateLocation keyLocation : Location) : Command Made := do
  let days := r.days.getD config.defaultDays
  let today ← Program.request .today
  let last ← endDate today days
  let key ← ofAction (Key.Supply.generator config.keyAlgorithm).obtain
  let certificate ← ofAction (r.draft config today last key).build
  return ⟨component, certificateLocation, keyLocation, key, certificate, days⟩

/-- **Makes a key and a certificate** for a component, once nothing speaks
against the request. -/
def make (config : SecurityConfig) (label : String) (r : GenerateRequest) : Command Made := do
  let config := r.effectiveConfig config
  let component ← ofAction (Component.resolve config label)
  let (certificateLocation, keyLocation) ← targets r component
  requireTargets r.force certificateLocation keyLocation
  issue config r component certificateLocation keyLocation

namespace Made

/-- Stores the certificate. Returns where it is. -/
def storeCertificate (m : Made) (mode : WriteMode) : Action Path :=
  m.component.writeCertificate m.certificate m.certificateLocation mode

/-- Stores the key. Returns where it is. -/
def storeKey (m : Made) (mode : WriteMode) : Action Path :=
  m.component.writePrivateKey m.key.privateKey m.keyLocation mode

end Made

/-- **Makes a key and a certificate** for a component and stores both, the
certificate first. -/
def generate (config : SecurityConfig) (label : String) (format : Format) (r : GenerateRequest) :
    Command Unit := do
  let made ← make config label r
  let mode := WriteMode.ofFlag r.force
  let path ← ofAction (made.storeCertificate mode)
  let keyPath ← ofAction (made.storeKey mode)
  ofAction (Action.note (.certificateGenerated label made.certificate.serialNumber made.days))
  report format
    ((CertificateSummary.ofCertificate made.certificate path).withKey keyPath
      made.key.algorithm.name)

end CertAuthority.Command
