import CertAuthority.Certificate.Encode
import CertAuthority.Key.Supply
import CertAuthority.SecurityConfig
import CertAuthority.Text.Blank

/-!
# Drafts of certificates

A draft is a certificate in the making. Its values are given one by one, in
any order, and a value that is given again replaces the earlier one; only
alternative names add up. `Draft.build` makes the certificate, or says why
it will not.

The conditions are tried in a fixed order, so that a draft with several
faults has one well-defined error: everything needed is there
(`Draft.order`), nothing is blank and the window is one the configuration
allows (`Order.check`), the key can be had and is for the configured
algorithm (`Order.key`), and the dates and names can be written down
(`Order.checkWritable`).
-/

namespace CertAuthority

/-- **A certificate in the making.** -/
structure Draft where
  /-- The common name of the subject. -/
  subject : Option String := none
  /-- The cluster. -/
  clusterId : Option String := none
  /-- The storage manager. -/
  scmId : Option String := none
  /-- The first day of validity. -/
  beginDate : Option Calendar.Date := none
  /-- The day on which validity ends. -/
  endDate : Option Calendar.Date := none
  /-- The configuration that sets algorithm and limits. -/
  config : Option SecurityConfig := none
  /-- Where the key comes from. -/
  key : Option Key.Supply := none
  /-- Whether the subject may sign certificates. -/
  isCa : Bool := false
  /-- The alternative names of the subject. -/
  san : List AltName := []

/-- **A draft that has all it needs.** -/
structure Order where
  /-- The common name of the subject. -/
  subject : String
  /-- The cluster. -/
  clusterId : String
  /-- The storage manager. -/
  scmId : String
  /-- The first day of validity. -/
  beginDate : Calendar.Date
  /-- The day on which validity ends. -/
  endDate : Calendar.Date
  /-- The configuration that sets algorithm and limits. -/
  config : SecurityConfig
  /-- Where the key comes from. -/
  supply : Key.Supply
  /-- Whether the subject may sign certificates. -/
  isCa : Bool
  /-- The alternative names of the subject. -/
  san : List AltName

namespace Order

/-! ## Conditions -/

/-- The values that must not be blank. -/
def texts (o : Order) : List (Requirement × String) :=
  [(.subject, o.subject), (.clusterId, o.clusterId), (.scmId, o.scmId)]

/-- The number of days from the first to the last. -/
def days (o : Order) : Int := o.endDate.dayNumber - o.beginDate.dayNumber

/-- Whether a value of blanks only was given, and which. -/
def checkTexts (o : Order) : Except Error Unit :=
  match o.texts.find? fun (_, value) => Text.isBlankText value with
  | some (field, _) => .error (.configuration (.blank field))
  | none => .ok ()

/-- Whether the window is one that the configuration allows. -/
def checkWindow (o : Order) : Except Error Unit :=
  if o.days ≤ 0 then .error (.validity (.notAfter o.endDate o.beginDate))
  else if o.config.maxDays < o.days then .error (.validity (.tooLong o.days o.config.maxDays))
  else .ok ()

/-- **The conditions that come before the key.** -/
def check (o : Order) : Except Error Unit := do
  o.checkTexts
  o.checkWindow

/-- Whether a key is for the configured algorithm. -/
def checkKey (o : Order) (key : KeyPair) : Except Error Unit :=
  if key.algorithm = o.config.keyAlgorithm then .ok ()
  else .error (.configuration (.algorithmMismatch key.algorithm o.config.keyAlgorithm))

/-- Whether certificates can carry a date: its year has four digits. -/
def checkDate (d : Calendar.Date) : Except Error Unit :=
  if 0 ≤ d.year ∧ d.year ≤ 9999 then .ok () else .error (.validity (.outOfRange d))

/-- Whether a text is of the basic alphabet. -/
def isAscii (s : String) : Bool := s.toList.all fun c => c.toNat < 128

/-- Whether certificates can carry an alternative name: host names are of
the basic alphabet. -/
def checkAltName : AltName → Except Error Unit
  | .dns name => if isAscii name then .ok () else .error (.configuration (.dnsName name))
  | .ip _ => .ok ()

/-- **Whether everything can be written down.** -/
def checkWritable (o : Order) : Except Error Unit := do
  checkDate o.beginDate
  checkDate o.endDate
  o.san.forM checkAltName

/-! ## Making the certificate -/

/-- Obtains the key. -/
def key (o : Order) : Action KeyPair := do
  let key ← o.supply.obtain
  Action.ofExcept (o.checkKey key)
  return key

/-- How many random bytes a serial number is made of. -/
def serialSize : Nat := 8

/-- **The serial number that random bytes make**: a positive number of
sixty-three bits. -/
def serialOfEntropy (entropy : Bytes) : SerialNumber :=
  .ofNat (max 1 (Bytes.toNat entropy % Nat.pow 256 serialSize / 2))

/-- What the certificate is to say. -/
def plan (o : Order) (serialNumber : SerialNumber) : Plan where
  subject := o.subject
  clusterId := o.clusterId
  scmId := o.scmId
  beginDate := o.beginDate
  endDate := o.endDate
  isCa := o.isCa
  san := o.san
  serialNumber := serialNumber

/-- Makes the certificate for a key, with a serial number of its own. -/
def certify (o : Order) (key : KeyPair) : Action Certificate := do
  let entropy ← Program.request (.random serialSize)
  Action.ofExcept o.checkWritable
  match (o.plan (serialOfEntropy entropy)).sign? key with
  | none => throw (.encoding .notSigned)
  | some der =>
    let certificate ← Action.parsed (Certificate.ofDer der)
    Action.note (.certificateBuilt certificate.subject certificate.serialNumber certificate.isCa
      certificate.notAfter)
    return certificate

/-- **Makes the certificate.** -/
def fill (o : Order) : Action Certificate := do
  Action.ofExcept o.check
  let key ← o.key
  o.certify key

end Order

namespace Draft

/-- The draft that has nothing yet. -/
def empty : Draft := {}

/-! ## Giving values -/

/-- Gives the common name of the subject. -/
def withSubject (d : Draft) (subject : String) : Draft := { d with subject := some subject }

/-- Gives the cluster. -/
def withClusterId (d : Draft) (clusterId : String) : Draft :=
  { d with clusterId := some clusterId }

/-- Gives the storage manager. -/
def withScmId (d : Draft) (scmId : String) : Draft := { d with scmId := some scmId }

/-- Gives the first day of validity. -/
def withBeginDate (d : Draft) (date : Calendar.Date) : Draft := { d with beginDate := some date }

/-- Gives the day on which validity ends. -/
def withEndDate (d : Draft) (date : Calendar.Date) : Draft := { d with endDate := some date }

/-- Gives the configuration. -/
def withConfig (d : Draft) (config : SecurityConfig) : Draft := { d with config := some config }

/-- Gives the supply of the key. -/
def withKey (d : Draft) (supply : Key.Supply) : Draft := { d with key := some supply }

/-- Makes the subject an authority. -/
def asCa (d : Draft) : Draft := { d with isCa := true }

/-- Adds an alternative name. -/
def withAltName (d : Draft) (name : AltName) : Draft := { d with san := d.san ++ [name] }

/-! ## Building -/

/-- **What is still missing**, in a fixed order. -/
def missing (d : Draft) : List Requirement :=
  [(Requirement.subject, d.subject.isNone), (.clusterId, d.clusterId.isNone),
    (.scmId, d.scmId.isNone), (.beginDate, d.beginDate.isNone), (.endDate, d.endDate.isNone),
    (.config, d.config.isNone), (.key, d.key.isNone)].filterMap
    fun (requirement, absent) => if absent then some requirement else none

/-- The draft as an order, if it has all it needs. -/
def order? (d : Draft) : Option Order := do
  return ⟨← d.subject, ← d.clusterId, ← d.scmId, ← d.beginDate, ← d.endDate, ← d.config,
    ← d.key, d.isCa, d.san⟩

/-- **The draft as an order**, or what it lacks. -/
def order (d : Draft) : Except Error Order :=
  match d.order? with
  | some o => .ok o
  | none => .error (.configuration (.missing d.missing))

/-- **Builds the certificate.** -/
def build (d : Draft) : Action Certificate := do
  let o ← Action.ofExcept d.order
  o.fill

/-! ## Diagnostics -/

/-- An optional value in diagnostic texts. -/
def optional {α : Type} (text : α → String) : Option α → String
  | none => "None"
  | some a => "Some(" ++ text a ++ ")"

/-- An alternative name in diagnostic texts. -/
def altNameDiagnostic : AltName → String
  | .dns name => "Dns(" ++ Text.quoted name ++ ")"
  | .ip address => "Ip(" ++ address.text ++ ")"

/-- **How a draft shows in diagnostic texts.** -/
def diagnostic (d : Draft) : String :=
  "CertificateBuilder \x7b subject: " ++ optional Text.quoted d.subject
    ++ ", cluster_id: " ++ optional Text.quoted d.clusterId
    ++ ", scm_id: " ++ optional Text.quoted d.scmId
    ++ ", begin_date: " ++ optional Calendar.Date.text d.beginDate
    ++ ", end_date: " ++ optional Calendar.Date.text d.endDate
    ++ ", config: " ++ optional SecurityConfig.diagnostic d.config
    ++ ", key: " ++ optional Key.Supply.diagnostic d.key
    ++ ", is_ca: " ++ (if d.isCa then "true" else "false")
    ++ ", san: [" ++ ", ".intercalate (d.san.map altNameDiagnostic) ++ "] \x7d"

end Draft

end CertAuthority
