import CertAuthority.Certificate.Name
import CertAuthority.IpAddress

/-!
# Subject alternative names

The other names by which the subject of a certificate is known. The
certificate lists *general names* of nine kinds; `GeneralName.read?` reads
each of them, and `AltName.ofGeneral?` keeps the two kinds that matter to
this authority, host names and internet addresses.
-/

namespace CertAuthority

open Der

/-- **A subject alternative name.** -/
inductive AltName where
  /-- A host name. -/
  | dns (name : String)
  /-- An internet address. -/
  | ip (address : IpAddress)
  deriving DecidableEq

/-- The text of an alternative name: `DNS:a.example`, `IP:10.0.0.1`. -/
def AltName.text : AltName → String
  | .dns name => "DNS:" ++ name
  | .ip address => "IP:" ++ address.text

/-- **A general name**, of which only host names and addresses are told
apart from the rest. -/
inductive GeneralName where
  /-- A host name. -/
  | dns (name : String)
  /-- The bytes of an internet address, of any length. -/
  | ip (bytes : Bytes)
  /-- A name of another kind. -/
  | other
  deriving DecidableEq, Repr

namespace GeneralName

/-- **The general name in an element**, whose tag tells the kind. Names of
the text kinds have to be UTF-8, a directory name has to be a name and
nothing else, and a name of a foreign kind begins with its identifier. -/
def ofElement? (e : Element) : Option GeneralName :=
  if e.identifier.tagClass ≠ .contextSpecific then none
  else
    match e.number with
    | 0 => (Oid.read? e.content).map fun _ => other
    | 1 | 6 => (Text.Utf8.decode? e.content).map fun _ => other
    | 2 => (Text.Utf8.decode? e.content).map dns
    | 4 =>
      match Name.read? e.content with
      | some (_, []) => some other
      | _ => none
    | 7 => some (ip e.content)
    | 3 | 5 | 8 => some other
    | _ => none

/-- Reads a general name. -/
def read? (b : Bytes) : Option (GeneralName × Bytes) := do
  let (e, rest) ← readElement? b
  return (← ofElement? e, rest)

end GeneralName

/-- The alternative name a general name is, if it is of a kind that
matters. An address is four or sixteen bytes. -/
def AltName.ofGeneral? : GeneralName → Option AltName
  | .dns name => some (.dns name)
  | .ip bytes => (IpAddress.ofBytes? bytes).map .ip
  | .other => none

/-- **The alternative names in the value of the extension**: its sequence
of general names, which has to be readable to its end. Bytes after the
sequence do not matter. -/
def AltName.ofExtension? (value : Bytes) : Option (List AltName) := do
  let (names, _) ← readInside? Tag.sequence
    (fun b => (readAll? GeneralName.read? b).map (·, [])) value
  return names.filterMap AltName.ofGeneral?

end CertAuthority
