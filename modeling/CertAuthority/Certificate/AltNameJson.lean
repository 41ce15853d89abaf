import CertAuthority.Certificate.AltName
import CertAuthority.Json.Decode
import CertAuthority.Json.Write

/-!
# Alternative names as JSON

An alternative name is a choice with a value: an object whose only key
tells the kind and whose value is the name as a string.
-/

namespace CertAuthority.AltName

/-- The kinds of alternative names. -/
inductive Kind where
  /-- A host name. -/
  | dns
  /-- An internet address. -/
  | ip
  deriving DecidableEq, Repr

/-- The kinds by their names. -/
def kinds : List (String × Kind) := [("Dns", .dns), ("Ip", .ip)]

/-- Reads the value of a kind. -/
def readValue : Kind → Json.Reader AltName
  | .dns => do return .dns (← Json.Reader.text "a string")
  | .ip =>
    Json.Reader.stringAs "IP address" fun s =>
      match IpAddress.parse? s with
      | some a => .ok (.ip a)
      | none => .error .invalidAddress

/-- **The alternative name that a JSON text says.** A kind alone, without a
value, is refused without a place. -/
def ofJson (text : String) : Except Json.Fault AltName :=
  Json.decode
    (Json.Reader.choice kinds
      (fun _ => throw ⟨.invalidType .bareName "newtype variant", none⟩) readValue) text

/-- **The JSON text of an alternative name.** -/
def json : AltName → String
  | .dns name => Json.compact [("Dns", .string name)]
  | .ip a => Json.compact [("Ip", .string a.text)]

end CertAuthority.AltName
