import CertAuthority.Proofs.Json.Written
import CertAuthority.Proofs.SecurityConfig.Overrides

/-!
# A configuration that is written and read again

The JSON text of a configuration names every setting, once, and says of it
what it is. So the configuration that is read from it is the one that was
written, whatever the characters of its strings.

Nothing is to be shown of particular settings. They are all listed
(`Setting.all`), what is written of one is given by what it is
(`Setting.item`), and each kind of item is read back by the reader of its
kind. Only the two numbers come with a condition, as a number of days is read
as one of 32 bits.

What it takes to be read is known from `ofJson_document_iff`, for any object
with these entries. So this is a special case of how objects override the
default: the object names every setting, and nothing of the default is left.
-/

namespace CertAuthority.SecurityConfig

open Json

/-- What is written of a setting: a string, or a number of days. -/
def Setting.item : Setting → SecurityConfig → Item
  | .metadataDir, c => .string c.metadataDir.text
  | .securityDirName, c => .string c.securityDirName
  | .certificateFileName, c => .string c.certificateFileName
  | .privateKeyFileName, c => .string c.privateKeyFileName
  | .keyAlgorithm, c => .string c.keyAlgorithm.name
  | .defaultDays, c => .nat c.defaultDays
  | .maxDays, c => .nat c.maxDays

/-- All that is written of a configuration, in the order of its settings. -/
def object (c : SecurityConfig) : Object := Setting.all.map fun s => (s.name, s.item c)

/-- The text of a configuration is that of the object. -/
theorem json_eq (c : SecurityConfig) : c.json = compact c.object := rfl

/-- The entries in the text of a configuration. -/
def writtenEntries (c : SecurityConfig) : List (String × Value) :=
  Setting.all.map fun s => (s.name, (s.item c).value)

/-- They are what is read of the text, before it is made a configuration of. -/
theorem entries?_json (c : SecurityConfig) :
    (Document.ofObject c.object).value.entries? = some c.writtenEntries := by
  rw [Document.entries?_ofObject, object, List.map_map]
  rfl

/-- Every setting is named once, as no two have one name. -/
theorem nodup_knownNames_written (c : SecurityConfig) : (knownNames c.writtenEntries).Nodup := by
  have hnames : c.writtenEntries.map Prod.fst = Setting.all.map Setting.name := by
    rw [writtenEntries, List.map_map]
    rfl
  rw [knownNames, hnames]
  decide

/-- What is said of a setting is what was written of it. -/
theorem lookup_written (c : SecurityConfig) (s : Setting) :
    c.writtenEntries.lookup s.name = some (s.item c).value := by
  cases s <;> rfl

theorem string?_written (str : String) : (Item.string str).value.string? = some str :=
  Literal.string?_ofString str

theorem nat32?_written {n : Nat} (h : n < Nat.pow 2 32) : (Item.nat n).value.nat32? = some n := by
  have hnatural : (Item.nat n).value.natural? = some n := Numeral.natural?_ofNat n
  rw [Value.nat32?, hnatural, Option.filter_some, if_pos (decide_eq_true h)]

/-- The name of an algorithm is read back as the algorithm. -/
theorem choice?_written (a : Key.Algorithm) :
    (Item.string a.name).value.choice? (Key.Algorithm.all.map fun a => (a.name, a)) = some a := by
  rw [Item.value, Item.laidOut, Value.choice?, Literal.string?_ofString, Option.bind_some]
  cases a <;> decide

/-- **A configuration that is written is read again**, as it was. -/
theorem ofJson_json (c : SecurityConfig) (hdefault : c.defaultDays < Nat.pow 2 32)
    (hmax : c.maxDays < Nat.pow 2 32) : ofJson c.json = .ok c := by
  rw [json_eq, ← Document.text_ofObject, ofJson_document_iff (entries?_json c)
    (nodup_knownNames_written c)]
  intro s
  rw [lookup_written]
  cases s with
  | metadataDir => exact congrArg (Option.map Path.mk) (string?_written c.metadataDir.text)
  | securityDirName => exact string?_written c.securityDirName
  | certificateFileName => exact string?_written c.certificateFileName
  | privateKeyFileName => exact string?_written c.privateKeyFileName
  | keyAlgorithm => exact choice?_written c.keyAlgorithm
  | defaultDays => exact nat32?_written hdefault
  | maxDays => exact nat32?_written hmax

/-- A configuration whose strings are all escapes, and whose numbers are at the
limits. -/
theorem ofJson_json_escapes :
    let c : SecurityConfig :=
      { default with
        metadataDir := ⟨"a\"b\\c\x01\n😀"⟩, securityDirName := "\t\\u0041", keyAlgorithm := .ed25519,
        defaultDays := 4294967295, maxDays := 0 }
    c.defaultDays < Nat.pow 2 32 ∧ c.maxDays < Nat.pow 2 32 ∧ ofJson c.json = .ok c :=
  ⟨by decide, by decide, ofJson_json _ (by decide) (by decide)⟩

end CertAuthority.SecurityConfig
