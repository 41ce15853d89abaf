import CertAuthority.SecurityConfig
import CertAuthority.Proofs.Json.Record

/-!
# The settings of a security configuration

A configuration consists of seven settings. Each has a name, a type of what it
may be set to, and values in a JSON text that say such a thing. A
configuration is what it is in its settings (`ext_get`), and changing one
leaves the others as they are (`get_set_of_ne`).

The types differ from setting to setting, so that what there is to say of all
of them is said of a setting `s` and a content of type `s.Content`. In this
way a statement about configurations is one statement, and not seven of one
wording, and an eighth setting would be one more line in each of the tables
here.

The reader of configurations reads the settings exactly (`readsFields`), so
that its outcome is a matter of the entries of an object. It names its fields
in the order in which they are declared, and which of them an entry sets is
found by name (`setNamed?`). No two settings have the same name
(`name_injective`), or setting the one could be setting the other.
-/

namespace CertAuthority.SecurityConfig

open Json

/-- **A setting.** That there are seven of them is said here once, and each of
the functions on settings has a case for every one. -/
inductive Setting where
  /-- The directory that holds the security directory. -/
  | metadataDir
  /-- The name of the security directory. -/
  | securityDirName
  /-- What a certificate is called. -/
  | certificateFileName
  /-- What a private key is called. -/
  | privateKeyFileName
  /-- The algorithm. -/
  | keyAlgorithm
  /-- The days of a certificate. -/
  | defaultDays
  /-- The most days of a certificate. -/
  | maxDays
  deriving DecidableEq

namespace Setting

/-- All settings. -/
def all : List Setting :=
  [.metadataDir, .securityDirName, .certificateFileName, .privateKeyFileName, .keyAlgorithm,
    .defaultDays, .maxDays]

/-- **The name of a setting** in a file. -/
def name : Setting → String
  | .metadataDir => "metadata_dir"
  | .securityDirName => "security_dir_name"
  | .certificateFileName => "certificate_file_name"
  | .privateKeyFileName => "private_key_file_name"
  | .keyAlgorithm => "key_algorithm"
  | .defaultDays => "default_certificate_duration_days"
  | .maxDays => "max_certificate_duration_days"

/-- What a setting may be set to: paths, names, algorithms and numbers of days.
The type depends on the setting. -/
def Content : Setting → Type
  | .metadataDir => Path
  | .securityDirName => String
  | .certificateFileName => String
  | .privateKeyFileName => String
  | .keyAlgorithm => Key.Algorithm
  | .defaultDays => Nat
  | .maxDays => Nat

/-- What a configuration has for a setting. -/
def get : (s : Setting) → SecurityConfig → s.Content
  | .metadataDir, c => c.metadataDir
  | .securityDirName, c => c.securityDirName
  | .certificateFileName, c => c.certificateFileName
  | .privateKeyFileName, c => c.privateKeyFileName
  | .keyAlgorithm, c => c.keyAlgorithm
  | .defaultDays, c => c.defaultDays
  | .maxDays, c => c.maxDays

/-- A configuration with another content for a setting. -/
def set : (s : Setting) → s.Content → SecurityConfig → SecurityConfig
  | .metadataDir, x, c => { c with metadataDir := x }
  | .securityDirName, x, c => { c with securityDirName := x }
  | .certificateFileName, x, c => { c with certificateFileName := x }
  | .privateKeyFileName, x, c => { c with privateKeyFileName := x }
  | .keyAlgorithm, x, c => { c with keyAlgorithm := x }
  | .defaultDays, x, c => { c with defaultDays := x }
  | .maxDays, x, c => { c with maxDays := x }

/-- **The content that a value says**, if it is of the type of the setting: a
string, an algorithm, or a natural number of at most thirty-two bits. -/
def content? : (s : Setting) → Value → Option s.Content
  | .metadataDir, v => v.string?.map Path.mk
  | .securityDirName, v => v.string?
  | .certificateFileName, v => v.string?
  | .privateKeyFileName, v => v.string?
  | .keyAlgorithm, v => v.choice? (Key.Algorithm.all.map fun a => (a.name, a))
  | .defaultDays, v => v.nat32?
  | .maxDays, v => v.nat32?

/-- **What was set is there.** -/
@[simp] theorem get_set (s : Setting) (x : s.Content) (c : SecurityConfig) :
    s.get (s.set x c) = x := by
  cases s <;> rfl

/-- **Nothing else is set with it.** -/
theorem get_set_of_ne {s s' : Setting} (h : s ≠ s') (x : s'.Content) (c : SecurityConfig) :
    s.get (s'.set x c) = s.get c := by
  cases s <;> cases s' <;> first | rfl | exact absurd rfl h

theorem mem_all (s : Setting) : s ∈ all := by
  cases s <;> decide

/-- **No two settings have one name.** -/
theorem name_injective : Function.Injective name := by
  intro s s' h
  revert h
  cases s <;> cases s' <;> decide

end Setting

/-- A configuration is what it is in its settings: there is nothing else to it.
-/
theorem ext_get {c c' : SecurityConfig} (h : ∀ s : Setting, s.get c = s.get c') : c = c' := by
  obtain ⟨dir, security, certificate, key, algorithm, default, max⟩ := c
  obtain ⟨dir', security', certificate', key', algorithm', default', max'⟩ := c'
  obtain rfl : dir = dir' := h .metadataDir
  obtain rfl : security = security' := h .securityDirName
  obtain rfl : certificate = certificate' := h .certificateFileName
  obtain rfl : key = key' := h .privateKeyFileName
  obtain rfl : algorithm = algorithm' := h .keyAlgorithm
  obtain rfl : default = default' := h .defaultDays
  obtain rfl : max = max' := h .maxDays
  rfl

/-- The configuration of given contents, one for each setting. Every
configuration comes of its contents in this way. -/
def ofContents (f : (s : Setting) → s.Content) : SecurityConfig where
  metadataDir := f .metadataDir
  securityDirName := f .securityDirName
  certificateFileName := f .certificateFileName
  privateKeyFileName := f .privateKeyFileName
  keyAlgorithm := f .keyAlgorithm
  defaultDays := f .defaultDays
  maxDays := f .maxDays

@[simp] theorem get_ofContents (f : (s : Setting) → s.Content) (s : Setting) :
    s.get (ofContents f) = f s := by
  cases s <;> rfl

/-! ## The entries of an object -/

/-- The setting of a name. -/
def Setting.ofName? (name : String) : Option Setting := all.find? fun s => s.name == name

@[simp] theorem Setting.ofName?_name (s : Setting) : ofName? s.name = some s := by
  cases s <;> decide

/-- A configuration with what a value says for the setting of a name. -/
def setNamed? (name : String) (v : Value) (c : SecurityConfig) : Option SecurityConfig :=
  (Setting.ofName? name).bind fun s => (s.content? v).map fun x => s.set x c

/-- The name of a setting sets that one, if the value says something that it can
be set to. -/
theorem setNamed?_name (s : Setting) (v : Value) (c : SecurityConfig) :
    setNamed? s.name v c = (s.content? v).map fun x => s.set x c := by
  rw [setNamed?, Setting.ofName?_name, Option.bind_some]

/-- The fields that are read are the settings, by their names. -/
theorem map_name_fields : fields.map (·.name) = Setting.all.map Setting.name := rfl

/-- **The settings are read exactly**, each by a reader of its type. -/
theorem readsFields : Reader.ReadsFields fields setNamed? := by
  have hname : ∀ (s : Setting) (c : SecurityConfig) {read : Reader SecurityConfig},
      Reader.Exact read (fun v => (s.content? v).map fun x => s.set x c) →
      Reader.Exact read fun v => setNamed? s.name v c := by
    intro s c read h
    simp only [setNamed?_name]
    exact h
  intro f hf c
  simp only [fields, List.mem_cons, List.not_mem_nil, or_false] at hf
  rcases hf with rfl | rfl | rfl | rfl | rfl | rfl | rfl
  · have hpath : (fun v => (Setting.content? .metadataDir v).map fun x =>
        Setting.set .metadataDir x c) = fun v => v.string?.map fun x =>
          { c with metadataDir := ⟨x⟩ } := funext fun v => Option.map_map _ _ v.string?
    refine hname .metadataDir c ?_
    rw [hpath]
    exact (Reader.exact_text _).map _
  · exact hname .securityDirName c ((Reader.exact_text _).map _)
  · exact hname .certificateFileName c ((Reader.exact_text _).map _)
  · exact hname .privateKeyFileName c ((Reader.exact_text _).map _)
  · exact hname .keyAlgorithm c ((Reader.exact_choice _).map _)
  · exact hname .defaultDays c (Reader.exact_nat32.map _)
  · exact hname .maxDays c (Reader.exact_nat32.map _)

end CertAuthority.SecurityConfig
