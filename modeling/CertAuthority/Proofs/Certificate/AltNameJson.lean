import CertAuthority.Certificate.AltNameJson
import CertAuthority.Proofs.IpAddress
import CertAuthority.Proofs.Json.Record
import CertAuthority.Proofs.Json.Written

/-!
# Alternative names survive their texts

An alternative name has a JSON text and a plain one. The JSON text is read as
the name that it was written from, whatever the characters of a host name and
for addresses of both versions (`ofJson_written`); the plain text is that of
no other name (`text_inj`), as the two kinds begin differently and addresses
have different texts. So in a list of either, the entries tell the names.

The JSON text is an object with the kind for its only key, and the reader
takes it for a choice with a value: it finds the kind by the key and then
knows how the value is to be read. A host name is any string here, empty or
with quotation marks in it, because the type has them all; whether a
certificate can carry it is decided elsewhere. Of addresses it is used that
their texts are read as the addresses, which is the matter of a module of its
own.
-/

namespace CertAuthority.AltName

open Json Json.Reader

/-! ## JSON texts -/

/-- The name of a kind, as the only key of an object. -/
def Kind.name : Kind → String
  | .dns => "Dns"
  | .ip => "Ip"

/-- By its name a kind is found among the kinds. -/
theorem lookup_kinds (k : Kind) : kinds.lookup k.name = some k := by
  cases k <;> rfl

/-- The kind of an alternative name. -/
def kind : AltName → Kind
  | dns _ => .dns
  | ip _ => .ip

/-- What is written of an alternative name besides its kind. -/
def valueText : AltName → String
  | dns name => name
  | ip a => a.text

/-- The JSON text of an alternative name is an object of one field. -/
theorem json_eq (v : AltName) : v.json = compact [(v.kind.name, .string v.valueText)] := by
  cases v <;> rfl

/-- **The value of a kind is read** as the alternative name. -/
theorem reads_readValue (v : AltName) {s : List Char} (hs : EndsValue s) :
    Reads (readValue v.kind)
      (Blanks.none.chars ++ ((Item.string v.valueText).value.text ++ s)) v s := by
  have hstring : (Item.string v.valueText).value.string? = some v.valueText :=
    Literal.string?_ofString v.valueText
  cases v with
  | dns name =>
    exact ((exact_text "a string").map AltName.dns).reads
      (v := (Item.string name).value) (congrArg (Option.map AltName.dns) hstring) Blanks.none hs
  | ip a =>
    refine (exact_stringAs "IP address" _).reads (v := (Item.string a.text).value) ?_
      Blanks.none hs
    rw [show (Item.string a.text).value.string? = some a.text from hstring, Option.bind_some,
      IpAddress.parse?_text]
    rfl

/-- **An alternative name is read from its JSON text.** -/
theorem ofJson_written (v : AltName) : ofJson v.json = .ok v := by
  rw [json_eq, ← Document.text_ofObject]
  have hkey : (Literal.ofString v.kind.name).string?.bind (kinds.lookup ·) = some v.kind := by
    rw [Literal.string?_ofString, Option.bind_some, lookup_kinds]
  exact decode_document (reads_choice_object kinds Blanks.none hkey v.reads_readValue [])

/-! ## Plain texts -/

/-- **Alternative names have different texts.** -/
theorem text_inj {v w : AltName} : v.text = w.text ↔ v = w := by
  refine ⟨fun h => ?_, fun h => congrArg text h⟩
  have hchars := congrArg String.toList h
  cases v with
  | dns name =>
    cases w with
    | dns name' =>
      rw [text, text, String.toList_append, String.toList_append, List.append_right_inj,
        String.toList_inj] at hchars
      rw [hchars]
    | ip a =>
      rw [text, text, String.toList_append, String.toList_append] at hchars
      exact absurd (List.cons.inj hchars).1 (by decide)
  | ip a =>
    cases w with
    | dns name =>
      rw [text, text, String.toList_append, String.toList_append] at hchars
      exact absurd (List.cons.inj hchars).1 (by decide)
    | ip a' =>
      rw [text, text, String.toList_append, String.toList_append, List.append_right_inj,
        String.toList_inj] at hchars
      rw [IpAddress.text_injective hchars]

/-- **Alternative names survive their texts.** What is read from the JSON text of
one is that one, so that different ones have different JSON texts; and different
ones have different plain texts, so that a list of these tells all of the list it
was made from. -/
theorem texts_identify (v : AltName) :
    ofJson v.json = .ok v
      ∧ (∀ w : AltName, v.json = w.json ↔ v = w)
      ∧ (∀ w : AltName, v.text = w.text ↔ v = w)
      ∧ ∀ vs ws : List AltName, vs.map text = ws.map text ↔ vs = ws := by
  refine ⟨ofJson_written v, fun w => ⟨fun h => ?_, fun h => congrArg json h⟩, fun w => text_inj,
    fun vs ws => ⟨fun h => List.map_injective_iff.2 (fun _ _ => text_inj.1) h, congrArg _⟩⟩
  have hread := congrArg ofJson h
  rw [ofJson_written, ofJson_written] at hread
  exact Except.ok.inj hread

end CertAuthority.AltName
