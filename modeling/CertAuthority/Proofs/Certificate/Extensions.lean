import CertAuthority.Proofs.Certificate.Fields

/-!
# The extensions of a certificate can be read back

The extensions of a certificate that the authority writes are read back as a
list (`Plan.readList?_extensions`), and the two of them that the authority
acts on say what the plan says: whether the subject is an authority
(`readIsCa_extensionList`) and by which other names it is known
(`readSan_extensionList`).

A plan without alternative names has no extension for them, since an empty
list of names is not allowed there. Apart from that the list of extensions has
one form, and no two extensions in it are of one type, so that each is found
by its type alone.

Addresses are among the names, and are told from one another by how many bytes
they have. In an extension its flag stands before its value and may be
missing, so that a reader has to tell the one from the other by the first byte
(`readCritical_octetString`).
-/

namespace CertAuthority

open Der

/-! ## Addresses -/

namespace IpAddress

theorem segmentsOf_segmentBytes (s : UInt16) (rest : Bytes) :
    segmentsOf (segmentBytes s ++ rest) = s :: segmentsOf rest := by
  have hs : s.toNat < 65536 := UInt16.toNat_lt s
  have hhigh : (UInt8.ofNat (s.toNat / 256)).toNat = s.toNat / 256 := by
    rw [UInt8.toNat_ofNat', Nat.mod_eq_of_lt (Nat.div_lt_of_lt_mul hs)]
  have hlow : (UInt8.ofNat (s.toNat % 256)).toNat = s.toNat % 256 := by
    rw [UInt8.toNat_ofNat', Nat.mod_eq_of_lt (Nat.mod_lt _ (by decide))]
  show UInt16.ofNat ((UInt8.ofNat (s.toNat / 256)).toNat * 256
    + (UInt8.ofNat (s.toNat % 256)).toNat) :: segmentsOf rest = _
  rw [hhigh, hlow, Nat.div_add_mod', UInt16.ofNat_toNat]

/-- Segments that are written one after another are read one after another. -/
theorem segmentsOf_flatMap (segments : List UInt16) :
    segmentsOf (segments.flatMap segmentBytes) = segments := by
  induction segments with
  | nil => rfl
  | cons s rest ih => rw [List.flatMap_cons, segmentsOf_segmentBytes, ih]

/-- They take twice as many bytes as there are segments, which tells the two
kinds of addresses apart. -/
theorem length_flatMap_segmentBytes (segments : List UInt16) :
    (segments.flatMap segmentBytes).length = 2 * segments.length := by
  induction segments with
  | nil => rfl
  | cons s rest ih =>
    rw [List.flatMap_cons, List.length_append, ih, List.length_cons, Nat.mul_add_one, Nat.add_comm]
    rfl

/-- **An address has its bytes.** -/
theorem ofBytes?_bytes (a : IpAddress) : ofBytes? a.bytes = some a := by
  cases a with
  | v4 a b c d => rfl
  | v6 segments eight =>
    have hsegments := segmentsOf_flatMap segments
    have hlength : (segments.flatMap segmentBytes).length = 16 := by
      rw [length_flatMap_segmentBytes, eight]
    show ofBytes? (segments.flatMap segmentBytes) = _
    unfold ofBytes?
    split
    · rename_i heq
      rw [heq] at hlength
      cases hlength
    · have hboth : (segmentsOf (segments.flatMap segmentBytes)).length = 8
          ∧ (segments.flatMap segmentBytes).length = 16 := ⟨hsegments.symm ▸ eight, hlength⟩
      rw [dif_pos hboth]
      congr 1
      rw [IpAddress.v6.injEq]
      exact hsegments

end IpAddress

namespace Plan

/-! ## Alternative names -/

/-- An alternative name as a general name. -/
def generalNameValue : AltName → GeneralName
  | .dns name => .dns name
  | .ip address => .ip address.bytes

/-- A name is read as a general name of its kind. -/
theorem reads_generalName (n : AltName) :
    Reads GeneralName.read? (generalName n) (generalNameValue n) := by
  intro hsized rest
  unfold GeneralName.read?
  cases n with
  | dns name =>
    have helement : Reads readElement? (generalName (.dns name))
      ⟨identifierOf (Mark.plainField 2), Text.Utf8.encode name.toList⟩ := reads_element (by decide)
    rw [helement.bind hsized]
    show (((Text.Utf8.decode? (Text.Utf8.encode name.toList)).map GeneralName.dns).bind _) = _
    rw [Text.Utf8.decode?_encode]
    rfl
  | ip address =>
    have helement : Reads readElement? (generalName (.ip address))
      ⟨identifierOf (Mark.plainField 7), address.bytes⟩ := reads_element (by decide)
    rw [helement.bind hsized]
    rfl

theorem generalName_ne_nil (n : AltName) : generalName n ≠ [] := by
  cases n with
  | dns name => exact encode_ne_nil _ _
  | ip address => exact encode_ne_nil _ _

/-- The general name of a name is one that the authority knows about. -/
theorem ofGeneral?_generalNameValue (n : AltName) :
    AltName.ofGeneral? (generalNameValue n) = some n := by
  cases n with
  | dns name => rfl
  | ip address =>
    show (IpAddress.ofBytes? address.bytes).map AltName.ip = _
    rw [IpAddress.ofBytes?_bytes]
    rfl

/-- **Alternative names come back unchanged.** -/
theorem ofExtension?_altNames {san : List AltName}
    (hsized : IsSized (Der.sequence (san.map generalName))) :
    AltName.ofExtension? (Der.sequence (san.map generalName)) = some san := by
  have hinside : Reads (readInside? Tag.sequence
      (fun b => (readAll? GeneralName.read? b).map (·, [])))
      (Der.sequence (san.map generalName)) (san.map generalNameValue) := by
    refine reads_inside (by decide) fun hs => ⟨[], ?_⟩
    rw [readAll?_flatten rfl san (fun n _ => reads_generalName n)
      (fun n _ => generalName_ne_nil n) hs]
    rfl
  unfold AltName.ofExtension?
  rw [hinside.bind_last hsized]
  show some ((san.map generalNameValue).filterMap AltName.ofGeneral?) = _
  rw [List.filterMap_map]
  congr 1
  exact (List.filterMap_congr fun n _ => ofGeneral?_generalNameValue n).trans List.filterMap_some

/-! ## Extensions

Three extensions are always written, and the names are if there are some. An
extension is read back whatever it is, so the list of them is read back as
one, without a look at its entries. -/

/-- A flag before the value of an extension is taken off. -/
theorem readCritical_boolean (b : Bool) (rest : Bytes) :
    Extension.readCritical (boolean b ++ rest) = (b, rest) := by
  have hbasic : readBasic? (boolean b ++ rest)
      = some (⟨identifierOf Mark.boolean, [if b then 0xff else 0]⟩, rest) :=
    reads_basic (by decide) (by cases b <;> exact Nat.le_of_ble_eq_true rfl) rest
  unfold Extension.readCritical
  rw [hbasic]
  cases b with
  | true => rfl
  | false => rfl

/-- A value that is not a flag is not taken for one. -/
theorem readCritical_octetString {value : Bytes} (hsized : IsSized (octetString value)) :
    Extension.readCritical (octetString value) = (false, octetString value) := by
  have hbasic : readBasic? (octetString value ++ [])
      = some (⟨identifierOf Mark.octetString, value⟩, []) := reads_basic (by decide) hsized []
  rw [List.append_nil] at hbasic
  unfold Extension.readCritical
  rw [hbasic]
  dsimp only
  split
  · rfl
  · rfl

/-- **An extension is read back** with its type, its flag and its value. -/
theorem reads_extension (e : Extension) :
    Reads Extension.read? (extension e.type e.critical e.value) e := by
  refine reads_inside (by decide) fun hsized => ⟨[], ?_⟩
  have hvalue : Reads (readPrimitive? Tag.octetString) (octetString e.value) e.value :=
    reads_primitive (by decide) (by decide)
  obtain ⟨type, critical, value⟩ := e
  cases critical with
  | true =>
    show (Oid.read? (type.encode ++ (boolean true ++ (octetString value ++ []))) >>= _) = _
    have hsized' : IsSized (type.encode ++ (boolean true ++ (octetString value ++ []))) := hsized
    rw [(reads_oid type).bind hsized'.left]
    dsimp only
    rw [readCritical_boolean]
    dsimp only
    rw [hvalue.bind hsized'.right.right.left]
    rfl
  | false =>
    show (Oid.read? (type.encode ++ (octetString value ++ [])) >>= _) = _
    have hsized' : IsSized (type.encode ++ (octetString value ++ [])) := hsized
    rw [(reads_oid type).bind hsized'.left, List.append_nil]
    dsimp only
    rw [readCritical_octetString hsized'.right.left]
    dsimp only
    rw [hvalue.bind_last hsized'.right.left]
    rfl

/-- The extensions that a plan asks for, for a public key. -/
def extensionList (p : Plan) (info : Bytes) : List Extension :=
  (if p.san = [] then []
    else [⟨Extension.subjectAltName, false, Der.sequence (p.san.map generalName)⟩]) ++
  [⟨Extension.keyUsage, true, keyUsage p.isCa⟩,
    ⟨Extension.subjectKeyIdentifier, false, octetString (keyIdentifier info)⟩,
    ⟨Extension.basicConstraints, true, basicConstraints p.isCa⟩]

theorem extensions_eq (p : Plan) (info : Bytes) :
    p.extensions info = (p.extensionList info).map fun e => extension e.type e.critical e.value := by
  unfold extensions extensionList
  split_ifs
  · rfl
  · rfl

/-- **The extensions can be read back.** -/
theorem readList?_extensions {p : Plan} {info : Bytes}
    (hsized : IsSized (encode (Mark.fieldOf 3) (Der.sequence (p.extensions info)))) :
    Extension.readList? (encode (Mark.fieldOf 3) (Der.sequence (p.extensions info)))
      = some (p.extensionList info) := by
  have hheader : readHeader? (encode (Mark.fieldOf 3) (Der.sequence (p.extensions info)) ++ [])
      = some ((identifierOf (Mark.fieldOf 3), (Der.sequence (p.extensions info)).length),
        Der.sequence (p.extensions info) ++ []) := readHeader?_encode (by decide) hsized.content []
  have hlist : Reads (readInside? Tag.sequence
      (fun b => (readAll? Extension.read? b).map (·, [])))
      (Der.sequence (p.extensions info)) (p.extensionList info) := by
    rw [extensions_eq]
    refine reads_inside (by decide) fun hs => ⟨[], ?_⟩
    rw [readAll?_flatten rfl (p.extensionList info) (fun e _ => reads_extension e)
      (fun e _ => encode_ne_nil _ _) hs, List.map_id']
    rfl
  rw [List.append_nil, List.append_nil] at hheader
  unfold Extension.readList?
  rw [if_neg (encode_ne_nil _ _), hheader, Option.bind_eq_bind, Option.bind_some]
  dsimp only
  rw [if_neg (by decide), hlist.bind_last hsized.content]

/-! ## What they say

An extension is looked up by its type. It is found if it is there and no other
has the type, so it has to be known that the plan never asks for one twice. -/

/-- **An extension is found by its type** if no other has the same. -/
theorem unique?_eq_some {es : List Extension} (h : (es.map Extension.type).Nodup) {e : Extension}
    (he : e ∈ es) : Extension.unique? e.type es = .ok (some e) := by
  have hfilter : es.filter (fun x => x.type == e.type) = [e] := by
    induction es with
    | nil => exact absurd he (by simp)
    | cons x es ih =>
      obtain ⟨hx, hes⟩ := List.nodup_cons.1 h
      rw [List.filter_cons]
      rcases List.mem_cons.1 he with rfl | he
      · have hnone : es.filter (fun x => x.type == e.type) = [] := by
          rw [List.filter_eq_nil_iff]
          intro x hx' htype
          exact hx (List.mem_map.2 ⟨x, hx', by simpa using htype⟩)
        rw [hnone, beq_self_eq_true, if_pos rfl]
      · have hne : x.type ≠ e.type := fun htype => hx (List.mem_map.2 ⟨e, he, htype.symm⟩)
        rw [if_neg (by simpa using hne), ih hes he]
  unfold Extension.unique?
  rw [hfilter]

/-- An extension that is missing is not found. -/
theorem unique?_eq_none {es : List Extension} {type : Oid} (h : ∀ e ∈ es, e.type ≠ type) :
    Extension.unique? type es = .ok none := by
  have hfilter : es.filter (fun x => x.type == type) = [] := by
    rw [List.filter_eq_nil_iff]
    intro e he htype
    exact h e he (by simpa using htype)
  unfold Extension.unique?
  rw [hfilter]

/-- No two extensions are of one type. -/
theorem nodup_extensionList (p : Plan) (info : Bytes) :
    ((p.extensionList info).map Extension.type).Nodup := by
  have hall : [Extension.subjectAltName, Extension.keyUsage, Extension.subjectKeyIdentifier,
      Extension.basicConstraints].Nodup := by decide +kernel
  unfold extensionList
  split_ifs
  · exact (List.nodup_cons.1 hall).2
  · exact hall

/-- **The subject is an authority if the plan says so.** -/
theorem readIsCa_extensionList (p : Plan) (info : Bytes) :
    Facts.readIsCa (p.extensionList info) = .ok p.isCa := by
  have hauthority : ∀ isCa, Extension.authority? (basicConstraints isCa) = some isCa := by
    decide +kernel
  have hconstraints : ⟨Extension.basicConstraints, true, basicConstraints p.isCa⟩
      ∈ p.extensionList info := List.mem_append_right _ (by simp)
  unfold Facts.readIsCa
  rw [unique?_eq_some (nodup_extensionList p info) hconstraints]
  show Except.ok ((Extension.authority? (basicConstraints p.isCa)).getD false) = _
  rw [hauthority]
  rfl

/-- Where the extensions are sized, the list of names in one of them is. -/
theorem isSized_altNames {p : Plan} {info : Bytes} (hne : p.san ≠ [])
    (hsized : IsSized (Der.sequence (p.extensions info))) :
    IsSized (Der.sequence (p.san.map generalName)) := by
  have hcontent := hsized.content
  unfold extensions at hcontent
  rw [if_neg hne, List.cons_append, List.flatten_cons] at hcontent
  have hextension := hcontent.left.content
  rw [List.flatten_append] at hextension
  have hvalue := hextension.right
  rw [List.flatten_singleton] at hvalue
  exact hvalue.content

/-- **The subject is known by the names of the plan.** -/
theorem readSan_extensionList {p : Plan} {info : Bytes}
    (hsized : IsSized (Der.sequence (p.extensions info))) :
    Facts.readSan (p.extensionList info) = .ok p.san := by
  unfold Facts.readSan
  by_cases hnone : p.san = []
  · have hother : ∀ e ∈ p.extensionList info, e.type ≠ Extension.subjectAltName := by
      have htypes : Extension.subjectAltName ∉ [Extension.keyUsage, Extension.subjectKeyIdentifier,
        Extension.basicConstraints] := by decide +kernel
      intro e he htype
      have hmem := List.mem_map_of_mem (f := Extension.type) he
      unfold extensionList at hmem
      rw [if_pos hnone, htype] at hmem
      exact htypes hmem
    rw [unique?_eq_none hother, hnone]
  · have hnames : ⟨Extension.subjectAltName, false, Der.sequence (p.san.map generalName)⟩
        ∈ p.extensionList info := by
      unfold extensionList
      rw [if_neg hnone]
      exact List.mem_append_left _ (List.mem_singleton_self _)
    rw [unique?_eq_some (nodup_extensionList p info) hnames]
    dsimp only
    rw [ofExtension?_altNames (isSized_altNames hnone hsized)]

end Plan

end CertAuthority
