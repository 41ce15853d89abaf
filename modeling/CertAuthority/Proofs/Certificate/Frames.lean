import CertAuthority.Proofs.Certificate.Bundle
import CertAuthority.Proofs.Pem.Frame

/-!
# The blocks of a bundle

A bundle is read by its frames (`Pem.Framed`): it is accepted when there is a
frame, and in each a certificate stands (`decodePemBundle_eq_ok_iff_frames`).
What the two marker lines of such a frame say is less than one would think
(`Holds`). The label is compared up to its first dash, so that it may go on
behind one, and the last line is only asked for the beginning `-----END `.

A frame is *proper* if both its markers are those of a certificate. So what is
accepted has as many proper blocks as certificates unless one of its frames is
*loose*: its label goes on behind a dash, or it is ended with another label
(`decodePemBundle_frames`). Nothing that is written has a loose frame
(`followsFrames_encodePemBundle`).
-/

namespace CertAuthority.Certificate

open Pem (Frame Framed)

/-! ## Certificates in frames

The label of a block is read off its first line up to the first dash, whatever
comes behind that, provided that there are five dashes somewhere. It is the
only thing that is compared with the label of a certificate. -/

/-- **A line that opens a certificate**, as far as the reader looks: behind the
label there is a dash, and five of them somewhere from there on. -/
def Opens (line : List Char) : Prop :=
  ∃ more, line = "-----BEGIN CERTIFICATE".toList ++ '-' :: more ∧ Pem.dashes <:+: '-' :: more

/-- The label that is read off a line is that of a certificate if the line opens
one. -/
theorem labelOf?_eq_pemLabel_iff {line : List Char} :
    Pem.labelOf? line = some pemLabel.toList ↔ Opens line := by
  have hlabel : '-' ∉ pemLabel.toList := by decide
  have hmarker : "-----BEGIN CERTIFICATE".toList = "-----BEGIN ".toList ++ pemLabel.toList := by
    decide +kernel
  rw [Pem.labelOf?_eq_some_iff, and_iff_right hlabel]
  simp only [Opens, hmarker, List.append_assoc]

/-- **A certificate stands in a frame**: the first line opens one, and the
digits of the body are those of its bytes. -/
structure Holds (f : Frame) (c : Certificate) : Prop where
  /-- The first line opens a certificate. -/
  opens : Opens f.first
  /-- The digits of the body are read as the bytes. -/
  digits : Text.Base64.decodeJoined? (Text.Utf8.encode (f.body.flatMap Text.stripEnd))
    = some c.der

/-- A certificate stands in a frame if the frame is read as a block of it. -/
theorem holds_iff {f : Frame} {c : Certificate} :
    Holds f c ↔ ∃ block, f.Reads block ∧ ofBlock block = .ok c := by
  constructor
  · rintro ⟨hopens, hdigits⟩
    exact ⟨⟨pemLabel, c.der⟩, ⟨labelOf?_eq_pemLabel_iff.2 hopens, hdigits⟩, ofBlock_encode c⟩
  · rintro ⟨block, ⟨hlabel, hdigits⟩, hblock⟩
    unfold ofBlock at hblock
    split_ifs at hblock with hforeign
    rw [not_not.1 hforeign] at hlabel
    rw [← ofDer_eq_ok_iff.1 hblock] at hdigits
    exact ⟨labelOf?_eq_pemLabel_iff.1 hlabel, hdigits⟩

/-- **A text is accepted if it has a frame, and its frames hold certificates.** -/
theorem decodePemBundle_eq_ok_iff_frames {text : String} {cs : List Certificate} :
    decodePemBundle text = .ok cs ↔
      cs ≠ [] ∧ ∃ fs, Framed (Pem.linesOf text.toList) fs ∧ List.Forall₂ Holds fs cs := by
  rw [decodePemBundle_eq_ok_iff, readLines, Pem.readBlocks_eq_ok_iff, and_comm]
  simp only [← holds_iff]

/-- What is not accepted is refused as badly encoded. -/
theorem okOrEncoding_decodePemBundle (text : String) : OkOrEncoding (decodePemBundle text) := by
  intro e he
  rcases decodePemBundle_eq_error_iff.1 he with hbad | ⟨-, rfl⟩
  · rcases Pem.readBlocks_eq_error _ ofBlock hbad with ⟨fault, rfl⟩ | ⟨block, hblock⟩
    · exact ⟨.block fault, rfl⟩
    · unfold ofBlock at hblock
      split_ifs at hblock with hlabel
      · exact okOrEncoding_error _ e hblock
      · exact okOrEncoding_ofDer block.contents e hblock
  · exact ⟨.emptyBundle, rfl⟩

/-! ## Proper frames

The line that ends a block is recognised by its beginning, and its label is
never looked at. So a block that a reader of markers would refuse may be
accepted here, in one of two ways, and these are exactly the loose ones. -/

/-- **A proper block of a certificate**: its markers carry the label of a
certificate, and nothing else is in the label. -/
structure IsProper (f : Frame) : Prop where
  /-- The marker of the first line. -/
  first : beginCertificate.toList <+: f.first
  /-- The marker of the last line. -/
  last : endCertificate.toList <+: f.last

/-- **A loose block**: its label goes on behind a dash, or the line that ends it
carries another one. -/
def IsLoose (f : Frame) : Prop :=
  (∃ more, f.first = "-----BEGIN CERTIFICATE".toList ++ '-' :: more
      ∧ ¬ Pem.dashes <+: '-' :: more)
    ∨ ¬ endCertificate.toList <+: f.last

/-- **Among the frames that open a certificate** the loose ones are those that
are not proper. -/
theorem Opens.isProper_iff {f : Frame} (h : Opens f.first) : IsProper f ↔ ¬ IsLoose f := by
  have hbegin : beginCertificate.toList = "-----BEGIN CERTIFICATE".toList ++ Pem.dashes := by
    decide +kernel
  obtain ⟨more, hmore, -⟩ := h
  have hfirst : beginCertificate.toList <+: f.first ↔ Pem.dashes <+: '-' :: more := by
    rw [hbegin, hmore, List.prefix_append_right_inj]
  have hgoesOn : (∃ more', f.first = "-----BEGIN CERTIFICATE".toList ++ '-' :: more'
      ∧ ¬ Pem.dashes <+: '-' :: more') ↔ ¬ Pem.dashes <+: '-' :: more := by
    refine ⟨?_, fun hnot => ⟨more, hmore, hnot⟩⟩
    rintro ⟨more', hmore', hnot⟩
    rwa [List.append_cancel_left (hmore.symm.trans hmore')]
  unfold IsLoose
  rw [hgoesOn, ← hfirst, not_or, not_not, not_not]
  exact ⟨fun h => ⟨h.first, h.last⟩, fun h => ⟨h.1, h.2⟩⟩

/-- **What is accepted are proper blocks**, one for each certificate, and a text
with a block that is not proper is refused as badly encoded. -/
structure FollowsFrames (text : String) : Prop where
  /-- There are as many blocks as certificates, and all are proper. -/
  proper : ∀ cs, decodePemBundle text = .ok cs →
    ∃ fs, Framed (Pem.linesOf text.toList) fs ∧ fs.length = cs.length ∧ ∀ f ∈ fs, IsProper f
  /-- A text with a block that is not proper is not accepted. -/
  refused : ∀ fs, Framed (Pem.linesOf text.toList) fs → (∃ f ∈ fs, ¬ IsProper f) →
    ∃ cause, decodePemBundle text = .error (.encoding cause)

/-- The frames in which certificates stand open certificates. -/
theorem opens_of_holds {fs : List Frame} {cs : List Certificate} (h : List.Forall₂ Holds fs cs) :
    ∀ f ∈ fs, Opens f.first :=
  ((List.forall₂_and_left fs cs).1 (h.imp fun _ _ hholds => ⟨hholds.opens, hholds⟩)).1

/-- **Proper blocks are asked for exactly where none is loose** although
certificates stand in all of them. -/
theorem followsFrames_iff {text : String} :
    FollowsFrames text ↔ ∀ fs cs, Framed (Pem.linesOf text.toList) fs →
      List.Forall₂ Holds fs cs → ∀ f ∈ fs, ¬ IsLoose f := by
  constructor
  · intro h fs cs hfs hholds f hf
    have hcs : cs ≠ [] := by
      rintro rfl
      rw [List.forall₂_nil_right_iff.1 hholds] at hf
      cases hf
    obtain ⟨fs', hfs', -, hproper⟩ :=
      h.proper cs (decodePemBundle_eq_ok_iff_frames.2 ⟨hcs, fs, hfs, hholds⟩)
    rw [hfs'.unique hfs] at hproper
    exact (opens_of_holds hholds f hf).isProper_iff.1 (hproper f hf)
  · intro h
    have hproper : ∀ fs cs, Framed (Pem.linesOf text.toList) fs → List.Forall₂ Holds fs cs →
        ∀ f ∈ fs, IsProper f := fun fs cs hfs hholds f hf =>
      (opens_of_holds hholds f hf).isProper_iff.2 (h fs cs hfs hholds f hf)
    refine ⟨fun cs hcs => ?_, fun fs hfs ⟨f, hf, hnot⟩ => ?_⟩
    · obtain ⟨-, fs, hfs, hholds⟩ := decodePemBundle_eq_ok_iff_frames.1 hcs
      exact ⟨fs, hfs, hholds.length_eq, hproper fs cs hfs hholds⟩
    · match hread : decodePemBundle text with
      | .error e =>
        obtain ⟨cause, rfl⟩ := okOrEncoding_decodePemBundle text e hread
        exact ⟨cause, rfl⟩
      | .ok cs =>
        obtain ⟨-, fs', hfs', hholds⟩ := decodePemBundle_eq_ok_iff_frames.1 hread
        rw [hfs'.unique hfs] at hholds
        exact absurd (hproper fs cs hfs hholds f hf) hnot

/-- **A bundle is read by its frames.** It is accepted exactly if there is one,
and in each a certificate stands; there are as many of them then as
certificates, and all have the label. Every refusal says what is wrong with the
encoding. The frames are proper blocks, and those that are not are refused,
exactly if no frame is loose when certificates stand in all of them. -/
theorem decodePemBundle_frames (text : String) :
    (∀ cs, decodePemBundle text = .ok cs ↔
        cs ≠ [] ∧ ∃ fs, Framed (Pem.linesOf text.toList) fs ∧ List.Forall₂ Holds fs cs)
      ∧ (∀ cs fs, decodePemBundle text = .ok cs → Framed (Pem.linesOf text.toList) fs →
          fs.length = cs.length ∧ ∀ f ∈ fs, Opens f.first ∧ Pem.IsLastLine f.last)
      ∧ ((¬ ∃ cs, decodePemBundle text = .ok cs) →
          ∃ cause, decodePemBundle text = .error (.encoding cause))
      ∧ (FollowsFrames text ↔ ∀ fs cs, Framed (Pem.linesOf text.toList) fs →
          List.Forall₂ Holds fs cs → ∀ f ∈ fs, ¬ IsLoose f) := by
  refine ⟨fun cs => decodePemBundle_eq_ok_iff_frames, fun cs fs hcs hfs => ?_, fun hnone => ?_,
    followsFrames_iff⟩
  · obtain ⟨-, fs', hfs', hholds⟩ := decodePemBundle_eq_ok_iff_frames.1 hcs
    rw [hfs'.unique hfs] at hholds
    exact ⟨hholds.length_eq, fun f hf =>
      ⟨opens_of_holds hholds f hf, (hfs.isBounded f hf).last⟩⟩
  · match hread : decodePemBundle text with
    | .ok cs => exact absurd ⟨cs, hread⟩ hnone
    | .error e =>
      obtain ⟨cause, rfl⟩ := okOrEncoding_decodePemBundle text e hread
      exact ⟨cause, rfl⟩

/-! ### What is written, and what is accepted besides -/

/-- The frame of a certificate's block. -/
def writtenFrame (c : Certificate) : Frame where
  first := (Pem.beginLine pemLabel).toList ++ ['\n']
  body := (Pem.chunks Pem.lineWidth (Pem.digits c.der)).map (· ++ ['\n'])
  last := (Pem.endLine pemLabel).toList ++ ['\n']

theorem isProper_writtenFrame (c : Certificate) : IsProper (writtenFrame c) where
  first := ⟨['\n'], rfl⟩
  last := ⟨['\n'], rfl⟩

/-- **The frames of a bundle that was written** are those of its certificates. -/
theorem framed_encodePemBundle (cs : List Certificate) :
    Framed (Pem.linesOf (encodePemBundle cs).toList) (cs.map writtenFrame) := by
  induction cs with
  | nil => exact .none (by simp [encodePemBundle, String.join, Pem.linesOf])
  | cons c cs ih =>
    have hbounded : (writtenFrame c).IsBounded := by
      refine ⟨?_, fun line hline hlast => ?_, ?_⟩
      · exact List.IsPrefix.trans (by decide +kernel) (List.prefix_append _ _)
      · obtain ⟨digits, hdigits, rfl⟩ := List.mem_map.1 hline
        rcases List.mem_append.1 (hlast.subset (show '-' ∈ _ by decide)) with hmem | hmem
        · exact Pem.dash_not_mem_digits c.der (Pem.mem_of_mem_chunks (by decide) hdigits hmem)
        · exact absurd hmem (by decide)
      · exact List.IsPrefix.trans (by decide +kernel) (List.prefix_append _ _)
    rw [toList_encodePemBundle_cons, encodePem, Pem.linesOf_encodeBlock (by decide)]
    exact ih.head hbounded

/-- **What is written is accepted for its proper blocks.** -/
theorem followsFrames_encodePemBundle (cs : List Certificate) :
    FollowsFrames (encodePemBundle cs) := by
  refine followsFrames_iff.2 fun fs as hfs hholds f hf => ?_
  refine (opens_of_holds hholds f hf).isProper_iff.1 ?_
  rw [← (framed_encodePemBundle cs).unique hfs] at hf
  obtain ⟨c, -, rfl⟩ := List.mem_map.1 hf
  exact isProper_writtenFrame c

/-- A text of a first line, a line with the digits of a byte string, and a last
line. -/
def textBetween (first last : String) (der : Bytes) : String :=
  String.ofList ([first.toList, Pem.digits der, last.toList].flatMap (· ++ ['\n']))

/-- **A loose block is accepted**, whatever is loose about it. -/
theorem decodePemBundle_textBetween {first last : String} (c : Certificate)
    (hfirst : '\n' ∉ first.toList) (hopens : Opens (first.toList ++ ['\n']))
    (hlast : '\n' ∉ last.toList) (hends : Pem.IsLastLine (last.toList ++ ['\n']))
    (hloose : IsLoose ⟨first.toList ++ ['\n'], [Pem.digits c.der ++ ['\n']],
      last.toList ++ ['\n']⟩) :
    decodePemBundle (textBetween first last c.der) = .ok [c]
      ∧ ¬ FollowsFrames (textBetween first last c.der) := by
  have hlines : Pem.linesOf (textBetween first last c.der).toList
      = [first.toList ++ ['\n'], Pem.digits c.der ++ ['\n'], last.toList ++ ['\n']] := by
    rw [textBetween, String.toList_ofList, ← List.append_nil (List.flatMap _ _),
      Pem.linesOf_flatMap (by simp [hfirst, hlast, Pem.newline_not_mem_digits])]
    rfl
  have hbounded : Frame.IsBounded ⟨first.toList ++ ['\n'], [Pem.digits c.der ++ ['\n']],
      last.toList ++ ['\n']⟩ := by
    refine ⟨?_, fun line hline hlast => ?_, hends⟩
    · obtain ⟨more, hmore, -⟩ := hopens
      show Pem.IsFirstLine (first.toList ++ ['\n'])
      rw [hmore]
      exact List.IsPrefix.trans (by decide +kernel) (List.prefix_append _ _)
    · obtain rfl := List.mem_singleton.1 hline
      rcases List.mem_append.1 (hlast.subset (show '-' ∈ _ by decide)) with hmem | hmem
      · exact Pem.dash_not_mem_digits c.der hmem
      · exact absurd hmem (by decide)
  have hframed := Framed.head hbounded (.none (List.forall_mem_nil _))
  have hholds : Holds ⟨first.toList ++ ['\n'], [Pem.digits c.der ++ ['\n']],
      last.toList ++ ['\n']⟩ c := by
    refine ⟨hopens, ?_⟩
    have hline : Text.stripEnd (Pem.digits c.der ++ ['\n']) = Pem.digits c.der :=
      Text.stripEnd_append (List.forall_mem_singleton.2 rfl) fun x hx =>
        Pem.not_isBlank_of_mem_digits (List.mem_of_getLast? hx)
    rw [List.flatMap_singleton, hline, Pem.encode_digits, Text.Base64.decodeJoined?_encode]
  have hone : List.Forall₂ Holds _ [c] := .cons hholds .nil
  refine ⟨decodePemBundle_eq_ok_iff_frames.2 ⟨by simp, _, ?_, hone⟩, fun h => ?_⟩
  · rw [hlines]
    exact hframed
  · refine followsFrames_iff.1 h _ [c] ?_ hone _ List.mem_cons_self hloose
    rw [hlines]
    exact hframed

/-- **A certificate that is ended as a private key**, and one whose label is
that of a request for a certificate: both are accepted as certificates. -/
theorem not_followsFrames_small : ∃ c, ofDer (smallDer [authorityExtension]) = .ok c
    ∧ (decodePemBundle (textBetween "-----BEGIN CERTIFICATE-----" "-----END PRIVATE KEY-----"
          (smallDer [authorityExtension])) = .ok [c]
      ∧ ¬ FollowsFrames (textBetween "-----BEGIN CERTIFICATE-----" "-----END PRIVATE KEY-----"
          (smallDer [authorityExtension])))
    ∧ (decodePemBundle (textBetween "-----BEGIN CERTIFICATE-REQUEST-----"
          "-----END CERTIFICATE-REQUEST-----" (smallDer [authorityExtension])) = .ok [c]
      ∧ ¬ FollowsFrames (textBetween "-----BEGIN CERTIFICATE-REQUEST-----"
          "-----END CERTIFICATE-REQUEST-----" (smallDer [authorityExtension]))) := by
  obtain ⟨c, hc⟩ := exists_ofDer_small
  have hder : c.der = smallDer [authorityExtension] := ofDer_eq_ok_iff.1 hc
  rw [← hder]
  refine ⟨c, hder ▸ hc, ?_, ?_⟩
  · have hlast : ¬ endCertificate.toList <+: "-----END PRIVATE KEY-----".toList ++ ['\n'] := by
      decide +kernel
    exact decodePemBundle_textBetween c (by decide)
      ⟨"----\n".toList, by decide +kernel, [], ['\n'], by decide +kernel⟩ (by decide)
      (by unfold Pem.IsLastLine; decide +kernel) (.inr hlast)
  · have hfirst : "-----BEGIN CERTIFICATE-REQUEST-----".toList ++ ['\n']
        = "-----BEGIN CERTIFICATE".toList ++ '-' :: "REQUEST-----\n".toList := by
      decide +kernel
    exact decodePemBundle_textBetween c (by decide)
      ⟨_, hfirst, "-REQUEST".toList, ['\n'], by decide +kernel⟩ (by decide)
      (by unfold Pem.IsLastLine; decide +kernel) (.inl ⟨_, hfirst, by decide +kernel⟩)

end CertAuthority.Certificate
