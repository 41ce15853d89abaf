import CertAuthority.Proofs.Certificate.Acceptance
import CertAuthority.Proofs.Certificate.Layouts
import CertAuthority.Proofs.Pem.Bundle

/-!
# Bundles of certificates

A bundle is the texts of its certificates, one after another, and it has two
readers. The reader of bundles takes the blocks one by one; since the first
block of a text that begins with one is that block and the rest is the rest
(`Pem.readBlock_encodeBlock`), it gives back the list that was written, by
induction on that list (`readBlocks_encodePemBundle`).

The reader of a single certificate sees the same text as what stands between
its first marker and its last one (`exists_between_markers`). With one
certificate that is its body. With more of them the last line of the first
block is in there, and such a text is no single block.

A bundle may also be put together from texts that are bundles already, with
anything between their blocks. The reader of blocks remembers nothing at the end
of a text that it has read (`Pem.readBlocks_append`), so a text that ends at the
end of a line and the text after it are read as if each stood alone.
-/

namespace CertAuthority.Certificate

/-! ## The reader of bundles -/

/-- The text of a bundle is that of its first certificate and that of the
others. -/
theorem toList_encodePemBundle_cons (c : Certificate) (cs : List Certificate) :
    (encodePemBundle (c :: cs)).toList = c.encodePem.toList ++ (encodePemBundle cs).toList := by
  simp [encodePemBundle, String.toList_join]

/-- The certificate of a block is read off it. -/
theorem ofBlock_encode (c : Certificate) : ofBlock ⟨pemLabel, c.der⟩ = .ok c := by
  rw [ofBlock, if_neg (by simp)]
  exact ofDer_der' c

/-- **The blocks of a bundle are its certificates**, in their order. -/
theorem readBlocks_encodePemBundle (fault : BlockFault → Error) (cs : List Certificate) :
    Pem.readBlocks fault ofBlock (Pem.linesOf (encodePemBundle cs).toList) = .ok cs := by
  induction cs with
  | nil => exact Pem.readBlocks_of_none fault ofBlock rfl
  | cons c cs ih =>
    have hnewline : '\n' ∉ pemLabel.toList := by decide
    have hdash : '-' ∉ pemLabel.toList := by decide
    have hfirst := Pem.readBlock_encodeBlock hnewline hdash c.der (encodePemBundle cs).toList
    rw [toList_encodePemBundle_cons, encodePem, Pem.readBlocks_of_some fault ofBlock hfirst,
      ofBlock_encode, ih]
    rfl

/-- **A bundle is read as what it was written from.** -/
theorem decodePemBundle_encodePemBundle (c : Certificate) (cs : List Certificate) :
    decodePemBundle (encodePemBundle (c :: cs)) = .ok (c :: cs) := by
  unfold decodePemBundle
  rw [readBlocks_encodePemBundle]

/-! ## The reader of a single certificate -/

/-- **A bundle stands between a first marker and a last one**, and if it has
more than one certificate, then there is a further marker between them. -/
theorem exists_between_markers (c : Certificate) (cs : List Certificate) :
    ∃ s, (encodePemBundle (c :: cs)).toList
        = beginCertificate.toList ++ (s ++ endCertificate.toList) ++ ['\n']
      ∧ (cs ≠ [] → Pem.dashes <:+: s) := by
  induction cs generalizing c with
  | nil =>
    refine ⟨'\n' :: Pem.bodyText c.der, ?_, fun h => absurd rfl h⟩
    rw [toList_encodePemBundle_cons, toList_encodePem]
    exact List.append_nil _
  | cons c' cs ih =>
    obtain ⟨s, hs, -⟩ := ih c'
    have hend : endCertificate.toList = Pem.dashes ++ "END CERTIFICATE-----".toList := by
      decide +kernel
    refine ⟨'\n' :: Pem.bodyText c.der ++ endCertificate.toList
      ++ ('\n' :: beginCertificate.toList ++ s), ?_, fun _ => ?_⟩
    · rw [toList_encodePemBundle_cons, toList_encodePem, hs]
      simp
    · rw [hend]
      exact ⟨'\n' :: Pem.bodyText c.der,
        "END CERTIFICATE-----".toList ++ ('\n' :: beginCertificate.toList ++ s), by simp⟩

/-- A text with a marker between its markers is not one block. -/
theorem decodePem_of_marker_between {text : String} {s blanks : List Char}
    (htext : text.toList = beginCertificate.toList ++ (s ++ endCertificate.toList) ++ blanks)
    (hblanks : ∀ c ∈ blanks, Text.isBlank c = true) (hmarker : Pem.dashes <:+: s) :
    decodePem text = .error (.encoding .notOneBlock) := by
  have hbody : pemBody text = .error (.encoding .notOneBlock) := by
    unfold pemBody
    rw [htext, strip_markers _ _ hblanks]
    simp only [dropExpected?_append, dropEnding?_append, hasMarker_eq_true_iff.2 hmarker, if_true]
  unfold decodePem
  rw [hbody]
  rfl

/-! ## Bundles -/

/-- **A bundle keeps its list.** The text of one certificate or more is read
as the list that was written: none is lost, none doubled, and they stand in
their order. The empty list has the empty text, which is refused as a bundle.
The reader of a single certificate agrees with the reader of bundles on the
text of one certificate, and refuses the text of more of them. -/
theorem bundle_keeps_list (c c' : Certificate) (cs : List Certificate) :
    decodePemBundle (encodePemBundle (c :: cs)) = .ok (c :: cs)
      ∧ (encodePemBundle [] = "" ∧ decodePemBundle "" = .error (.encoding .emptyBundle))
      ∧ decodePem (encodePemBundle (c :: c' :: cs)) = .error (.encoding .notOneBlock)
      ∧ (decodePem (encodePemBundle [c]) = .ok c
        ∧ decodePemBundle (encodePemBundle [c]) = .ok [c]) := by
  have hempty : decodePemBundle (encodePemBundle []) = .error (.encoding .emptyBundle) := by
    unfold decodePemBundle
    rw [readBlocks_encodePemBundle]
  have hsingle : encodePemBundle [c] = c.encodePem := by
    simp [encodePemBundle, String.join]
  refine ⟨decodePemBundle_encodePemBundle c cs, ⟨rfl, hempty⟩, ?_, ?_,
    decodePemBundle_encodePemBundle c []⟩
  · obtain ⟨s, hs, hmarker⟩ := exists_between_markers c (c' :: cs)
    exact decodePem_of_marker_between hs (List.forall_mem_singleton.2 rfl)
      (hmarker (List.cons_ne_nil _ _))
  · rw [hsingle]
    exact decodePem_encodePem c

/-! ## One bundle after another -/

/-- Whether a block begins in a text. -/
def HasBlock (text : String) : Prop := ∃ line ∈ Pem.linesOf text.toList, Pem.IsFirstLine line

/-- What is in the blocks of a text, or what is wrong with the first of them
that is no certificate. -/
def readLines (lines : List (List Char)) : Except Error (List Certificate) :=
  Pem.readBlocks (fun fault => .encoding (.block fault)) ofBlock lines

/-- A text is read as a bundle if there is something in its blocks. -/
theorem decodePemBundle_eq_ok_iff {text : String} {cs : List Certificate} :
    decodePemBundle text = .ok cs ↔ readLines (Pem.linesOf text.toList) = .ok cs ∧ cs ≠ [] := by
  unfold decodePemBundle readLines
  split
  · rename_i e he
    exact iff_of_false (by simp) (by simp [he])
  · rename_i hnil
    refine iff_of_false (by simp) fun ⟨hcs, hne⟩ => hne ?_
    exact (Except.ok.inj (hnil.symm.trans hcs)).symm
  · rename_i cs' hne hcs'
    rw [hcs']
    constructor
    · intro h
      obtain rfl := Except.ok.inj h
      exact ⟨rfl, hne⟩
    · exact fun h => h.1

/-- **A text has certificates, or it has no block, or one that is bad.** -/
theorem decodePemBundle_eq_error_iff {text : String} {e : Error} :
    decodePemBundle text = .error e ↔ readLines (Pem.linesOf text.toList) = .error e
      ∨ readLines (Pem.linesOf text.toList) = .ok [] ∧ e = .encoding .emptyBundle := by
  unfold decodePemBundle readLines
  split
  · rename_i e' he
    simp [he]
  · rename_i hnil
    simp [hnil, eq_comm]
  · rename_i cs hne hcs
    rw [hcs]
    refine iff_of_false (by simp) ?_
    rintro (h | ⟨h, -⟩)
    · cases h
    · exact hne (Except.ok.inj h)

/-- What is wrong with a block is not that there is none. -/
theorem ofBlock_ne_emptyBundle (block : Pem.Block) :
    ofBlock block ≠ .error (.encoding .emptyBundle) := by
  intro h
  unfold ofBlock at h
  split at h
  · cases h
  · rcases error_of_ofDer h with h | ⟨_, h⟩ | h | ⟨_, h⟩ <;> cases h

/-- A bad block is not mistaken for a missing one. -/
theorem readLines_ne_emptyBundle (lines : List (List Char)) :
    readLines lines ≠ .error (.encoding .emptyBundle) := by
  intro h
  rcases Pem.readBlocks_eq_error _ ofBlock h with ⟨_, hcause⟩ | ⟨block, hblock⟩
  · cases hcause
  · exact ofBlock_ne_emptyBundle block hblock

/-- **A text is refused as empty exactly if no block begins in it.** -/
theorem decodePemBundle_eq_emptyBundle_iff {text : String} :
    decodePemBundle text = .error (.encoding .emptyBundle) ↔ ¬ HasBlock text := by
  have hnone : readLines (Pem.linesOf text.toList) = .ok [] ↔ ¬ HasBlock text := by
    unfold readLines HasBlock
    rw [Pem.readBlocks_eq_nil_iff]
    simp only [not_exists, not_and]
  rw [decodePemBundle_eq_error_iff, or_iff_right (readLines_ne_emptyBundle _), and_iff_left rfl,
    hnone]

/-- **Two texts, the first of which is good**, are read one after the other. -/
theorem readLines_append {a : String} {xs : List Certificate} (ha : decodePemBundle a = .ok xs)
    (hend : a.toList.getLast? = some '\n') (b : String) :
    readLines (Pem.linesOf (a ++ b).toList)
      = (readLines (Pem.linesOf b.toList)).map (xs ++ ·) := by
  obtain ⟨s, hs⟩ := List.getLast?_eq_some_iff.1 hend
  have hlines : Pem.linesOf (a ++ b).toList = Pem.linesOf a.toList ++ Pem.linesOf b.toList := by
    rw [String.toList_append, hs, List.append_assoc]
    exact Pem.linesOf_append_newline s b.toList
  rw [hlines]
  exact Pem.readBlocks_append _ ofBlock (decodePemBundle_eq_ok_iff.1 ha).1 _

/-- **Decoding goes well with concatenation.** Behind a bundle that ends at the
end of a line, a further bundle adds its certificates, a text without a block
adds none, and a text with a bad block is as bad as it is alone. A text is
refused as one without certificates exactly if no block begins in it. -/
theorem decodePemBundle_append {a : String} {xs : List Certificate}
    (ha : decodePemBundle a = .ok xs) (hend : a.toList.getLast? = some '\n') (b : String) :
    (∀ ys, decodePemBundle b = .ok ys → decodePemBundle (a ++ b) = .ok (xs ++ ys))
      ∧ ((decodePemBundle b = .error (.encoding .emptyBundle) ↔ ¬ HasBlock b)
        ∧ (¬ HasBlock b → decodePemBundle (a ++ b) = .ok xs))
      ∧ ∀ e, decodePemBundle b = .error e → e ≠ .encoding .emptyBundle →
        decodePemBundle (a ++ b) = .error e := by
  have hboth := readLines_append ha hend b
  have hxs := (decodePemBundle_eq_ok_iff.1 ha).2
  refine ⟨fun ys hb => ?_, ⟨decodePemBundle_eq_emptyBundle_iff, fun hb => ?_⟩, fun e hb hne => ?_⟩
  · rw [decodePemBundle_eq_ok_iff, hboth, (decodePemBundle_eq_ok_iff.1 hb).1]
    exact ⟨rfl, List.append_ne_nil_of_left_ne_nil hxs ys⟩
  · have hnone : readLines (Pem.linesOf b.toList) = .ok [] := by
      refine (Pem.readBlocks_eq_nil_iff _ ofBlock).2 fun line hline hfirst => ?_
      exact hb ⟨line, hline, hfirst⟩
    rw [decodePemBundle_eq_ok_iff, hboth, hnone]
    exact ⟨congrArg _ (List.append_nil xs), hxs⟩
  · rcases decodePemBundle_eq_error_iff.1 hb with hbad | ⟨-, hempty⟩
    · rw [decodePemBundle_eq_error_iff, hboth, hbad]
      exact Or.inl rfl
    · exact absurd hempty hne

/-- **A bundle of one small certificate**, with itself, with a remark and with
the beginning of a block behind it. -/
theorem decodePemBundle_small : ∃ c, ofDer (smallDer [authorityExtension]) = .ok c
    ∧ decodePemBundle (encodePemBundle [c] ++ encodePemBundle [c]) = .ok [c, c]
    ∧ decodePemBundle (encodePemBundle [c] ++ "the end") = .ok [c]
    ∧ decodePemBundle (encodePemBundle [c] ++ "-----BEGIN CERTIFICATE-----")
      = .error (.encoding (.block .incomplete)) := by
  obtain ⟨c, hc⟩ := exists_ofDer_small
  have hone := decodePemBundle_encodePemBundle c []
  have hend : (encodePemBundle [c]).toList.getLast? = some '\n' := by
    rw [toList_encodePemBundle_cons, toList_encodePem]
    exact List.getLast?_eq_some_iff.2 ⟨_, List.append_nil _⟩
  have hremark : ¬ HasBlock "the end" := by
    rw [← decodePemBundle_eq_emptyBundle_iff]
    decide +kernel
  have hbad : decodePemBundle "-----BEGIN CERTIFICATE-----"
      = .error (.encoding (.block .incomplete)) := by decide +kernel
  refine ⟨c, hc, ?_, ?_, ?_⟩
  · exact (decodePemBundle_append hone hend _).1 [c] hone
  · exact (decodePemBundle_append hone hend _).2.1.2 hremark
  · exact (decodePemBundle_append hone hend _).2.2 _ hbad (by decide)

end CertAuthority.Certificate
