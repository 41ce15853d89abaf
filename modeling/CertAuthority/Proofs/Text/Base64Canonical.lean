import CertAuthority.Proofs.Text.Base64

/-!
# A byte string has one base64 text

Besides the texts that `encode` writes there is none that `decode` reads: a
text that is read is the text of what is read (`decode_eq_ok_iff`). A
decoder can be lax in two places. It may take a digit for a value that is
another digit's, and it may overlook bits of the last digit, or marks after
it, that no byte accounts for. The first is ruled out for all digits at once
(`digit_of_value?`), so that a run of digits is its values written again
(`eq_map_of_values`); the second only concerns the last group
(`eq_encode_of_decodeLast`), and the induction over the groups before it has
nothing more to look at.

There is a more liberal reader, too, which takes texts that are set one after
another. Each of them is one that is written (`exists_of_decodeJoined?`), and
all that the bytes leave open is where one of them ends and the next one
begins.
-/

namespace CertAuthority.Text.Base64

/-! ## Digits -/

/-- **A digit stands for one value**, and no other digit does. -/
theorem digit_of_value? {b : UInt8} {n : Nat} (h : value? b = some n) : n < 64 ∧ digit n = b := by
  have hback : ∀ m, m = b.toNat → UInt8.ofNat m = b := fun m hm => ofNat_eq_of_toNat hm
  unfold value? at h
  dsimp only at h
  unfold digit
  -- one case for each range of the alphabet
  split_ifs at h with hupper hlower hfigure hplus hslash
  · cases h
    refine ⟨by omega, ?_⟩
    rw [if_pos (by omega)]
    exact hback _ (by omega)
  · cases h
    refine ⟨by omega, ?_⟩
    rw [if_neg (by omega), if_pos (by omega)]
    exact hback _ (by omega)
  · cases h
    refine ⟨by omega, ?_⟩
    rw [if_neg (by omega), if_neg (by omega), if_pos (by omega)]
    exact hback _ (by omega)
  · cases h
    exact ⟨by decide, hback 43 hplus.symm⟩
  · cases h
    exact ⟨by decide, hback 47 hslash.symm⟩

/-- **A run of digits is its values, written again.** -/
theorem eq_map_of_values {offset : Nat} {ds : Bytes} {vs : List Nat}
    (h : values offset ds = .ok vs) : ds = vs.map digit ∧ ∀ v ∈ vs, v < 64 := by
  induction ds generalizing offset vs with
  | nil =>
    cases h
    exact ⟨rfl, by simp⟩
  | cons b ds ih =>
    rw [values] at h
    cases hvalue : value? b with
    | none => simp [hvalue] at h
    | some v =>
      cases hrest : values (offset + 1) ds with
      | error fault => simp [hvalue, hrest] at h
      | ok rest =>
        simp only [hvalue, hrest, Except.ok.injEq] at h
        subst h
        obtain ⟨hsmall, hdigit⟩ := digit_of_value? hvalue
        obtain ⟨hds, hall⟩ := ih hrest
        exact ⟨by rw [List.map_cons, hdigit, ← hds], by simpa using ⟨hsmall, hall⟩⟩

/-! ## One group -/

/-- **Four digits are the text of three bytes.** -/
theorem encode_groupBytes_four {a b c d : Nat} (ha : a < 64) (hb : b < 64) (hc : c < 64)
    (hd : d < 64) (rest : Bytes) :
    encode ((groupBytes [a, b, c, d]).1 ++ rest)
      = [a, b, c, d].map digit ++ encode rest := by
  have hx := UInt8.toNat_ofNat_of_lt' (show a * 4 + b / 16 < 256 by omega)
  have hy := UInt8.toNat_ofNat_of_lt' (show b % 16 * 16 + c / 4 < 256 by omega)
  have hz := UInt8.toNat_ofNat_of_lt' (show c % 4 * 64 + d < 256 by omega)
  have h₁ : (a * 4 + b / 16) / 4 = a := by omega
  have h₂ : (a * 4 + b / 16) % 4 * 16 + (b % 16 * 16 + c / 4) / 16 = b := by omega
  have h₃ : (b % 16 * 16 + c / 4) % 16 * 4 + (c % 4 * 64 + d) / 64 = c := by omega
  have h₄ : (c % 4 * 64 + d) % 64 = d := by omega
  simp only [groupBytes, List.cons_append, List.nil_append, encode, hx, hy, hz, h₁, h₂, h₃, h₄,
    List.map_cons, List.map_nil]

/-- Three digits and a mark are the text of two bytes if no bit is left
over. -/
theorem encode_groupBytes_three {a b c : Nat} (ha : a < 64) (hb : b < 64) (hc : c < 64)
    (hexact : c % 4 = 0) :
    encode (groupBytes [a, b, c]).1 = [a, b, c].map digit ++ [pad] := by
  have hx := UInt8.toNat_ofNat_of_lt' (show a * 4 + b / 16 < 256 by omega)
  have hy := UInt8.toNat_ofNat_of_lt' (show b % 16 * 16 + c / 4 < 256 by omega)
  have h₁ : (a * 4 + b / 16) / 4 = a := by omega
  have h₂ : (a * 4 + b / 16) % 4 * 16 + (b % 16 * 16 + c / 4) / 16 = b := by omega
  have h₃ : (b % 16 * 16 + c / 4) % 16 * 4 = c := by omega
  simp only [groupBytes, encode, hx, hy, h₁, h₂, h₃, List.map_cons, List.map_nil,
    List.cons_append, List.nil_append]

/-- Two digits and two marks are the text of one byte if no bit is left
over. -/
theorem encode_groupBytes_two {a b : Nat} (ha : a < 64) (hb : b < 64) (hexact : b % 16 = 0) :
    encode (groupBytes [a, b]).1 = [a, b].map digit ++ [pad, pad] := by
  have hx := UInt8.toNat_ofNat_of_lt' (show a * 4 + b / 16 < 256 by omega)
  have h₁ : (a * 4 + b / 16) / 4 = a := by omega
  have h₂ : (a * 4 + b / 16) % 4 * 16 = b := by omega
  simp only [groupBytes, encode, hx, h₁, h₂, List.map_cons, List.map_nil, List.cons_append,
    List.nil_append]

/-! ## The last group

A full group could not be spelled otherwise. In the last one there are bits
that no byte uses, and pads that could be missing, so that it matters that the
reader asks for zeros and for all the pads. -/

/-- **What makes up a last group that is read**: digits, which are the
values of its bytes with no bit left over, and marks after them. -/
theorem decodeLast_cases {offset : Nat} {group b : Bytes} (hne : group ≠ [])
    (h : decodeLast offset group = .ok b) :
    ∃ vs : List Nat, ∃ marks : Nat, group = vs.map digit ++ List.replicate marks pad
      ∧ (∀ v ∈ vs, v < 64) ∧ 2 ≤ vs.length ∧ group.length % 4 = 0 ∧ groupBytes vs = (b, true) := by
  have hparts : group = group.takeWhile (· != pad) ++ group.dropWhile (· != pad) :=
    List.takeWhile_append_dropWhile.symm
  unfold decodeLast at h
  dsimp only at h
  generalize hds : group.takeWhile (· != pad) = ds at h hparts
  generalize hmarks : group.dropWhile (· != pad) = marks at h hparts
  cases hvalues : values offset ds with
  | error fault => simp [hvalues] at h
  | ok vs =>
    obtain ⟨hdigits, hall⟩ := eq_map_of_values hvalues
    have hlength : ds.length = vs.length := by rw [hdigits, List.length_map]
    simp only [hvalues] at h
    split_ifs at h with hstray hshort hwhole
    have htwo : 2 ≤ vs.length := by
      rw [← hlength]
      by_contra hlt
      exact hshort ⟨hne, by omega⟩
    -- anything but a mark after the first mark would have been reported
    have hpads : marks = List.replicate marks.length pad := by
      refine List.eq_replicate_length.2 fun x hx => ?_
      by_contra hpad
      have hany : marks.any (· != pad) = true := List.any_eq_true.2 ⟨x, hx, by simpa using hpad⟩
      exact hstray ⟨List.ne_nil_of_mem hx, Or.inr hany⟩
    -- there is a last digit, so that left over bits would have been reported
    obtain ⟨last, hlast⟩ : ∃ last, ds.getLast? = some last := by
      cases hlast : ds.getLast? with
      | none =>
        rw [List.getLast?_eq_none_iff.1 hlast] at hlength
        simp at hlength
        omega
      | some last => exact ⟨last, rfl⟩
    have hgroup : groupBytes vs = (b, true) := by
      cases hbytes : groupBytes vs with
      | mk bytes exact =>
        cases exact with
        | false => simp [hbytes, hlast] at h
        | true => simpa [hbytes] using h
    exact ⟨vs, marks.length, by rw [hparts, hdigits, ← hpads], hall, htwo,
      by simpa using hwhole, hgroup⟩

/-- **A last group that is read is the text of what is read.** -/
theorem eq_encode_of_decodeLast {offset : Nat} {group b : Bytes} (hlength : group.length ≤ 4)
    (h : decodeLast offset group = .ok b) : group = encode b := by
  by_cases hne : group = []
  · subst hne
    cases h
    rfl
  · obtain ⟨vs, marks, hgroup, hall, htwo, hwhole, hbytes⟩ := decodeLast_cases hne h
    have hfour : vs.length + marks = 4 := by
      have hsum : group.length = vs.length + marks := by rw [hgroup]; simp
      omega
    have hb : (groupBytes vs).1 = b := by rw [hbytes]
    have hexact : (groupBytes vs).2 = true := by rw [hbytes]
    rw [hgroup, ← hb]
    match vs, htwo, hall, hfour, hexact with
    | [x, y], _, hall, hfour, hexact =>
      obtain rfl : marks = 2 := Nat.add_left_cancel hfour
      simp only [List.forall_mem_cons] at hall
      exact (encode_groupBytes_two hall.1 hall.2.1 (by simpa [groupBytes] using hexact)).symm
    | [x, y, z], _, hall, hfour, hexact =>
      obtain rfl : marks = 1 := Nat.add_left_cancel hfour
      simp only [List.forall_mem_cons] at hall
      exact (encode_groupBytes_three hall.1 hall.2.1 hall.2.2.1
        (by simpa [groupBytes] using hexact)).symm
    | [x, y, z, w], _, hall, hfour, _ =>
      obtain rfl : marks = 0 := Nat.add_left_cancel hfour
      simp only [List.forall_mem_cons] at hall
      have htext := encode_groupBytes_four hall.1 hall.2.1 hall.2.2.1 hall.2.2.2.1 []
      rw [List.append_nil] at htext
      exact htext.symm
    | _ :: _ :: _ :: _ :: _ :: _, _, _, hfour, _ => simp at hfour; omega

/-! ## The whole text -/

theorem eq_encode_of_decodeFrom {offset : Nat} {text b : Bytes}
    (h : decodeFrom offset text = .ok b) : text = encode b := by
  -- on the groups that the reader takes; where it stops with a fault nothing was read
  induction offset, text using decodeFrom.induct generalizing b with
  | case1 offset x y z w e rest fault hvalues => simp [decodeFrom, hvalues] at h
  | case2 offset x y z w e rest vs hvalues fault hrest => simp [decodeFrom, hvalues, hrest] at h
  | case3 offset x y z w e rest vs hvalues bytes hrest ih =>
    simp only [decodeFrom, hvalues, hrest, Except.ok.injEq] at h
    obtain ⟨hdigits, hall⟩ := eq_map_of_values hvalues
    have hlength : vs.length = 4 := by
      rw [← List.length_map digit, ← hdigits]
      rfl
    obtain ⟨p, q, r, s, rfl⟩ := List.length_eq_four.1 hlength
    simp only [List.forall_mem_cons] at hall
    rw [← h, encode_groupBytes_four hall.1 hall.2.1 hall.2.2.1 hall.2.2.2.1, ← hdigits, ← ih hrest]
    rfl
  | case4 offset group hshort =>
    -- fewer than five bytes are left, so that this is the last group
    have hlength : group.length ≤ 4 := by
      rcases group with _ | ⟨x, _ | ⟨y, _ | ⟨z, _ | ⟨w, _ | ⟨e, rest⟩⟩⟩⟩⟩
      · simp
      · simp
      · simp
      · simp
      · simp
      · exact (hshort x y z w e rest rfl).elim
    have hlast : decodeFrom offset group = decodeLast offset group := by
      rw [decodeFrom]
      exact fun x y z w e rest hgroup => hshort x y z w e rest hgroup
    exact eq_encode_of_decodeLast hlength (hlast.symm.trans h)

/-- **A text is read if it is one that is written**, and as what it was
written for. -/
theorem decode_eq_ok_iff {text b : Bytes} : decode text = .ok b ↔ text = encode b := by
  refine ⟨fun h => ?_, fun h => h ▸ decode_encode b⟩
  unfold decode at h
  cases hlast : text.getLast? with
  | none =>
    rw [hlast] at h
    cases h
    exact List.getLast?_eq_none_iff.1 hlast
  | some z =>
    rw [hlast] at h
    dsimp only at h
    split_ifs at h
    exact eq_encode_of_decodeFrom h

/-! ## Texts set one after another -/

/-- **What the liberal reader reads** are texts that are written, one after
another. -/
theorem exists_of_decodeJoined? {text b : Bytes} (h : decodeJoined? text = some b) :
    ∃ parts : List Bytes, text = parts.flatMap encode ∧ parts.flatten = b := by
  induction text using decodeJoined?.induct generalizing b with
  | case1 =>
    cases h
    exact ⟨[], rfl, rfl⟩
  | case2 x y z w rest fault hlast => simp [decodeJoined?, hlast] at h
  | case3 x y z w rest bytes hlast ih =>
    simp only [decodeJoined?, hlast, Option.map_eq_some_iff] at h
    obtain ⟨more, hmore, rfl⟩ := h
    obtain ⟨parts, rfl, rfl⟩ := ih hmore
    refine ⟨bytes :: parts, ?_, rfl⟩
    rw [List.flatMap_cons, ← eq_encode_of_decodeLast (by simp) hlast]
    rfl
  | case4 text hnil hshort =>
    rw [decodeJoined?.eq_3 _ hnil hshort] at h
    cases h

/-- **No text is shorter than the one that is written**, however it is put
together. -/
theorem length_encode_le_of_decodeJoined? {text b : Bytes} (h : decodeJoined? text = some b) :
    (encode b).length ≤ text.length := by
  obtain ⟨parts, rfl, rfl⟩ := exists_of_decodeJoined? h
  clear h
  induction parts with
  | nil => rfl
  | cons part parts ih =>
    rw [length_encode] at ih
    rw [length_encode, List.flatten_cons, List.flatMap_cons, List.length_append,
      List.length_append, length_encode]
    omega

/-- `QR==`: the last digit sets a bit that no byte has. -/
example : decode [81, 82, 61, 61] = .error (.lastSymbol 82 1) := by decide

end CertAuthority.Text.Base64
