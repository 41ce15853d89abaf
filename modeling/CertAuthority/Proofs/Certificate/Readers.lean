import CertAuthority.Proofs.Certificate.Frames
import CertAuthority.Proofs.Pem.Lines

/-!
# The two readers of one certificate

A text that is one certificate has two readers. The reader of a single
certificate looks at the text as a whole: it sets aside all blanks, and then
what is left is two markers and the digits between them. The reader of bundles
looks at lines: a marker counts at the beginning of its line only, the rest of
a first line is lost, and of the lines of the body only the blanks at their
ends are set aside.

So the second reader takes fewer texts than the first. `IsLaidOut` says which:
each marker begins a line, nothing but blanks is behind the first one on its
line, and inside the lines of the body there is no blank. On such a text the
readers agree, and on no other (`decodePemBundle_of_decodePem`).

The proof goes by where lines begin (`Pem.mem_linesOf_append`): there is no dash
in the text but in the two markers, and so no line but theirs can be one of a
marker. That the digits on the line of the first marker are missed, if there are
any, follows from their number: no text of the certificate's bytes is shorter
than the one between the markers.
-/

namespace CertAuthority.Certificate

open Text (isBlank squeeze stripEnd)

/-! ## The parts of a text

The reader of a single certificate strips the text, cuts off two markers and
squeezes what is between. So what it takes is told by the text between the
markers alone, once that has been found. -/

/-- **The parts of a text that is one block**: blanks, the first marker, what it
encloses with the last one, and blanks. -/
structure IsBlock (text : String) (before inside after : List Char) : Prop where
  /-- The text is made up of the parts and the markers. -/
  text_eq : text.toList
    = before ++ (beginCertificate.toList ++ (inside ++ (endCertificate.toList ++ after)))
  /-- What is before the first marker is blank. -/
  before : ∀ c ∈ before, isBlank c = true
  /-- What is behind the last marker is blank. -/
  after : ∀ c ∈ after, isBlank c = true

/-- What is left of a block without the blanks around it. -/
theorem IsBlock.strip_eq {text : String} {before inside after : List Char}
    (h : IsBlock text before inside after) :
    Text.strip text.toList = beginCertificate.toList ++ inside ++ endCertificate.toList := by
  have htext : text.toList
      = before ++ (beginCertificate.toList ++ inside ++ endCertificate.toList) ++ after := by
    rw [h.text_eq]
    simp only [List.append_assoc]
  rw [htext, Text.strip_append h.before h.after]
  · rw [List.append_assoc, List.head?_append, head?_beginCertificate]
    rintro x ⟨⟩
    decide
  · rw [List.getLast?_append, getLast?_endCertificate]
    rintro x ⟨⟩
    decide

/-- **What the reader of a single certificate takes is a block.** -/
theorem exists_isBlock_of_decodePem {text : String} {c : Certificate}
    (h : decodePem text = .ok c) : ∃ before inside after, IsBlock text before inside after := by
  obtain ⟨inside, hstrip, -, -⟩ := Certificate.decodePem_eq_ok_iff.1 h
  obtain ⟨before, after, htext, hbefore, hafter⟩ := Text.exists_append_strip text.toList
  refine ⟨before, inside, after, ?_, hbefore, hafter⟩
  rw [htext, hstrip]
  simp only [List.append_assoc]

/-- A text that is digits but for its blanks has no dash. -/
theorem dash_not_mem_of_squeeze {s : List Char} {der : Bytes} (h : squeeze s = Pem.digits der) :
    '-' ∉ s := by
  intro hdash
  refine Pem.dash_not_mem_digits der ?_
  rw [← h]
  exact List.mem_filter.2 ⟨hdash, by decide⟩

/-- **The reader of a single certificate** takes a block if its markers enclose
the digits, and blanks among them. -/
theorem IsBlock.decodePem_eq_ok_iff {text : String} {before inside after : List Char}
    (h : IsBlock text before inside after) {c : Certificate} :
    decodePem text = .ok c ↔ squeeze inside = Pem.digits c.der := by
  rw [Certificate.decodePem_eq_ok_iff]
  constructor
  · rintro ⟨body, hstrip, -, hdigits⟩
    rw [h.strip_eq, List.append_cancel_right_eq, List.append_cancel_left_eq] at hstrip
    rwa [hstrip]
  · intro hdigits
    refine ⟨inside, h.strip_eq, fun hdashes => ?_, hdigits⟩
    exact dash_not_mem_of_squeeze hdigits (hdashes.subset (by decide))

theorem dash_not_mem_of_isBlank {s : List Char} (h : ∀ c ∈ s, isBlank c = true) : '-' ∉ s :=
  fun hdash => absurd (h '-' hdash) (by decide)

/-! ## Lines of a block

There is no dash in the text except in the markers. A line that begins with a
dash, as the lines of markers do, must therefore begin at a marker or within
one; and the second of these cannot be, since no line ends within a marker. -/

/-- A line of a marker begins with a dash. -/
theorem head?_of_isFirstLine {line : List Char} (h : Pem.IsFirstLine line) :
    line.head? = some '-' := by
  obtain ⟨rest, rfl⟩ := h
  rfl

theorem head?_of_isLastLine {line : List Char} (h : Pem.IsLastLine line) :
    line.head? = some '-' := by
  obtain ⟨rest, rfl⟩ := h
  rfl

/-- **No marker begins a line of a text without a dash.** -/
theorem head?_ne_dash {s line : List Char} (hs : '-' ∉ s) (hline : line ∈ Pem.linesOf s) :
    line.head? ≠ some '-' := by
  obtain ⟨c, hc, heq⟩ := Pem.exists_head_of_mem_linesOf hline
  rw [heq, Ne, Option.some.injEq]
  rintro rfl
  exact hs hc

/-- The line of the last marker is none at which a block begins. -/
theorem not_isFirstLine_endCertificate (rest : List Char) :
    ¬ Pem.IsFirstLine (endCertificate.toList ++ rest) := by
  rw [← Pem.startsWith_begin_iff]
  exact Bool.false_ne_true

/-- The line of the first marker opens a certificate, whatever is behind the
marker. -/
theorem opens_beginCertificate (rest : List Char) : Opens (beginCertificate.toList ++ rest) := by
  have hbegin : beginCertificate.toList = "-----BEGIN CERTIFICATE".toList ++ '-' :: "----".toList := by
    decide +kernel
  have hdashes : Pem.dashes = '-' :: "----".toList := by decide +kernel
  refine ⟨"----".toList ++ rest, ?_, [], rest, ?_⟩
  · rw [hbegin, List.append_assoc, List.cons_append]
  · rw [hdashes, List.nil_append, List.cons_append]

/-- The line of the first marker goes on up to the first line end behind it. -/
theorem linesOf_beginCertificate (rest : List Char) :
    Pem.linesOf (beginCertificate.toList ++ rest)
      = (beginCertificate.toList ++ (Pem.linesOf rest).headD []) :: (Pem.linesOf rest).tail :=
  Pem.linesOf_append_of_not_mem (by decide) (by decide) rest

theorem linesOf_endCertificate (rest : List Char) :
    Pem.linesOf (endCertificate.toList ++ rest)
      = (endCertificate.toList ++ (Pem.linesOf rest).headD []) :: (Pem.linesOf rest).tail :=
  Pem.linesOf_append_of_not_mem (by decide) (by decide) rest

/-- **Behind the first marker only one line can begin with a dash**: that of the
last marker, if a line ends before it. -/
theorem eq_of_head?_dash {inside after line : List Char} (hinside : '-' ∉ inside)
    (hafter : '-' ∉ after)
    (hline : line ∈ Pem.linesOf (inside ++ (endCertificate.toList ++ after)))
    (hhead : line.head? = some '-') :
    Pem.EndsLine inside ∧ line = endCertificate.toList ++ (Pem.linesOf after).headD [] := by
  have hlate : line ∉ (Pem.linesOf after).tail := fun hmem =>
    head?_ne_dash hafter (List.mem_of_mem_tail hmem) hhead
  rcases Pem.mem_linesOf_append hline with ⟨c, hc, heq⟩ | ⟨hmem, hends⟩
  · obtain rfl : '-' = c := Option.some.inj (hhead.symm.trans heq)
    exact absurd hc hinside
  · rw [linesOf_endCertificate] at hmem hends
    exact ⟨hends.resolve_right hlate, (List.mem_cons.1 hmem).resolve_right hlate⟩

section

variable {text : String} {before inside after : List Char}

/-- **A first marker that is set in from the beginning of its line** is not
found. -/
theorem IsBlock.decodePemBundle_of_not_endsLine (h : IsBlock text before inside after)
    (hinside : '-' ∉ inside) (hbefore : ¬ Pem.EndsLine before) :
    decodePemBundle text = .error (.encoding .emptyBundle) := by
  refine decodePemBundle_eq_emptyBundle_iff.2 fun ⟨line, hline, hfirst⟩ => ?_
  rw [h.text_eq] at hline
  rcases Pem.mem_linesOf_append hline with ⟨c, hc, heq⟩ | ⟨-, hends⟩
  · obtain rfl : '-' = c := Option.some.inj ((head?_of_isFirstLine hfirst).symm.trans heq)
    exact dash_not_mem_of_isBlank h.before hc
  · have htail := hends.resolve_left hbefore
    rw [linesOf_beginCertificate, List.tail_cons] at htail
    obtain ⟨-, rfl⟩ := eq_of_head?_dash hinside (dash_not_mem_of_isBlank h.after)
      (List.mem_of_mem_tail htail) (head?_of_isFirstLine hfirst)
    exact not_isFirstLine_endCertificate _ hfirst

/-- The lines of a block whose first marker begins a line. -/
theorem IsBlock.linesOf_eq (h : IsBlock text before inside after) (hbefore : Pem.EndsLine before) :
    Pem.linesOf text.toList = Pem.linesOf before
      ++ (beginCertificate.toList
          ++ (Pem.linesOf (inside ++ (endCertificate.toList ++ after))).headD [])
        :: (Pem.linesOf (inside ++ (endCertificate.toList ++ after))).tail := by
  rw [h.text_eq, Pem.linesOf_append_of_endsLine hbefore, linesOf_beginCertificate]

/-- No block begins before the first marker. -/
theorem IsBlock.not_isFirstLine (h : IsBlock text before inside after) :
    ∀ line ∈ Pem.linesOf before, ¬ Pem.IsFirstLine line := fun _ hline hfirst =>
  head?_ne_dash (dash_not_mem_of_isBlank h.before) hline (head?_of_isFirstLine hfirst)

/-- **What is read in a block whose first marker begins a line** goes by the
body behind that line. -/
theorem IsBlock.readBlock_eq (h : IsBlock text before inside after)
    (hbefore : Pem.EndsLine before) :
    Pem.readBlock (Pem.linesOf text.toList)
      = (Pem.readBody (Pem.linesOf (inside ++ (endCertificate.toList ++ after))).tail).elim
          (.error .incomplete) fun read =>
            (Text.Base64.decodeJoined? (Text.Utf8.encode read.1)).elim (.error .base64)
              fun contents => .ok (some (⟨pemLabel, contents⟩, read.2)) := by
  have hfirst (rest : List Char) : Pem.IsFirstLine (beginCertificate.toList ++ rest) :=
    List.IsPrefix.trans (by decide +kernel) (List.prefix_append _ rest)
  rw [h.linesOf_eq hbefore,
    Pem.readBlock_append_of_none (Pem.readBlock_eq_none_iff.2 h.not_isFirstLine), Pem.readBlock,
    if_pos (Pem.startsWith_begin_iff.2 (hfirst _)),
    labelOf?_eq_pemLabel_iff.2 (opens_beginCertificate _)]
  cases Pem.readBody (Pem.linesOf (inside ++ (endCertificate.toList ++ after))).tail with
  | none => rfl
  | some read =>
    cases hcontents : Text.Base64.decodeJoined? (Text.Utf8.encode read.1) with
    | none => simp only [hcontents, Option.elim_some, Option.elim_none]
    | some contents => simp only [hcontents, Option.elim_some, String.ofList_toList]

/-- A block that cannot be read is the fault of the bundle. -/
theorem decodePemBundle_of_fault {fault : BlockFault}
    (h : Pem.readBlock (Pem.linesOf text.toList) = .error fault) :
    decodePemBundle text = .error (.encoding (.block fault)) :=
  decodePemBundle_eq_error_iff.2 (.inl (Pem.readBlocks_of_error _ ofBlock h))

/-- **A last marker that does not begin a line** does not end the block. -/
theorem IsBlock.decodePemBundle_of_getLast?_ne (h : IsBlock text before inside after)
    (hinside : '-' ∉ inside) (hbefore : Pem.EndsLine before)
    (hlast : inside.getLast? ≠ some '\n') :
    decodePemBundle text = .error (.encoding (.block .incomplete)) := by
  have hbody : Pem.readBody (Pem.linesOf (inside ++ (endCertificate.toList ++ after))).tail
      = none := by
    refine Pem.readBody_eq_none fun line hline hends => ?_
    have hafter := dash_not_mem_of_isBlank h.after
    obtain ⟨hinsideEnds, -⟩ := eq_of_head?_dash hinside hafter (List.mem_of_mem_tail hline)
      (head?_of_isLastLine hends)
    -- nothing is between the markers then, and they are on one line
    have hnil : inside = [] := by
      by_contra hne
      obtain ⟨c, hc⟩ := Option.ne_none_iff_exists'.1 (mt List.getLast?_eq_none_iff.1 hne)
      exact hlast (hc.trans (congrArg some (hinsideEnds c hc)))
    rw [hnil, List.nil_append, linesOf_endCertificate, List.tail_cons] at hline
    exact head?_ne_dash hafter (List.mem_of_mem_tail hline) (head?_of_isLastLine hends)
  exact decodePemBundle_of_fault (by rw [h.readBlock_eq hbefore, hbody, Option.elim_none])

variable {first lines : List Char}

/-- **If each marker begins a line**, the body that is read are the lines
between the line of the first marker and that of the last. -/
theorem readBody_inside (hinside : '-' ∉ first ++ '\n' :: lines) (hfirst : '\n' ∉ first)
    (hlines : Pem.EndsLine lines) (after : List Char) :
    Pem.readBody (Pem.linesOf (first ++ '\n' :: lines ++ (endCertificate.toList ++ after))).tail
      = some ((Pem.linesOf lines).flatMap stripEnd, (Pem.linesOf after).tail) := by
  rw [List.append_assoc, List.cons_append, Pem.linesOf_append hfirst, List.tail_cons,
    Pem.linesOf_append_of_endsLine hlines, linesOf_endCertificate, Pem.readBody_eq_some_iff]
  refine ⟨Pem.linesOf lines, _, rfl, fun line hline hends => ?_, ?_, rfl⟩
  · have hdash : '-' ∉ lines := fun hmem =>
      hinside (List.mem_append_right _ (List.mem_cons_of_mem _ hmem))
    exact head?_ne_dash hdash hline (head?_of_isLastLine hends)
  · exact List.IsPrefix.trans (by decide +kernel) (List.prefix_append _ _)

/-- No block begins behind the last marker. -/
theorem IsBlock.readBlock_after (h : IsBlock text before inside after) :
    Pem.readBlock (Pem.linesOf after).tail = .ok none := by
  refine Pem.readBlock_eq_none_iff.2 fun line hline hfirst => ?_
  exact head?_ne_dash (dash_not_mem_of_isBlank h.after) (List.mem_of_mem_tail hline)
    (head?_of_isFirstLine hfirst)

/-- **What such a text is read as** goes by the digits in these lines. -/
theorem IsBlock.decodePemBundle_eq_ok_iff
    (h : IsBlock text before (first ++ '\n' :: lines) after)
    (hinside : '-' ∉ first ++ '\n' :: lines) (hbefore : Pem.EndsLine before)
    (hfirst : '\n' ∉ first) (hlines : Pem.EndsLine lines) {c : Certificate} :
    decodePemBundle text = .ok [c] ↔
      Text.Base64.decodeJoined? (Text.Utf8.encode ((Pem.linesOf lines).flatMap stripEnd))
        = some c.der := by
  have hblock := h.readBlock_eq hbefore
  rw [readBody_inside hinside hfirst hlines, Option.elim_some] at hblock
  cases hcontents : Text.Base64.decodeJoined?
      (Text.Utf8.encode ((Pem.linesOf lines).flatMap stripEnd)) with
  | none =>
    rw [hcontents, Option.elim_none] at hblock
    rw [decodePemBundle_of_fault hblock]
    simp
  | some contents =>
    rw [hcontents, Option.elim_some] at hblock
    have hread : ofBlock ⟨pemLabel, contents⟩ = ofDer contents := if_neg (by simp)
    rw [Certificate.decodePemBundle_eq_ok_iff, and_iff_left (List.cons_ne_nil c []), readLines,
      Pem.readBlocks_of_some _ ofBlock hblock, Pem.readBlocks_of_none _ ofBlock h.readBlock_after,
      hread, Option.some.injEq, eq_comm (a := contents), ← ofDer_eq_ok_iff]
    cases ofDer contents with
    | error e => simp [bind, Except.bind]
    | ok c' => simp [bind, Except.bind, pure, Except.pure]

end

/-! ## The digits that are read

The reader of bundles reads base64 liberally, several texts one after another.
What it reads are still digits without blanks, and the digits of the bytes in
one piece are the shortest way to write them. -/

/-- **What the liberal reader of base64 reads** are digits, of one byte string
after another. -/
theorem exists_digits_of_decodeJoined? {s : List Char} {der : Bytes}
    (h : Text.Base64.decodeJoined? (Text.Utf8.encode s) = some der) :
    ∃ parts : List Bytes, s = parts.flatMap Pem.digits := by
  obtain ⟨parts, hparts, -⟩ := Text.Base64.exists_of_decodeJoined? h
  refine ⟨parts, Text.Utf8.encode_injective ?_⟩
  rw [hparts]
  clear hparts h
  induction parts with
  | nil => rfl
  | cons part parts ih =>
    rw [List.flatMap_cons, List.flatMap_cons, Text.Utf8.encode_append, Pem.encode_digits, ih]

/-- There are no blanks in what it reads. -/
theorem not_isBlank_of_decodeJoined? {s : List Char} {der : Bytes}
    (h : Text.Base64.decodeJoined? (Text.Utf8.encode s) = some der) :
    ∀ c ∈ s, isBlank c = false := by
  obtain ⟨parts, rfl⟩ := exists_digits_of_decodeJoined? h
  intro c hc
  obtain ⟨part, -, hmem⟩ := List.mem_flatMap.1 hc
  exact Pem.not_isBlank_of_mem_digits hmem

/-- And there are no fewer characters in it than are written. -/
theorem length_digits_le_of_decodeJoined? {s : List Char} {der : Bytes}
    (h : Text.Base64.decodeJoined? (Text.Utf8.encode s) = some der) :
    (Pem.digits der).length ≤ s.length := by
  have hascii : ∀ c ∈ s, c.toNat < 128 := by
    obtain ⟨parts, rfl⟩ := exists_digits_of_decodeJoined? h
    intro c hc
    obtain ⟨part, -, hmem⟩ := List.mem_flatMap.1 hc
    obtain ⟨b, ⟨-, hhigh, -⟩, hcb⟩ := Pem.exists_of_mem_digits hmem
    omega
  calc (Pem.digits der).length
      = (Text.Base64.encode der).length := List.length_map _
    _ ≤ (Text.Utf8.encode s).length := Text.Base64.length_encode_le_of_decodeJoined? h
    _ = s.length := by rw [Text.Utf8.encode_eq_map hascii, List.length_map]

/-- The blanks of a text are those of its lines. -/
theorem flatMap_squeeze_linesOf (s : List Char) :
    (Pem.linesOf s).flatMap squeeze = squeeze s := by
  conv_rhs => rw [← Pem.flatten_linesOf s]
  rw [squeeze, List.filter_flatten, List.flatMap_def]
  rfl

/-- What blanks are set aside at the ends of lines are none of the others. -/
theorem squeeze_flatMap_stripEnd (lines : List (List Char)) :
    squeeze (lines.flatMap stripEnd) = lines.flatMap squeeze := by
  induction lines with
  | nil => rfl
  | cons line lines ih =>
    rw [List.flatMap_cons, List.flatMap_cons, Text.squeeze_append, Text.squeeze_stripEnd, ih]

/-! ## Where the readers agree

If the lines of the body are read as the certificate, no digit can be missing
from them, for there are no fewer digits in them than between the markers. So
the line of the first marker has none, and blanks stand only where they are
stripped. -/

/-- **A text of one certificate, laid out in lines.** Each marker begins a line;
on the line of the first there is nothing else, and the lines between the two
have blanks at their ends only. -/
def IsLaidOut (text : String) : Prop :=
  ∃ before blanks lines after, IsBlock text before (blanks ++ '\n' :: lines) after
    ∧ Pem.EndsLine before
    ∧ ('\n' ∉ blanks ∧ ∀ c ∈ blanks, isBlank c = true)
    ∧ Pem.EndsLine lines
    ∧ ∀ line ∈ Pem.linesOf lines, squeeze line = stripEnd line

/-- **The reader of bundles takes what is laid out in lines.** -/
theorem decodePemBundle_of_isLaidOut {text : String} {c : Certificate}
    (hc : decodePem text = .ok c) (h : IsLaidOut text) : decodePemBundle text = .ok [c] := by
  obtain ⟨before, blanks, lines, after, hblock, hbefore, ⟨hnewline, hblanks⟩, hends, hlines⟩ := h
  have hdigits := hblock.decodePem_eq_ok_iff.1 hc
  refine (hblock.decodePemBundle_eq_ok_iff (dash_not_mem_of_squeeze hdigits) hbefore hnewline
    hends).2 ?_
  have hnone : squeeze (blanks ++ ['\n']) = [] := by
    refine List.filter_eq_nil_iff.2 fun c hc => ?_
    rcases List.mem_append.1 hc with hmem | hmem
    · simp [hblanks c hmem]
    · rw [List.mem_singleton.1 hmem]
      decide
  have hbody : (Pem.linesOf lines).flatMap stripEnd = Pem.digits c.der := by
    calc (Pem.linesOf lines).flatMap stripEnd
        = (Pem.linesOf lines).flatMap squeeze := List.flatMap_congr fun line hline =>
          (hlines line hline).symm
      _ = squeeze lines := flatMap_squeeze_linesOf lines
      _ = squeeze (blanks ++ ['\n']) ++ squeeze lines := by rw [hnone, List.nil_append]
      _ = squeeze (blanks ++ '\n' :: lines) := by
          rw [← Text.squeeze_append, List.append_assoc]
          rfl
      _ = Pem.digits c.der := hdigits
  rw [hbody, Pem.encode_digits, Text.Base64.decodeJoined?_encode]

/-- **All digits are in the lines of the body, and no blank is** but at the ends
of lines, if they are read as the bytes that are between the markers. -/
theorem body_of_decodeJoined? {first lines : List Char} {der : Bytes}
    (hdigits : squeeze (first ++ '\n' :: lines) = Pem.digits der)
    (hread : Text.Base64.decodeJoined? (Text.Utf8.encode ((Pem.linesOf lines).flatMap stripEnd))
      = some der) :
    (∀ c ∈ first, isBlank c = true)
      ∧ ∀ line ∈ Pem.linesOf lines, squeeze line = stripEnd line := by
  have hclear := not_isBlank_of_decodeJoined? hread
  have hbody : (Pem.linesOf lines).flatMap stripEnd = squeeze lines := by
    rw [← Text.squeeze_eq_self hclear, squeeze_flatMap_stripEnd, flatMap_squeeze_linesOf]
  have hlength : (squeeze first).length + (squeeze lines).length ≤ (squeeze lines).length := by
    have hle := length_digits_le_of_decodeJoined? hread
    rw [hbody, ← hdigits, Text.squeeze_append, List.length_append] at hle
    exact hle
  have hfirst : squeeze first = [] := List.length_eq_zero_iff.1 (by omega)
  refine ⟨fun c hc => ?_, fun line hline => ?_⟩
  · simpa using List.filter_eq_nil_iff.1 hfirst c hc
  · rw [← Text.squeeze_stripEnd]
    exact Text.squeeze_eq_self fun c hc => hclear c (List.mem_flatMap.2 ⟨line, hline, hc⟩)

/-- **The two readers of one certificate.** A text that is read as a single
certificate is read as a bundle of it exactly if it is laid out in lines. If the
first marker does not begin a line, then no block is found in it; if the last
one does not, the block is not ended; and if there is a blank inside a line of
the body, then its digits cannot be read. -/
theorem decodePemBundle_of_decodePem {text : String} {c : Certificate}
    (h : decodePem text = .ok c) :
    (decodePemBundle text = .ok [c] ↔ IsLaidOut text)
      ∧ ∀ before inside after, IsBlock text before inside after →
        (¬ Pem.EndsLine before → decodePemBundle text = .error (.encoding .emptyBundle))
          ∧ (Pem.EndsLine before → inside.getLast? ≠ some '\n' →
            decodePemBundle text = .error (.encoding (.block .incomplete)))
          ∧ ∀ first lines, inside = first ++ '\n' :: lines → Pem.EndsLine before →
            '\n' ∉ first → Pem.EndsLine lines →
            (∃ line ∈ Pem.linesOf lines, squeeze line ≠ stripEnd line) →
            decodePemBundle text = .error (.encoding (.block .base64)) := by
  refine ⟨⟨fun hbundle => ?_, decodePemBundle_of_isLaidOut h⟩, fun before inside after hblock => ?_⟩
  -- A text that is read as a bundle is laid out, since any other layout has an error of its
  -- own.
  · obtain ⟨before, inside, after, hblock⟩ := exists_isBlock_of_decodePem h
    have hdigits := hblock.decodePem_eq_ok_iff.1 h
    have hinside := dash_not_mem_of_squeeze hdigits
    have hbefore : Pem.EndsLine before := by
      by_contra hnot
      rw [hblock.decodePemBundle_of_not_endsLine hinside hnot] at hbundle
      cases hbundle
    have hlast : inside.getLast? = some '\n' := by
      by_contra hnot
      rw [hblock.decodePemBundle_of_getLast?_ne hinside hbefore hnot] at hbundle
      cases hbundle
    obtain ⟨first, lines, rfl, hfirst, hlines⟩ := Pem.exists_first_line hlast
    have hread := (hblock.decodePemBundle_eq_ok_iff hinside hbefore hfirst hlines).1 hbundle
    obtain ⟨hblanks, hbody⟩ := body_of_decodeJoined? hdigits hread
    exact ⟨before, first, lines, after, hblock, hbefore, ⟨hfirst, hblanks⟩, hlines, hbody⟩
  · have hinside := dash_not_mem_of_squeeze (hblock.decodePem_eq_ok_iff.1 h)
    refine ⟨hblock.decodePemBundle_of_not_endsLine hinside,
      hblock.decodePemBundle_of_getLast?_ne hinside, ?_⟩
    rintro first lines rfl hbefore hfirst hlines ⟨line, hline, hne⟩
    refine decodePemBundle_of_fault ?_
    have hunread : Text.Base64.decodeJoined?
        (Text.Utf8.encode ((Pem.linesOf lines).flatMap stripEnd)) = none := by
      refine Option.eq_none_iff_forall_ne_some.2 fun der hread => hne ?_
      rw [← Text.squeeze_stripEnd]
      exact Text.squeeze_eq_self fun c hc =>
        not_isBlank_of_decodeJoined? hread c (List.mem_flatMap.2 ⟨line, hline, hc⟩)
    rw [hblock.readBlock_eq hbefore, readBody_inside hinside hfirst hlines, Option.elim_some,
      hunread, Option.elim_none]

/-- **A text that is written is laid out in lines**: the readers agree on it. -/
theorem isLaidOut_small : ∃ c, ofDer (smallDer [authorityExtension]) = .ok c
    ∧ decodePem c.encodePem = .ok c ∧ IsLaidOut c.encodePem := by
  obtain ⟨c, hc⟩ := exists_ofDer_small
  have hsingle : encodePemBundle [c] = c.encodePem := by simp [encodePemBundle, String.join]
  have hbundle := decodePemBundle_encodePemBundle c []
  rw [hsingle] at hbundle
  exact ⟨c, hc, decodePem_encodePem c,
    (decodePemBundle_of_decodePem (decodePem_encodePem c)).1.1 hbundle⟩

/-- The text of a byte string with everything on one line. -/
def oneLine (der : Bytes) : String :=
  beginCertificate ++ String.ofList (Pem.digits der) ++ endCertificate

/-- **A certificate on one line**, and one that is set in by a space: both are
read by the reader of a single certificate only. -/
theorem not_decodePemBundle_oneLine : ∃ c, ofDer (smallDer [authorityExtension]) = .ok c
    ∧ (decodePem (oneLine (smallDer [authorityExtension])) = .ok c
      ∧ decodePemBundle (oneLine (smallDer [authorityExtension]))
        = .error (.encoding (.block .incomplete)))
    ∧ decodePem (" " ++ oneLine (smallDer [authorityExtension])) = .ok c
      ∧ decodePemBundle (" " ++ oneLine (smallDer [authorityExtension]))
        = .error (.encoding .emptyBundle) := by
  obtain ⟨c, hc⟩ := exists_ofDer_small
  rw [← ofDer_eq_ok_iff.1 hc]
  have hdigits : squeeze (Pem.digits c.der) = Pem.digits c.der :=
    Text.squeeze_eq_self fun x hx => Pem.not_isBlank_of_mem_digits hx
  have hdash := Pem.dash_not_mem_digits c.der
  have hline : IsBlock (oneLine c.der) [] (Pem.digits c.der) [] :=
    ⟨by simp [oneLine, String.toList_append], by simp, by simp⟩
  have hspace : IsBlock (" " ++ oneLine c.der) [' '] (Pem.digits c.der) [] :=
    ⟨by simp [oneLine, String.toList_append], by simp [isBlank], by simp⟩
  refine ⟨c, ofDer_der' c, ⟨hline.decodePem_eq_ok_iff.2 hdigits,
    hline.decodePemBundle_of_getLast?_ne hdash Pem.endsLine_nil fun hlast => ?_⟩,
    hspace.decodePem_eq_ok_iff.2 hdigits,
    hspace.decodePemBundle_of_not_endsLine hdash fun hends => ?_⟩
  · exact Pem.newline_not_mem_digits c.der (List.mem_of_getLast? hlast)
  · exact absurd (hends ' ' rfl) (by decide)

end CertAuthority.Certificate
