import CertAuthority.Proofs.Pem.Bundle

/-!
# Where lines begin

Two texts set one after another have the lines of the one and then those of the
other if a line ends between them (`linesOf_append_of_endsLine`). If none does,
the last line of the first text and the first one of the second are one line.
Then no line begins where the second text does: every line begins with a
character of the first text, or is a line of the second one but not its first
(`mem_linesOf_append`).

That is what a reader that looks at the beginnings of lines does not see, and a
reader that looks at the text as a whole does.

Certificates are read in both ways, with a reader of blocks that goes by lines
and with one that looks for markers anywhere. To say when the two agree one
has to know which lines a text has whose parts are known: what stands before a
marker, the marker, and what is between two of them (`exists_first_line`).
-/

namespace CertAuthority.Pem

/-- **A text behind which a line begins**: it ends with the end of a line, or
there is nothing in it. -/
def EndsLine (s : List Char) : Prop := ∀ c ∈ s.getLast?, c = '\n'

theorem endsLine_nil : EndsLine [] := by simp [EndsLine]

/-- What comes before the end of a text does not matter. -/
theorem endsLine_append {s t : List Char} (ht : t ≠ []) : EndsLine (s ++ t) ↔ EndsLine t := by
  rw [EndsLine, EndsLine, List.getLast?_append_of_ne_nil s ht]

/-- **Behind the end of a line there are lines of their own.** -/
theorem linesOf_append_of_endsLine {s : List Char} (h : EndsLine s) (rest : List Char) :
    linesOf (s ++ rest) = linesOf s ++ linesOf rest := by
  rcases List.eq_nil_or_concat s with rfl | ⟨s, c, rfl⟩
  · rfl
  · obtain rfl : c = '\n' := h c (by simp)
    rw [List.concat_eq_append, List.append_assoc]
    exact linesOf_append_newline s rest

/-- A line that has not ended goes on with the first line behind it. -/
theorem linesOf_append_of_not_mem {s : List Char} (hs : '\n' ∉ s) (hne : s ≠ [])
    (rest : List Char) :
    linesOf (s ++ rest) = (s ++ (linesOf rest).headD []) :: (linesOf rest).tail := by
  induction s with
  | nil => exact absurd rfl hne
  | cons c s ih =>
    have hc : c ≠ '\n' := fun heq => hs (heq ▸ List.mem_cons_self)
    have hrest : '\n' ∉ s := fun hmem => hs (List.mem_cons_of_mem c hmem)
    rw [List.cons_append, linesOf.eq_3 _ _ (by simpa using hc)]
    by_cases hnil : s = []
    · subst hnil
      cases hlines : linesOf rest with
      | nil => simp [hlines]
      | cons line lines => simp [hlines]
    · rw [ih hrest hnil]
      rfl

/-- **Where the lines of a longer text begin**: in its first part, or where a
line of the second part begins. The first line of that part is among them only
if a line has ended before it. -/
theorem mem_linesOf_append {s rest line : List Char} (h : line ∈ linesOf (s ++ rest)) :
    (∃ c ∈ s, line.head? = some c)
      ∨ line ∈ linesOf rest ∧ (EndsLine s ∨ line ∈ (linesOf rest).tail) := by
  induction s with
  | nil => exact Or.inr ⟨h, Or.inl endsLine_nil⟩
  | cons c s ih =>
    have hfirst : line.head? = some c → ∃ c' ∈ c :: s, line.head? = some c' := fun hline =>
      ⟨c, List.mem_cons_self, hline⟩
    by_cases hc : c = '\n'
    · subst hc
      rw [List.cons_append, linesOf, List.mem_cons] at h
      rcases h with rfl | h
      · exact Or.inl (hfirst rfl)
      · rcases ih h with ⟨c', hc', hline⟩ | ⟨hmem, hends | htail⟩
        · exact Or.inl ⟨c', List.mem_cons_of_mem _ hc', hline⟩
        · refine Or.inr ⟨hmem, Or.inl ?_⟩
          by_cases hnil : s = []
          · simp [hnil, EndsLine]
          · exact (endsLine_append (s := ['\n']) hnil).2 hends
        · exact Or.inr ⟨hmem, Or.inr htail⟩
    · rw [List.cons_append, linesOf.eq_3 _ _ (by simpa using hc)] at h
      -- `c` is set before the first of the lines, so that only the others are as they were
      cases hlines : linesOf (s ++ rest) with
      | nil =>
        rw [hlines] at h
        obtain rfl := List.mem_singleton.1 h
        exact Or.inl (hfirst rfl)
      | cons first others =>
        rw [hlines] at h
        rcases List.mem_cons.1 h with rfl | h
        · exact Or.inl (hfirst rfl)
        · by_cases hnil : s = []
          · subst hnil
            rw [List.nil_append] at hlines
            rw [hlines]
            exact Or.inr ⟨List.mem_cons_of_mem _ h, Or.inr h⟩
          · rcases ih (hlines ▸ List.mem_cons_of_mem _ h) with ⟨c', hc', hline⟩ | ⟨hmem, hends⟩
            · exact Or.inl ⟨c', List.mem_cons_of_mem _ hc', hline⟩
            · refine Or.inr ⟨hmem, hends.imp_left fun hends => ?_⟩
              exact (endsLine_append (s := [c]) hnil).2 hends

/-- A line begins with a character of its text. -/
theorem exists_head_of_mem_linesOf {s line : List Char} (h : line ∈ linesOf s) :
    ∃ c ∈ s, line.head? = some c := by
  rw [← List.append_nil s] at h
  rcases mem_linesOf_append h with hline | ⟨hline, -⟩
  · exact hline
  · cases hline

/-- **The first end of a line in a text that ends a line.** -/
theorem exists_first_line {s : List Char} (h : s.getLast? = some '\n') :
    ∃ first lines, s = first ++ '\n' :: lines ∧ '\n' ∉ first ∧ EndsLine lines := by
  obtain ⟨first, lines, rfl, hfirst⟩ := List.eq_append_cons_of_mem (List.mem_of_getLast? h)
  refine ⟨first, lines, rfl, hfirst, fun c hc => ?_⟩
  have hlast : (first ++ '\n' :: lines).getLast? = some c := by
    rw [List.getLast?_append_cons, List.getLast?_cons_of_ne_nil (by rintro rfl; cases hc)]
    exact hc
  exact Option.some.inj (hlast.symm.trans h)

end CertAuthority.Pem
