import CertAuthority.Text.Blank
import Mathlib.Data.List.Basic
import Mathlib.Data.List.TakeWhile

/-!
# What stripping and squeezing leave

`strip` removes the blanks around a text and nothing else: a text that neither
begins nor ends with a blank is what is left of it, whatever blanks are put
around it (`strip_append`), and without blanks the text is the same before and
after (`squeeze_strip`). `squeeze` goes through a concatenation piece by piece
and leaves a text without blanks alone.

Both are used on the text of a block, whose markers are looked for at its two
ends and whose body may be broken into lines anywhere. That the ends are
stripped and the body is squeezed are the two ways in which layout does not
matter there.

Blanks are taken out of a text at its end, at both ends or everywhere, and the
readers of blocks differ in which of these they do. What is left is always the
rest in its order. So the readers can be compared by what comes of a text once
all its blanks are gone.
-/

namespace CertAuthority.Text

/-- Blanks before a text that begins with none are all that is dropped. -/
theorem dropWhile_isBlank_append {b s : List Char} (hb : ∀ c ∈ b, isBlank c = true)
    (hs : ∀ c ∈ s.head?, isBlank c = false) : (b ++ s).dropWhile isBlank = s := by
  rw [List.dropWhile_append_of_pos hb]
  cases s with
  | nil => rfl
  | cons c s =>
    have hc : isBlank c = false := hs c rfl
    rw [List.dropWhile_cons, hc]
    rfl

theorem stripStart_append {b s : List Char} (hb : ∀ c ∈ b, isBlank c = true)
    (hs : ∀ c ∈ s.head?, isBlank c = false) : stripStart (b ++ s) = s :=
  dropWhile_isBlank_append hb hs

/-- Blanks behind a text that ends with none are taken off its end. -/
theorem stripEnd_append {s b : List Char} (hb : ∀ c ∈ b, isBlank c = true)
    (hs : ∀ c ∈ s.getLast?, isBlank c = false) : stripEnd (s ++ b) = s := by
  have hb' : ∀ c ∈ b.reverse, isBlank c = true := fun c hc => hb c (List.mem_reverse.1 hc)
  have hs' : ∀ c ∈ s.reverse.head?, isBlank c = false := by rwa [List.head?_reverse]
  unfold stripEnd
  rw [List.reverse_append, dropWhile_isBlank_append hb' hs', List.reverse_reverse]

/-- **Stripping undoes putting blanks around a text** that neither begins nor
ends with one. -/
theorem strip_append {b s b' : List Char} (hb : ∀ c ∈ b, isBlank c = true)
    (hb' : ∀ c ∈ b', isBlank c = true) (hhead : ∀ c ∈ s.head?, isBlank c = false)
    (hlast : ∀ c ∈ s.getLast?, isBlank c = false) : strip (b ++ s ++ b') = s := by
  cases s with
  | nil =>
    have hall : ∀ c ∈ b ++ [] ++ b', isBlank c = true := by
      intro c hc
      rw [List.append_nil, List.mem_append] at hc
      exact hc.elim (hb c) (hb' c)
    have hstart : stripStart (b ++ [] ++ b') = [] := by
      simpa using stripStart_append hall (s := []) (by simp)
    rw [strip, hstart]
    rfl
  | cons c s =>
    have hstart : stripStart (b ++ (c :: s ++ b')) = c :: s ++ b' :=
      stripStart_append hb (by simpa using hhead)
    rw [strip, List.append_assoc, hstart, stripEnd_append hb' hlast]

/-- **What stripping takes away** are blanks, before and behind what is left. So
a text is its stripped form with blanks around it, and whatever is to be shown
of the one can be shown of the other. -/
theorem exists_append_strip (s : List Char) :
    ∃ b b', s = b ++ strip s ++ b' ∧ (∀ c ∈ b, isBlank c = true)
      ∧ ∀ c ∈ b', isBlank c = true := by
  refine ⟨s.takeWhile isBlank, ((stripStart s).reverse.takeWhile isBlank).reverse, ?_,
    fun c hc => List.mem_takeWhile_imp hc,
    fun c hc => List.mem_takeWhile_imp (List.mem_reverse.1 hc)⟩
  have hend : strip s ++ ((stripStart s).reverse.takeWhile isBlank).reverse = stripStart s := by
    rw [strip, stripEnd, ← List.reverse_append, List.takeWhile_append_dropWhile,
      List.reverse_reverse]
  rw [List.append_assoc, hend, stripStart, List.takeWhile_append_dropWhile]

theorem squeeze_append (s t : List Char) : squeeze (s ++ t) = squeeze s ++ squeeze t :=
  List.filter_append ..

/-- A text without blanks is left as it is. -/
theorem squeeze_eq_self {s : List Char} (h : ∀ c ∈ s, isBlank c = false) : squeeze s = s :=
  List.filter_eq_self.2 fun c hc => by rw [h c hc]; rfl

/-- Blanks that are dropped from the start are not missed by squeezing. -/
theorem squeeze_dropWhile_isBlank (s : List Char) : squeeze (s.dropWhile isBlank) = squeeze s := by
  induction s with
  | nil => rfl
  | cons c s ih =>
    rw [List.dropWhile_cons]
    split
    · rename_i hc
      rw [ih, squeeze, squeeze, List.filter_cons, hc]
      rfl
    · rfl

/-- It does not matter from which end a text is squeezed. -/
theorem squeeze_reverse (s : List Char) : squeeze s.reverse = (squeeze s).reverse :=
  List.filter_reverse

/-- Blanks that are taken off the end are not missed, either. -/
theorem squeeze_stripEnd (s : List Char) : squeeze (stripEnd s) = squeeze s := by
  rw [stripEnd, squeeze_reverse, squeeze_dropWhile_isBlank, squeeze_reverse, List.reverse_reverse]

/-- **Stripping takes away nothing but blanks**, so what is squeezed out of a
text is the same before and after. -/
theorem squeeze_strip (s : List Char) : squeeze (strip s) = squeeze s := by
  rw [strip, squeeze_stripEnd, stripStart, squeeze_dropWhile_isBlank]

end CertAuthority.Text
