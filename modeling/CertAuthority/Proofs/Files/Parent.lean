import CertAuthority.Proofs.Files.Names
import Mathlib.Data.List.DropRight

/-!
# The path above a path, and the name below it

The path above a path has all components but the last one
(`Path.components_of_parent?`), however many slashes and idle pieces there are
before and after that. If the last one is a name, the path is taken apart into
a directory and a name, and when these are put together again it is the same
path, if not spelled the same (`Path.sameAs_join_of_fileName?`).

That is what becomes of a path that a user gives for an export. It is taken
apart so that the name can be checked as all names are, and the file is then
written to the path that is put together again. A path that ends in a step up
has no name, and the top has none either; they are refused before anything is
asked.

To find the path above one, the idle pieces at the end are taken off, then a
piece, and then the idle ones in front of that. The first piece is never taken
off as idle: empty, it is the top, and a dot in that place is a component, and
the only one that a dot can be.
-/

namespace CertAuthority.Path

variable {p d : Path} {n : String}

theorem exists_component {piece : List Char} (h : isIdle piece = false) :
    ∃ c, component? piece = some c := by
  unfold component?
  rw [h, if_neg Bool.false_ne_true]
  split_ifs
  · exact ⟨_, rfl⟩
  · exact ⟨_, rfl⟩

/-- What is trimmed are the pieces after the first one. -/
theorem trimIdle_cons (first : List Char) (others : List (List Char)) :
    trimIdle (first :: others) = first :: others.rdropWhile isIdle := rfl

/-- **Pieces that lead nowhere** are no components. -/
theorem filterMap_rdropWhile (ps : List (List Char)) :
    (ps.rdropWhile isIdle).filterMap component? = ps.filterMap component? := by
  have hidle : (ps.rtakeWhile isIdle).filterMap component? = [] := by
    refine List.filterMap_eq_nil_iff.2 fun piece hpiece => ?_
    rw [component?, if_pos (List.mem_rtakeWhile_imp hpiece)]
  conv_rhs => rw [← List.rdropWhile_append_rtakeWhile (p := isIdle) (l := ps), List.filterMap_append, hidle]
  rw [List.append_nil]

/-- Where all pieces after the first one lead nowhere, there is one component. -/
theorem componentsOf_eq_singleton {s first : List Char} {others : List (List Char)}
    (hpieces : pieces s = first :: others) (hfirst : first ≠ [])
    (hothers : others.filterMap component? = []) : ∃ c, componentsOf s = [c] := by
  rw [componentsOf_of_pieces hpieces, hothers, if_neg hfirst]
  split_ifs with hdot
  · exact ⟨.current, rfl⟩
  · have hidle : isIdle first = false := by simp [isIdle, hdot, hfirst]
    obtain ⟨c, hc⟩ := exists_component hidle
    exact ⟨c, by rw [hc]; rfl⟩

section Last

variable {others before : List (List Char)} {last : List Char}

/-- Before the pieces that lead nowhere is one that leads somewhere. -/
theorem filterMap_of_rdropWhile (h : others.rdropWhile isIdle = before ++ [last]) :
    ∃ c, others.filterMap component?
      = (before.rdropWhile isIdle).filterMap component? ++ [c] := by
  have hidle : isIdle last = false := by
    have hnot := List.rdropWhile_last_not isIdle others (by rw [h]; simp)
    simpa [h] using hnot
  obtain ⟨c, hc⟩ := exists_component hidle
  refine ⟨c, ?_⟩
  rw [← filterMap_rdropWhile others, h, filterMap_rdropWhile, List.filterMap_append]
  simp [hc]

/-- What is left when that one is taken away too. -/
theorem isPrefix_of_rdropWhile (h : others.rdropWhile isIdle = before ++ [last]) :
    before.rdropWhile isIdle <+: others := by
  have hbefore : before <+: others.rdropWhile isIdle := by
    rw [h]
    exact List.prefix_append _ _
  exact (List.rdropWhile_prefix isIdle before).trans
    (hbefore.trans (List.rdropWhile_prefix isIdle others))

end Last

/-- **The path above a path** has all components but the last one. -/
theorem components_of_parent? (h : p.parent? = some d) :
    ∃ c, p.components = d.components ++ [c] := by
  unfold components
  match hpieces : pieces p.text.toList with
  | [] => exact absurd hpieces (pieces_ne_nil _)
  | first :: others =>
    unfold parent? at h
    rw [hpieces, trimIdle_cons] at h
    rcases List.eq_nil_or_concat (others.rdropWhile isIdle) with hnil | ⟨before, last, hlast⟩
    · -- There is one component, and nothing above it.
      have hothers := filterMap_rdropWhile others
      rw [hnil] at h hothers
      dsimp only at h
      split_ifs at h with hfirst
      cases h
      exact componentsOf_eq_singleton hpieces hfirst hothers.symm
    · rw [List.concat_eq_append] at hlast
      obtain ⟨c, hlater⟩ := filterMap_of_rdropWhile hlast
      have hne : others ≠ [] := by
        rintro rfl
        simp at hlater
      refine ⟨c, ?_⟩
      rw [hlast] at h
      split at h
      · cases h
      · rename_i hone
        simp at hone
      · rw [← List.cons_append, List.dropLast_concat, trimIdle_cons] at h
        split at h
        · rename_i htop
          cases h
          obtain ⟨rfl, hbefore⟩ := List.cons.inj htop
          rw [hbefore] at hlater
          rw [componentsOf_of_pieces hpieces, hlater, if_neg (by decide), if_pos rfl, if_neg hne]
          rfl
        · rename_i htop
          cases h
          have hhead : first :: before.rdropWhile isIdle <+: pieces p.text.toList := by
            rw [hpieces]
            exact (List.prefix_cons_inj first).2 (isPrefix_of_rdropWhile hlast)
          have habove := pieces_joinPieces_of_isPrefix hhead (List.cons_ne_nil _ _)
          refine componentsOf_concat habove hpieces hlater ?_
          rintro rfl hempty
          exact htop (by rw [hempty])

/-- Where there is nothing above, there is nothing, or the top of the file
system. -/
theorem components_of_parent?_eq_none (h : p.parent? = none) :
    p.components = [] ∨ p.components = [.root] := by
  unfold components
  match hpieces : pieces p.text.toList with
  | [] => exact absurd hpieces (pieces_ne_nil _)
  | first :: others =>
    have hothers := filterMap_rdropWhile others
    unfold parent? at h
    rw [hpieces, trimIdle_cons] at h
    split at h
    · rename_i hnil
      cases hnil
    · rename_i hone
      split_ifs at h with hfirst
      obtain ⟨rfl, hnone⟩ := List.cons.inj hone
      rw [hnone] at hothers
      rw [componentsOf_of_pieces hpieces, ← hothers, hfirst, if_neg (by decide), if_pos rfl]
      split_ifs
      · exact Or.inl rfl
      · exact Or.inr rfl
    · split at h
      · cases h
      · cases h

theorem fileName?_eq_some (h : p.fileName? = some n) :
    p.components.getLast? = some (.normal n) := by
  unfold fileName? at h
  split at h
  · rename_i name hlast
    cases h
    exact hlast
  · cases h

/-- The name of a path is a name. -/
theorem isNamePiece_of_fileName? (h : p.fileName? = some n) : IsNamePiece n.toList :=
  isNamePiece_of_mem_componentsOf (List.mem_of_getLast? (fileName?_eq_some h))

/-- **The last component of a path, in the directory before it**, is the same
path. -/
theorem sameAs_join_of_fileName? (h : p.fileName? = some n) (hn : IsNamePiece n.toList) :
    ((p.parent?.getD ⟨""⟩).join ⟨n⟩).SameAs p := by
  have hlast := fileName?_eq_some h
  rw [SameAs, components_join _ hn]
  cases hparent : p.parent? with
  | some d =>
    obtain ⟨c, hc⟩ := components_of_parent? hparent
    rw [hc, List.getLast?_concat] at hlast
    rw [hc, Option.some.inj hlast]
    rfl
  | none =>
    rcases components_of_parent?_eq_none hparent with hnil | hroot
    · rw [hnil] at hlast
      cases hlast
    · rw [hroot] at hlast
      cases hlast

end CertAuthority.Path
