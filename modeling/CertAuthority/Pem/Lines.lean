/-!
# Lines

A text as lines, each with its end. A line ends after a line feed; what
follows the last line feed is a line only if it is not empty.
-/

namespace CertAuthority.Pem

/-- **The lines of a text**, each with the line feed that ends it. -/
def linesOf : List Char → List (List Char)
  | [] => []
  | '\n' :: rest => ['\n'] :: linesOf rest
  | c :: rest =>
    match linesOf rest with
    | [] => [[c]]
    | line :: lines => (c :: line) :: lines

theorem flatten_linesOf (s : List Char) : (linesOf s).flatten = s := by
  induction s with
  | nil => rfl
  | cons c rest ih =>
    by_cases hc : c = '\n'
    · subst hc; simp [linesOf, ih]
    · rw [linesOf.eq_3 _ _ (by simpa using hc)]
      cases h : linesOf rest with
      | nil => rw [h] at ih; simp [← ih]
      | cons line lines => rw [h] at ih; simp [← ih]

/-- Whether a text begins with another. -/
def startsWith (start s : List Char) : Bool := start.isPrefixOf s

end CertAuthority.Pem
