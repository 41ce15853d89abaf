/-!
# Decimal numbers

Numbers as people write them on a command line or in the environment: one
decimal digit or more, of which leading zeros do not count. Digits of other
scripts are none.
-/

namespace CertAuthority.Text

/-- The value of a decimal digit. -/
def decimalDigit? (c : Char) : Option Nat :=
  if '0' ≤ c ∧ c ≤ '9' then some (c.toNat - 48) else none

/-- **The number that decimal digits denote**; there is at least one. -/
def decimal? (digits : List Char) : Option Nat :=
  if digits = [] then none
  else (digits.mapM decimalDigit?).map fun ds => ds.foldl (fun n d => n * 10 + d) 0

/-- The number that decimal digits denote, perhaps with a plus sign before
them. -/
def plusDecimal? : List Char → Option Nat
  | '+' :: digits => decimal? digits
  | digits => decimal? digits

end CertAuthority.Text
