/-!
# Blank characters

Text that people paste around is read with its blanks set aside: a
certificate may be indented, wrapped at any column, or framed by empty
lines. Blank means the `White_Space` property of Unicode, which core's
`Char.isWhitespace` covers only in part (it leaves out the vertical tab,
the form feed and everything beyond ASCII).

The operations are on lists of characters: `strip` removes blanks at both
ends, `stripEnd` at the end, `squeeze` everywhere.
-/

namespace CertAuthority.Text

/-- **A blank character**: one with the property `White_Space`. -/
def isBlank (c : Char) : Bool :=
  let n := c.toNat
  (0x09 ≤ n && n ≤ 0x0d) || n == 0x20 || n == 0x85 || n == 0xa0 || n == 0x1680
    || (0x2000 ≤ n && n ≤ 0x200a) || n == 0x2028 || n == 0x2029 || n == 0x202f
    || n == 0x205f || n == 0x3000

/-- The text without the blanks at its beginning. -/
def stripStart (s : List Char) : List Char :=
  s.dropWhile isBlank

/-- The text without the blanks at its end. -/
def stripEnd (s : List Char) : List Char :=
  (s.reverse.dropWhile isBlank).reverse

/-- **The text without the blanks at either end.** -/
def strip (s : List Char) : List Char :=
  stripEnd (stripStart s)

/-- The text without any blank. -/
def squeeze (s : List Char) : List Char :=
  s.filter (fun c => !isBlank c)

/-- A text all of whose characters are blank; the empty text is one. -/
def isBlankText (s : String) : Bool :=
  s.toList.all isBlank

end CertAuthority.Text
