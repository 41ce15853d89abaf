import CertAuthority.Der.Element

/-!
# Object identifiers

An object identifier is a path of numbers, its *arcs*. The first two share
the first byte of the content (`40 a + b`), and every later one is written
in groups of seven bits, all but the last marked by the high bit.

An identifier is kept as the bytes it was read from, because certificates
carry identifiers that are not well formed and two of them are the same
only if their bytes are. `Oid.text` prints the arcs where it can, and the
bytes where an arc is too long to be a number of sixty-four bits.
-/

namespace CertAuthority.Der

/-- **An object identifier**, as its content bytes. -/
structure Oid where
  /-- The content of the element. -/
  bytes : Bytes
  deriving DecidableEq, Repr

namespace Oid

/-- The groups of seven bits of an arc, most significant first, each but
the last with the high bit set; `more` says whether a group follows. -/
def arcGroups (more : Bool) (n : Nat) : Bytes :=
  let group := UInt8.ofNat (n % 128 + if more then 128 else 0)
  if _h : n < 128 then [group] else arcGroups true (n / 128) ++ [group]
  termination_by n

/-- **The identifier with the given arcs.** -/
def ofArcs : List Nat → Oid
  | a :: b :: rest => ⟨UInt8.ofNat (40 * a + b) :: rest.flatMap (arcGroups false)⟩
  | _ => ⟨[]⟩

/-- The arcs that follow the first byte. A last arc that is cut short
counts with the groups that are there. -/
def laterArcs (acc : Nat) (inside : Bool) : Bytes → List Nat
  | [] => if inside then [acc] else []
  | b :: rest =>
    let acc := acc * 128 + b.toNat % 128
    if b.toNat < 128 then acc :: laterArcs 0 false rest else laterArcs acc true rest

/-- The number of bytes of the longest arc in the bytes after the first
that is not cut short; `run` bytes of the current one are behind. -/
def longestArc (run : Nat) : Bytes → Nat
  | [] => 0
  | b :: rest =>
    if b.toNat < 128 then max (run + 1) (longestArc 0 rest) else longestArc (run + 1) rest

/-- The arcs of an identifier. The one of a lone zero byte is a single
arc. -/
def arcs (o : Oid) : List Nat :=
  match o.bytes with
  | [] => []
  | [0] => [0]
  | b :: rest => b.toNat / 40 :: b.toNat % 40 :: laterArcs 0 false rest

/-- **The text of an identifier**: its arcs with points between them, or
its bytes in hexadecimal if an arc needs more than sixty-four bits. -/
def text (o : Oid) : String :=
  if longestArc 0 o.bytes.tail * 7 > 64 then
    " ".intercalate (o.bytes.map fun b => String.ofList (Bytes.hexPair b))
  else ".".intercalate (o.arcs.map toString)

/-- Reads an identifier. Only the primitive form is asked for: the
position of the element says that it is an identifier. -/
def read? (b : Bytes) : Option (Oid × Bytes) := do
  let (e, rest) ← readElement? b
  if e.constructed then none else some (⟨e.content⟩, rest)

end Oid

example : Oid.ofArcs [1, 2, 840, 113549, 1, 1, 11]
    = ⟨[0x2a, 0x86, 0x48, 0x86, 0xf7, 0x0d, 0x01, 0x01, 0x0b]⟩ := by decide +kernel

end CertAuthority.Der
