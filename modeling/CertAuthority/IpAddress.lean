import CertAuthority.Bytes

/-!
# Internet addresses

Addresses of both versions, with their byte form in certificates and their
text. The text of a version 6 address leaves out its longest run of zero
segments, the first of several, provided it is longer than one; an address
that embeds one of version 4 shows it in that version's notation.

`IpAddress.parse?` reads every text of an address, not only the one that
`IpAddress.text` writes: segments may have leading zeros, any run of zero
segments may be left out, and the last two segments of a version 6 address
may be written in the notation of version 4.
-/

namespace CertAuthority

/-- **An internet address.** -/
inductive IpAddress where
  /-- Version 4: four numbers. -/
  | v4 (a b c d : UInt8)
  /-- Version 6: eight segments. -/
  | v6 (segments : List UInt16) (eight : segments.length = 8)
  deriving DecidableEq

namespace IpAddress

/-! ## Bytes -/

/-- The two bytes of a segment. -/
def segmentBytes (s : UInt16) : Bytes :=
  [UInt8.ofNat (s.toNat / 256), UInt8.ofNat (s.toNat % 256)]

/-- **The byte form of an address**: four or sixteen bytes. -/
def bytes : IpAddress → Bytes
  | v4 a b c d => [a, b, c, d]
  | v6 segments _ => segments.flatMap segmentBytes

/-- The segments in a sequence of bytes, two bytes each. -/
def segmentsOf : Bytes → List UInt16
  | a :: b :: rest => UInt16.ofNat (a.toNat * 256 + b.toNat) :: segmentsOf rest
  | _ => []

/-- **The address with the given byte form**, if there are four or sixteen
bytes. -/
def ofBytes? : Bytes → Option IpAddress
  | [a, b, c, d] => some (v4 a b c d)
  | b =>
    if h : (segmentsOf b).length = 8 ∧ b.length = 16 then some (v6 (segmentsOf b) h.1) else none

/-! ## Printing -/

/-- The text of a version 4 address. -/
def dotted (a b c d : UInt8) : String :=
  ".".intercalate ([a, b, c, d].map fun x => toString x.toNat)

/-- A number in hexadecimal, without leading zeros. -/
def hexText (n : Nat) : String :=
  String.ofList (Nat.toDigits 16 n)

/-- Segments in hexadecimal, with colons between them. -/
def colons (segments : List UInt16) : String :=
  ":".intercalate (segments.map fun s => hexText s.toNat)

/-- A run of zero segments: where it starts and how long it is. -/
structure Run where
  /-- The index of its first segment. -/
  start : Nat
  /-- The number of its segments. -/
  length : Nat
  deriving DecidableEq, Repr

/-- The longest run of zeros in the segments from index `i` on, given the
longest one so far and the run that reaches up to `i`; the first of
several. -/
def longestRun (i : Nat) (longest current : Run) : List UInt16 → Run
  | [] => longest
  | s :: rest =>
    if s = 0 then
      let current : Run := if current.length = 0 then ⟨i, 1⟩ else ⟨current.start, current.length + 1⟩
      longestRun (i + 1) (if longest.length < current.length then current else longest) current rest
    else longestRun (i + 1) longest ⟨0, 0⟩ rest

/-- The text of a version 6 address. -/
def segmentsText (segments : List UInt16) : String :=
  match segments with
  | [0, 0, 0, 0, 0, 0xffff, g, h] =>
    "::ffff:" ++ dotted (UInt8.ofNat (g.toNat / 256)) (UInt8.ofNat (g.toNat % 256))
      (UInt8.ofNat (h.toNat / 256)) (UInt8.ofNat (h.toNat % 256))
  | _ =>
    let run := longestRun 0 ⟨0, 0⟩ ⟨0, 0⟩ segments
    if run.length ≤ 1 then colons segments
    else colons (segments.take run.start) ++ "::" ++ colons (segments.drop (run.start + run.length))

/-- **The text of an address.** -/
def text : IpAddress → String
  | v4 a b c d => dotted a b c d
  | v6 segments _ => segmentsText segments

/-! ## Parsing -/

/-- The value of a digit in the given base, of either case. -/
def digitValue? (base : Nat) (c : Char) : Option Nat :=
  (Bytes.hexValue? c).filter (· < base)

/-- Reads digits as long as there are any: how many there were, their
value, and the rest. -/
def readDigits (base : Nat) (count acc : Nat) : List Char → (Nat × Nat) × List Char
  | [] => ((count, acc), [])
  | c :: rest =>
    match digitValue? base c with
    | some d => readDigits base (count + 1) (acc * base + d) rest
    | none => ((count, acc), c :: rest)

/-- Reads a number of at most three decimal digits and below 256, without
leading zeros. -/
def readOctet? (s : List Char) : Option (UInt8 × List Char) :=
  let ((count, n), rest) := readDigits 10 0 0 s
  if count = 0 ∨ 3 < count ∨ 255 < n ∨ (1 < count ∧ s.head? = some '0') then none
  else some (UInt8.ofNat n, rest)

/-- Reads a segment of at most four hexadecimal digits. -/
def readSegment? (s : List Char) : Option (UInt16 × List Char) :=
  let ((count, n), rest) := readDigits 16 0 0 s
  if count = 0 ∨ 4 < count then none else some (UInt16.ofNat n, rest)

/-- What follows a mark, if the text begins with it. -/
def afterMark? (mark : Char) : List Char → Option (List Char)
  | [] => none
  | c :: rest => if c = mark then some rest else none

/-- Reads an address of version 4. -/
def readV4? (s : List Char) : Option ((UInt8 × UInt8 × UInt8 × UInt8) × List Char) := do
  let (a, s) ← readOctet? s
  let (b, s) ← readOctet? (← afterMark? '.' s)
  let (c, s) ← readOctet? (← afterMark? '.' s)
  let (d, s) ← readOctet? (← afterMark? '.' s)
  return ((a, b, c, d), s)

/-- **Reads at most `limit` segments** with colons between them, and says
whether the last two were written as an address of version 4. The colon
before the next segment is left unread when no segment follows it. -/
def readSegments (first : Bool) : (limit : Nat) → List Char → (List UInt16 × Bool) × List Char
  | 0, s => (([], false), s)
  | limit + 1, s =>
    match if first then some s else afterMark? ':' s with
    | none => (([], false), s)
    | some t =>
      match if limit = 0 then none else readV4? t with
      | some ((a, b, c, d), rest) =>
        (([UInt16.ofNat (a.toNat * 256 + b.toNat), UInt16.ofNat (c.toNat * 256 + d.toNat)], true),
          rest)
      | none =>
        match readSegment? t with
        | none => (([], false), s)
        | some (segment, rest) =>
          let ((segments, embedded), rest) := readSegments false limit rest
          ((segment :: segments, embedded), rest)

/-- Reads an address of version 6: eight segments, or fewer on both sides
of a double colon. -/
def readV6? (s : List Char) : Option (List UInt16 × List Char) :=
  match readSegments true 8 s with
  | ((front, embedded), rest) =>
    if front.length = 8 then some (front, rest)
    else if embedded then none
    else do
      let rest ← afterMark? ':' (← afterMark? ':' rest)
      let ((back, _), rest) := readSegments true (7 - front.length) rest
      return (front ++ List.replicate (8 - front.length - back.length) 0 ++ back, rest)

/-- **The address a text denotes.** -/
def parse? (text : String) : Option IpAddress :=
  match readV4? text.toList with
  | some ((a, b, c, d), []) => some (v4 a b c d)
  | some (_, _ :: _) => none
  | none =>
    match readV6? text.toList with
    | some (segments, []) => if h : segments.length = 8 then some (v6 segments h) else none
    | _ => none

end IpAddress

end CertAuthority
