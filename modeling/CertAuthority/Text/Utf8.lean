import CertAuthority.Bytes

/-!
# UTF-8

Files hold bytes and everything above them is text. `encode` is the UTF-8
form of a text; `decode` reads a byte string back, and on the first
sequence that is not well formed says where it starts and how many bytes
of it could still have begun a character, the two numbers an operator
needs to find the damage in a file.

A sequence is well formed when it is the shortest one for its code point
and the code point is a Unicode scalar value; `Lead` carries these
conditions as the range allowed for the byte after the first.
-/

namespace CertAuthority.Text.Utf8

/-- **Why a byte string is not UTF-8**, with the index of the first byte
of the offending sequence. -/
inductive Fault where
  /-- The `length` bytes from `start` on begin no character. -/
  | malformed (start length : Nat)
  /-- The byte string ends inside the character that begins at `start`. -/
  | truncated (start : Nat)
  deriving DecidableEq, Repr

/-- The wording of a fault. -/
def Fault.message : Fault → String
  | .malformed start length =>
    "invalid utf-8 sequence of " ++ toString length ++ " bytes from index " ++ toString start
  | .truncated start => "incomplete utf-8 byte sequence from index " ++ toString start

/-- **What a first byte announces**: how many bytes follow it, the range
of the first of these, and the bits it contributes to the code point. -/
structure Lead where
  /-- The number of bytes that follow. -/
  following : Nat
  /-- The least value of the next byte. -/
  low : Nat
  /-- The greatest value of the next byte. -/
  high : Nat
  /-- The bits of the code point in the first byte. -/
  bits : Nat

/-- What a byte announces as the first of a character, if anything. -/
def lead? (b : UInt8) : Option Lead :=
  let n := b.toNat
  if n < 0x80 then some ⟨0, 0, 0, n⟩
  else if n < 0xc2 then none
  else if n < 0xe0 then some ⟨1, 0x80, 0xbf, n - 0xc0⟩
  else if n < 0xf0 then
    some ⟨2, if n = 0xe0 then 0xa0 else 0x80, if n = 0xed then 0x9f else 0xbf, n - 0xe0⟩
  else if n < 0xf5 then
    some ⟨3, if n = 0xf0 then 0x90 else 0x80, if n = 0xf4 then 0x8f else 0xbf, n - 0xf0⟩
  else none

/-- Reads the bytes after the first: `seen` bytes of the character that
began at `start` are behind, `left` are to come, the next one between `low`
and `high`. -/
def continuation (start seen : Nat) :
    (left low high bits : Nat) → Bytes → Except Fault (Nat × Bytes)
  | 0, _, _, bits, rest => .ok (bits, rest)
  | _ + 1, _, _, _, [] => .error (.truncated start)
  | left + 1, low, high, bits, b :: rest =>
    if low ≤ b.toNat ∧ b.toNat ≤ high then
      continuation start (seen + 1) left 0x80 0xbf (bits * 64 + b.toNat % 64) rest
    else .error (.malformed start seen)

theorem length_continuation_le {start seen left low high bits : Nat} {b : Bytes} {n : Nat}
    {rest : Bytes} (h : continuation start seen left low high bits b = .ok (n, rest)) :
    rest.length ≤ b.length := by
  induction left generalizing seen low high bits b with
  | zero => simp only [continuation, Except.ok.injEq, Prod.mk.injEq] at h; simp [h.2]
  | succ left ih =>
    cases b with
    | nil => simp [continuation] at h
    | cons c b =>
      simp only [continuation] at h
      split at h
      · exact Nat.le_succ_of_le (ih h)
      · simp at h

/-- Reads the characters of a byte string whose first byte has the given
index. -/
def decodeFrom (start : Nat) : Bytes → Except Fault (List Char)
  | [] => .ok []
  | b :: rest =>
    match lead? b with
    | none => .error (.malformed start 1)
    | some l =>
      match _h : continuation start 1 l.following l.low l.high l.bits rest with
      | .error fault => .error fault
      | .ok (code, rest') =>
        match decodeFrom (start + 1 + l.following) rest' with
        | .error fault => .error fault
        | .ok chars => .ok (Char.ofNat code :: chars)
  termination_by b => b.length
  decreasing_by
    have := length_continuation_le _h
    simp only [List.length_cons]
    omega

/-- **The text a byte string holds**, or where it stops being UTF-8. -/
def decode (b : Bytes) : Except Fault (List Char) :=
  decodeFrom 0 b

/-- **The UTF-8 form of a text.** -/
def encode (s : List Char) : Bytes :=
  s.flatMap String.utf8EncodeChar

/-- The text a byte string holds, if it is UTF-8. -/
def decode? (b : Bytes) : Option String :=
  match decode b with
  | .ok chars => some (String.ofList chars)
  | .error _ => none

@[simp] theorem encode_nil : encode [] = [] := rfl

theorem encode_append (s t : List Char) : encode (s ++ t) = encode s ++ encode t :=
  List.flatMap_append

end CertAuthority.Text.Utf8
