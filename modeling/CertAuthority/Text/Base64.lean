import CertAuthority.Bytes

/-!
# Base64

Three bytes are four digits of six bits; one or two bytes left at the end
are two or three digits and as many pad marks as complete the group. The
standard alphabet is used throughout.

`encode` writes this form. `decode` reads exactly the texts that `encode`
writes and says of any other text what is wrong first, going from left to
right: a byte that is no digit, a group that ends too early, bits set
beyond the last byte, or pad marks that are missing or too many. A pad
mark anywhere but at the end of the last group counts as a byte that is
no digit.

`decodeJoined?` is more liberal in one way and says less: it also reads
several padded texts set one after another.
-/

namespace CertAuthority.Text.Base64

/-- The pad mark, `=`. -/
def pad : UInt8 := 61

/-- The digit of a number below sixty-four. -/
def digit (n : Nat) : UInt8 :=
  if n < 26 then UInt8.ofNat (65 + n)
  else if n < 52 then UInt8.ofNat (71 + n)
  else if n < 62 then UInt8.ofNat (n - 4)
  else if n = 62 then 43
  else 47

/-- The number a digit stands for. -/
def value? (b : UInt8) : Option Nat :=
  let n := b.toNat
  if 65 ≤ n ∧ n ≤ 90 then some (n - 65)
  else if 97 ≤ n ∧ n ≤ 122 then some (n - 71)
  else if 48 ≤ n ∧ n ≤ 57 then some (n + 4)
  else if n = 43 then some 62
  else if n = 47 then some 63
  else none

/-- **The base64 text of a byte string**, as bytes. -/
def encode : Bytes → Bytes
  | [] => []
  | [a] => [digit (a.toNat / 4), digit (a.toNat % 4 * 16), pad, pad]
  | [a, b] =>
    [digit (a.toNat / 4), digit (a.toNat % 4 * 16 + b.toNat / 16), digit (b.toNat % 16 * 4), pad]
  | a :: b :: c :: rest =>
    digit (a.toNat / 4) :: digit (a.toNat % 4 * 16 + b.toNat / 16)
      :: digit (b.toNat % 16 * 4 + c.toNat / 64) :: digit (c.toNat % 64) :: encode rest

/-- **What is wrong with a text that is not base64**, with the offset of
the byte at fault. -/
inductive Fault where
  /-- A byte that is no digit of the alphabet, or a misplaced pad mark. -/
  | symbol (byte : UInt8) (offset : Nat)
  /-- One digit alone in its group: no byte string has such a text. -/
  | length (digits : Nat)
  /-- The last digit sets bits that belong to no byte. -/
  | lastSymbol (byte : UInt8) (offset : Nat)
  /-- The pad marks do not complete the last group. -/
  | padding
  deriving DecidableEq, Repr

/-- The wording of a fault. -/
def Fault.message : Fault → String
  | .symbol byte offset =>
    "Invalid symbol " ++ toString byte.toNat ++ ", offset " ++ toString offset ++ "."
  | .length digits => "Invalid input length: " ++ toString digits
  | .lastSymbol byte offset =>
    "Invalid last symbol " ++ toString byte.toNat ++ ", offset " ++ toString offset ++ "."
  | .padding => "Invalid padding"

/-- The numbers of a run of digits that starts at `offset`. -/
def values (offset : Nat) : Bytes → Except Fault (List Nat)
  | [] => .ok []
  | b :: rest =>
    match value? b with
    | none => .error (.symbol b offset)
    | some v =>
      match values (offset + 1) rest with
      | .error fault => .error fault
      | .ok vs => .ok (v :: vs)

/-- The bytes of the numbers of one group, and whether no bit is left
over. -/
def groupBytes : List Nat → Bytes × Bool
  | [a, b] => ([UInt8.ofNat (a * 4 + b / 16)], b % 16 == 0)
  | [a, b, c] =>
    ([UInt8.ofNat (a * 4 + b / 16), UInt8.ofNat (b % 16 * 16 + c / 4)], c % 4 == 0)
  | [a, b, c, d] =>
    ([UInt8.ofNat (a * 4 + b / 16), UInt8.ofNat (b % 16 * 16 + c / 4),
      UInt8.ofNat (c % 4 * 64 + d)], true)
  | _ => ([], true)

/-- Reads the last group: at most four bytes, of which the trailing ones
may be pad marks. -/
def decodeLast (offset : Nat) (group : Bytes) : Except Fault Bytes :=
  let digits := group.takeWhile (· != pad)
  let marks := group.dropWhile (· != pad)
  match values offset digits with
  | .error fault => .error fault
  | .ok vs =>
    if marks ≠ [] ∧ (digits.length < 2 ∨ marks.any (· != pad)) then
      .error (.symbol pad (offset + digits.length))
    else if group ≠ [] ∧ digits.length < 2 then .error (.length (offset + digits.length))
    else if group.length % 4 ≠ 0 then .error .padding
    else
      let (bytes, exact) := groupBytes vs
      match exact, digits.getLast? with
      | false, some b => .error (.lastSymbol b (offset + digits.length - 1))
      | _, _ => .ok bytes

/-- Reads whole groups while more follow, then the last one. -/
def decodeFrom (offset : Nat) : Bytes → Except Fault Bytes
  | a :: b :: c :: d :: e :: rest =>
    match values offset [a, b, c, d] with
    | .error fault => .error fault
    | .ok vs =>
      match decodeFrom (offset + 4) (e :: rest) with
      | .error fault => .error fault
      | .ok bytes => .ok ((groupBytes vs).1 ++ bytes)
  | group => decodeLast offset group

/-- **The byte string of a base64 text.** A stray byte after the last
whole group is reported before all else: it is most often a line end that
was left on. -/
def decode (text : Bytes) : Except Fault Bytes :=
  match text.getLast? with
  | none => .ok []
  | some z =>
    if text.length % 4 = 1 ∧ z ≠ pad ∧ value? z = none then
      .error (.symbol z (text.length - 1))
    else decodeFrom 0 text

/-- **The byte string of several base64 texts set one after another**: any
group of four may end in pad marks. -/
def decodeJoined? : Bytes → Option Bytes
  | [] => some []
  | a :: b :: c :: d :: rest =>
    match decodeLast 0 [a, b, c, d] with
    | .error _ => none
    | .ok bytes => (decodeJoined? rest).map (bytes ++ ·)
  | _ => none

end CertAuthority.Text.Base64
