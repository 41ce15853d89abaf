import CertAuthority.Bytes

/-!
# Hash functions

The hash functions that signatures and key identifiers rest on: SHA-1, and
SHA-2 with words of 32 bits (SHA-256) and of 64 bits (SHA-384, SHA-512).

All of them pad the message to whole blocks, read each block as sixteen
words and mix it into a state of a few words. The words of a block are
kept in a *window* of sixteen that moves one word a round: a round uses the
first of them, and the next one is computed from four in the window.

One definition serves both word sizes of SHA-2; a `Sha2.Variant` holds what
they differ in, the amounts of the rotations and the constants.
-/

namespace CertAuthority.Crypto

/-- A word of `w` bits from its bytes, most significant first. -/
def wordOfBytes (w : Nat) (b : Bytes) : BitVec w := BitVec.ofNat w (Bytes.toNat b)

/-- The bytes of a word, most significant first. -/
def wordBytes {w : Nat} (x : BitVec w) : Bytes := Bytes.ofNatPadded (w / 8) x.toNat

/-- The words of `size` bytes in a byte string; fewer bytes at its end are
left out. -/
def wordsOf (w size : Nat) (b : Bytes) : List (BitVec w) :=
  if _h : size = 0 ∨ b.length < size then []
  else wordOfBytes w (b.take size) :: wordsOf w size (b.drop size)
  termination_by b.length
  decreasing_by
    simp only [List.length_drop]
    omega

/-- **The message padded to whole blocks**: a one bit, zeros, and the length
of the message in bits. -/
def padMessage (blockSize lengthSize : Nat) (message : Bytes) : Bytes :=
  let used := (message.length + 1 + lengthSize) % blockSize
  let zeros := (blockSize - used) % blockSize
  message ++ 0x80 :: List.replicate zeros 0 ++ Bytes.ofNatPadded lengthSize (8 * message.length)

/-- Runs a mixing function over the blocks of a padded message, given as
words, sixteen words a block. -/
def absorb {w : Nat} {σ : Type} (mix : σ → List (BitVec w) → σ) (state : σ)
    (words : List (BitVec w)) : σ :=
  if _h : words.length < 16 then state
  else absorb mix (mix state (words.take 16)) (words.drop 16)
  termination_by words.length
  decreasing_by
    simp only [List.length_drop]
    omega

/-! ## SHA-2 -/

namespace Sha2

/-- **The eight words of a state.** -/
structure State (w : Nat) where
  /-- The first word. -/
  a : BitVec w
  /-- The second word. -/
  b : BitVec w
  /-- The third word. -/
  c : BitVec w
  /-- The fourth word. -/
  d : BitVec w
  /-- The fifth word. -/
  e : BitVec w
  /-- The sixth word. -/
  f : BitVec w
  /-- The seventh word. -/
  g : BitVec w
  /-- The eighth word. -/
  h : BitVec w
  deriving DecidableEq, Repr

namespace State

/-- The sum of two states, word by word. -/
def add {w : Nat} (s t : State w) : State w :=
  ⟨s.a + t.a, s.b + t.b, s.c + t.c, s.d + t.d, s.e + t.e, s.f + t.f, s.g + t.g, s.h + t.h⟩

/-- The words of a state. -/
def words {w : Nat} (s : State w) : List (BitVec w) := [s.a, s.b, s.c, s.d, s.e, s.f, s.g, s.h]

end State

/-- **What the word sizes differ in.** -/
structure Variant (w : Nat) where
  /-- The rotations that mix the first word of the state. -/
  upper : Nat × Nat × Nat
  /-- The rotations that mix the fifth word of the state. -/
  lower : Nat × Nat × Nat
  /-- Two rotations and a shift for the second word of the window. -/
  early : Nat × Nat × Nat
  /-- Two rotations and a shift for the fifteenth word of the window. -/
  late : Nat × Nat × Nat
  /-- The constants, one a round. -/
  constants : List (BitVec w)

/-- The sum without carry of three rotations of a word. -/
def rotations {w : Nat} (by3 : Nat × Nat × Nat) (x : BitVec w) : BitVec w :=
  x.rotateRight by3.1 ^^^ x.rotateRight by3.2.1 ^^^ x.rotateRight by3.2.2

/-- The sum without carry of two rotations and a shift of a word. -/
def rotationsAndShift {w : Nat} (by3 : Nat × Nat × Nat) (x : BitVec w) : BitVec w :=
  x.rotateRight by3.1 ^^^ x.rotateRight by3.2.1 ^^^ (x >>> by3.2.2)

/-- One round: the state and the window after it. -/
def round {w : Nat} (v : Variant w) (sw : State w × List (BitVec w)) (k : BitVec w) :
    State w × List (BitVec w) :=
  let (s, window) := sw
  let word := window.headD 0
  let choice := (s.e &&& s.f) ^^^ (~~~s.e &&& s.g)
  let majority := (s.a &&& s.b) ^^^ (s.a &&& s.c) ^^^ (s.b &&& s.c)
  let t1 := s.h + rotations v.lower s.e + choice + k + word
  let t2 := rotations v.upper s.a + majority
  let next := rotationsAndShift v.late (window.getD 14 0) + window.getD 9 0
    + rotationsAndShift v.early (window.getD 1 0) + word
  (⟨t1 + t2, s.a, s.b, s.c, s.d + t1, s.e, s.f, s.g⟩, window.tail ++ [next])

/-- Mixes a block into a state. -/
def mix {w : Nat} (v : Variant w) (s : State w) (block : List (BitVec w)) : State w :=
  s.add (v.constants.foldl (round v) (s, block)).1

/-- The hash of a message: all eight words of the final state. -/
def hash {w : Nat} (v : Variant w) (start : State w) (message : Bytes) : Bytes :=
  let padded := padMessage (2 * w) (w / 4) message
  ((absorb (mix v) start (wordsOf w (w / 8) padded)).words.map wordBytes).flatten

/-- The parameters for words of 32 bits. -/
def narrow : Variant 32 where
  upper := (2, 13, 22)
  lower := (6, 11, 25)
  early := (7, 18, 3)
  late := (17, 19, 10)
  constants :=
  [0x428a2f98, 0x71374491, 0xb5c0fbcf, 0xe9b5dba5, 0x3956c25b, 0x59f111f1, 0x923f82a4,
     0xab1c5ed5, 0xd807aa98, 0x12835b01, 0x243185be, 0x550c7dc3, 0x72be5d74, 0x80deb1fe,
     0x9bdc06a7, 0xc19bf174, 0xe49b69c1, 0xefbe4786, 0x0fc19dc6, 0x240ca1cc, 0x2de92c6f,
     0x4a7484aa, 0x5cb0a9dc, 0x76f988da, 0x983e5152, 0xa831c66d, 0xb00327c8, 0xbf597fc7,
     0xc6e00bf3, 0xd5a79147, 0x06ca6351, 0x14292967, 0x27b70a85, 0x2e1b2138, 0x4d2c6dfc,
     0x53380d13, 0x650a7354, 0x766a0abb, 0x81c2c92e, 0x92722c85, 0xa2bfe8a1, 0xa81a664b,
     0xc24b8b70, 0xc76c51a3, 0xd192e819, 0xd6990624, 0xf40e3585, 0x106aa070, 0x19a4c116,
     0x1e376c08, 0x2748774c, 0x34b0bcb5, 0x391c0cb3, 0x4ed8aa4a, 0x5b9cca4f, 0x682e6ff3,
     0x748f82ee, 0x78a5636f, 0x84c87814, 0x8cc70208, 0x90befffa, 0xa4506ceb, 0xbef9a3f7,
     0xc67178f2]

/-- The parameters for words of 64 bits. -/
def wide : Variant 64 where
  upper := (28, 34, 39)
  lower := (14, 18, 41)
  early := (1, 8, 7)
  late := (19, 61, 6)
  constants :=
  [0x428a2f98d728ae22, 0x7137449123ef65cd, 0xb5c0fbcfec4d3b2f, 0xe9b5dba58189dbbc,
     0x3956c25bf348b538, 0x59f111f1b605d019, 0x923f82a4af194f9b, 0xab1c5ed5da6d8118,
     0xd807aa98a3030242, 0x12835b0145706fbe, 0x243185be4ee4b28c, 0x550c7dc3d5ffb4e2,
     0x72be5d74f27b896f, 0x80deb1fe3b1696b1, 0x9bdc06a725c71235, 0xc19bf174cf692694,
     0xe49b69c19ef14ad2, 0xefbe4786384f25e3, 0x0fc19dc68b8cd5b5, 0x240ca1cc77ac9c65,
     0x2de92c6f592b0275, 0x4a7484aa6ea6e483, 0x5cb0a9dcbd41fbd4, 0x76f988da831153b5,
     0x983e5152ee66dfab, 0xa831c66d2db43210, 0xb00327c898fb213f, 0xbf597fc7beef0ee4,
     0xc6e00bf33da88fc2, 0xd5a79147930aa725, 0x06ca6351e003826f, 0x142929670a0e6e70,
     0x27b70a8546d22ffc, 0x2e1b21385c26c926, 0x4d2c6dfc5ac42aed, 0x53380d139d95b3df,
     0x650a73548baf63de, 0x766a0abb3c77b2a8, 0x81c2c92e47edaee6, 0x92722c851482353b,
     0xa2bfe8a14cf10364, 0xa81a664bbc423001, 0xc24b8b70d0f89791, 0xc76c51a30654be30,
     0xd192e819d6ef5218, 0xd69906245565a910, 0xf40e35855771202a, 0x106aa07032bbd1b8,
     0x19a4c116b8d2d0c8, 0x1e376c085141ab53, 0x2748774cdf8eeb99, 0x34b0bcb5e19b48a8,
     0x391c0cb3c5c95a63, 0x4ed8aa4ae3418acb, 0x5b9cca4f7763e373, 0x682e6ff3d6b2b8a3,
     0x748f82ee5defb2fc, 0x78a5636f43172f60, 0x84c87814a1f0ab72, 0x8cc702081a6439ec,
     0x90befffa23631e28, 0xa4506cebde82bde9, 0xbef9a3f7b2c67915, 0xc67178f2e372532b,
     0xca273eceea26619c, 0xd186b8c721c0c207, 0xeada7dd6cde0eb1e, 0xf57d4f7fee6ed178,
     0x06f067aa72176fba, 0x0a637dc5a2c898a6, 0x113f9804bef90dae, 0x1b710b35131c471b,
     0x28db77f523047d84, 0x32caab7b40c72493, 0x3c9ebe0a15c9bebc, 0x431d67c49c100d4c,
     0x4cc5d4becb3e42b6, 0x597f299cfc657e2a, 0x5fcb6fab3ad6faec, 0x6c44198c4a475817]

end Sha2

/-- **SHA-256.** -/
def sha256 : Bytes → Bytes :=
  Sha2.hash Sha2.narrow
    ⟨0x6a09e667, 0xbb67ae85, 0x3c6ef372, 0xa54ff53a,
      0x510e527f, 0x9b05688c, 0x1f83d9ab, 0x5be0cd19⟩

/-- **SHA-512.** -/
def sha512 : Bytes → Bytes :=
  Sha2.hash Sha2.wide
    ⟨0x6a09e667f3bcc908, 0xbb67ae8584caa73b, 0x3c6ef372fe94f82b,
      0xa54ff53a5f1d36f1, 0x510e527fade682d1, 0x9b05688c2b3e6c1f,
      0x1f83d9abfb41bd6b, 0x5be0cd19137e2179⟩

/-- **SHA-384**: SHA-512 with another initial state, cut short. -/
def sha384 (message : Bytes) : Bytes :=
  (Sha2.hash Sha2.wide
    ⟨0xcbbb9d5dc1059ed8, 0x629a292a367cd507, 0x9159015a3070dd17,
      0x152fecd8f70e5939, 0x67332667ffc00b31, 0x8eb44a8768581511,
      0xdb0c2e0d64f98fa7, 0x47b5481dbefa4fa4⟩
    message).take 48

/-! ## SHA-1 -/

namespace Sha1

/-- The five words of a state. -/
structure State where
  /-- The first word. -/
  a : BitVec 32
  /-- The second word. -/
  b : BitVec 32
  /-- The third word. -/
  c : BitVec 32
  /-- The fourth word. -/
  d : BitVec 32
  /-- The fifth word. -/
  e : BitVec 32
  deriving DecidableEq, Repr

/-- The mixing function and the constant of a round. -/
def phase (s : State) (i : Nat) : BitVec 32 × BitVec 32 :=
  if i < 20 then ((s.b &&& s.c) ^^^ (~~~s.b &&& s.d), 0x5a827999)
  else if i < 40 then (s.b ^^^ s.c ^^^ s.d, 0x6ed9eba1)
  else if i < 60 then ((s.b &&& s.c) ^^^ (s.b &&& s.d) ^^^ (s.c &&& s.d), 0x8f1bbcdc)
  else (s.b ^^^ s.c ^^^ s.d, 0xca62c1d6)

/-- One round: the state and the window after it. -/
def round (sw : State × List (BitVec 32)) (i : Nat) : State × List (BitVec 32) :=
  let (s, window) := sw
  let word := window.headD 0
  let (mixed, k) := phase s i
  let next := (window.getD 13 0 ^^^ window.getD 8 0 ^^^ window.getD 2 0 ^^^ word).rotateLeft 1
  (⟨s.a.rotateLeft 5 + mixed + s.e + k + word, s.a, s.b.rotateLeft 30, s.c, s.d⟩,
    window.tail ++ [next])

/-- Mixes a block into a state. -/
def mix (s : State) (block : List (BitVec 32)) : State :=
  let t := ((List.range 80).foldl round (s, block)).1
  ⟨s.a + t.a, s.b + t.b, s.c + t.c, s.d + t.d, s.e + t.e⟩

end Sha1

/-- **SHA-1**, for signatures from before it was broken. -/
def sha1 (message : Bytes) : Bytes :=
  let padded := padMessage 64 8 message
  let s := absorb Sha1.mix ⟨0x67452301, 0xefcdab89, 0x98badcfe, 0x10325476, 0xc3d2e1f0⟩
    (wordsOf 32 4 padded)
  ([s.a, s.b, s.c, s.d, s.e].map wordBytes).flatten

end CertAuthority.Crypto
