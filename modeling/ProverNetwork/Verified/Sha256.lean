import ProverNetwork.Verified.LittleEndian

/-!
# SHA-256

The hash on byte strings, words being natural numbers below `2 ^ 32`.

## Main results

* `length_pad_mod` — the padded message is a whole number of blocks.
* `sha256_length` — a digest has 32 bytes.
-/

namespace ProverNetwork.Verified.Sha256

def mask32 : Nat := 2 ^ 32 - 1

/-- Rotation of a word to the right. -/
def rotr (x n : Nat) : Nat := ((x >>> n) ||| (x <<< (32 - n))) &&& mask32

/-- The round constants. -/
def roundConstants : List Nat :=
  [0x428a2f98, 0x71374491, 0xb5c0fbcf, 0xe9b5dba5, 0x3956c25b, 0x59f111f1, 0x923f82a4,
    0xab1c5ed5, 0xd807aa98, 0x12835b01, 0x243185be, 0x550c7dc3, 0x72be5d74, 0x80deb1fe,
    0x9bdc06a7, 0xc19bf174, 0xe49b69c1, 0xefbe4786, 0x0fc19dc6, 0x240ca1cc, 0x2de92c6f,
    0x4a7484aa, 0x5cb0a9dc, 0x76f988da, 0x983e5152, 0xa831c66d, 0xb00327c8, 0xbf597fc7,
    0xc6e00bf3, 0xd5a79147, 0x06ca6351, 0x14292967, 0x27b70a85, 0x2e1b2138, 0x4d2c6dfc,
    0x53380d13, 0x650a7354, 0x766a0abb, 0x81c2c92e, 0x92722c85, 0xa2bfe8a1, 0xa81a664b,
    0xc24b8b70, 0xc76c51a3, 0xd192e819, 0xd6990624, 0xf40e3585, 0x106aa070, 0x19a4c116,
    0x1e376c08, 0x2748774c, 0x34b0bcb5, 0x391c0cb3, 0x4ed8aa4a, 0x5b9cca4f, 0x682e6ff3,
    0x748f82ee, 0x78a5636f, 0x84c87814, 0x8cc70208, 0x90befffa, 0xa4506ceb, 0xbef9a3f7,
    0xc67178f2]

/-- The working variables. -/
structure State where
  a : Nat
  b : Nat
  c : Nat
  d : Nat
  e : Nat
  f : Nat
  g : Nat
  h : Nat

def initial : State :=
  ⟨0x6a09e667, 0xbb67ae85, 0x3c6ef372, 0xa54ff53a, 0x510e527f, 0x9b05688c, 0x1f83d9ab,
    0x5be0cd19⟩

def State.add (s t : State) : State :=
  ⟨(s.a + t.a) &&& mask32, (s.b + t.b) &&& mask32, (s.c + t.c) &&& mask32,
    (s.d + t.d) &&& mask32, (s.e + t.e) &&& mask32, (s.f + t.f) &&& mask32,
    (s.g + t.g) &&& mask32, (s.h + t.h) &&& mask32⟩

/-- One round, on the round constant and the word of the schedule. -/
def round (s : State) (kw : Nat × Nat) : State :=
  let sum1 := rotr s.e 6 ^^^ rotr s.e 11 ^^^ rotr s.e 25
  let choice := (s.e &&& s.f) ^^^ ((s.e ^^^ mask32) &&& s.g)
  let t1 := s.h + sum1 + choice + kw.1 + kw.2
  let sum0 := rotr s.a 2 ^^^ rotr s.a 13 ^^^ rotr s.a 22
  let majority := (s.a &&& s.b) ^^^ (s.a &&& s.c) ^^^ (s.b &&& s.c)
  ⟨(t1 + sum0 + majority) &&& mask32, s.a, s.b, s.c, (s.d + t1) &&& mask32, s.e, s.f, s.g⟩

/-- Adds `n` words to a schedule, which stands in reverse order. -/
def extend : Nat → List Nat → List Nat
  | 0, ws => ws
  | n + 1, ws =>
      let w15 := ws.getD 14 0
      let w2 := ws.getD 1 0
      let s0 := rotr w15 7 ^^^ rotr w15 18 ^^^ (w15 >>> 3)
      let s1 := rotr w2 17 ^^^ rotr w2 19 ^^^ (w2 >>> 10)
      extend n (((ws.getD 15 0 + s0 + ws.getD 6 0 + s1) &&& mask32) :: ws)

/-- The first `n` words of a block. -/
def words : Nat → List UInt8 → List Nat
  | 0, _ => []
  | n + 1, bs => setBytes (bs.take 4) :: words n (bs.drop 4)

def compress (s : State) (block : List UInt8) : State :=
  let schedule := (extend 48 (words 16 block).reverse).reverse
  s.add ((roundConstants.zip schedule).foldl round s)

/-- Compresses the first `n` blocks. -/
def compressBlocks : Nat → State → List UInt8 → State
  | 0, s, _ => s
  | n + 1, s, bs => compressBlocks n (compress s (bs.take 64)) (bs.drop 64)

/-- The number of zero bytes in the padding. -/
def zeros (length : Nat) : Nat := (119 - length % 64) % 64

/-- The padded message: a one bit, zeros, and the length in bits. -/
def pad (msg : List UInt8) : List UInt8 :=
  msg ++ 0x80 :: List.replicate (zeros msg.length) 0 ++ beBytes 8 (8 * msg.length)

/-- The digest of a byte string. -/
def sha256 (msg : List UInt8) : List UInt8 :=
  let s := compressBlocks ((pad msg).length / 64) initial (pad msg)
  [s.a, s.b, s.c, s.d, s.e, s.f, s.g, s.h].flatMap (beBytes 4)

theorem length_pad_mod (msg : List UInt8) : (pad msg).length % 64 = 0 := by
  simp [pad, zeros]
  omega

theorem sha256_length (msg : List UInt8) : (sha256 msg).length = 32 := by
  simp [sha256]

example : sha256 [0x61, 0x62, 0x63] =
    [0xba, 0x78, 0x16, 0xbf, 0x8f, 0x01, 0xcf, 0xea, 0x41, 0x41, 0x40, 0xde, 0x5d, 0xae,
      0x22, 0x23, 0xb0, 0x03, 0x61, 0xa3, 0x96, 0x17, 0x7a, 0x9c, 0xb4, 0x10, 0xff, 0x61,
      0xf2, 0x00, 0x15, 0xad] := by
  decide +kernel

end ProverNetwork.Verified.Sha256
