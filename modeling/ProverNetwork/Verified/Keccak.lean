import ProverNetwork.Verified.LittleEndian

/-!
# Legacy Keccak-256

The sponge over `keccak-f[1600]` with rate 136 and the original `10*1` padding
(domain byte `0x01`), on byte strings.  Lanes are natural numbers below
`2 ^ 64`; lane `x + 5 * y` of the state list is the one at `(x, y)`.

## Main results

* `keccak256_length` — a digest has 32 bytes.
-/

namespace ProverNetwork.Verified.Keccak

def mask64 : Nat := 2 ^ 64 - 1

/-- Rotation of a lane to the left. -/
def rotl (x n : Nat) : Nat := ((x <<< n) ||| (x >>> (64 - n))) &&& mask64

/-- The rotation offsets of ρ, in the order of the lanes. -/
def rotations : List Nat :=
  [0, 1, 62, 28, 27, 36, 44, 6, 55, 20, 3, 10, 43, 25, 39, 41, 45, 15, 21, 8,
    18, 2, 61, 56, 14]

/-- The round constants of ι. -/
def roundConstants : List Nat :=
  [0x0000000000000001, 0x0000000000008082, 0x800000000000808a, 0x8000000080008000,
    0x000000000000808b, 0x0000000080000001, 0x8000000080008081, 0x8000000000008009,
    0x000000000000008a, 0x0000000000000088, 0x0000000080008009, 0x000000008000000a,
    0x000000008000808b, 0x800000000000008b, 0x8000000000008089, 0x8000000000008003,
    0x8000000000008002, 0x8000000000000080, 0x000000000000800a, 0x800000008000000a,
    0x8000000080008081, 0x8000000000008080, 0x0000000080000001, 0x8000000080008008]

def lane (a : List Nat) (i : Nat) : Nat := a.getD i 0

def theta (a : List Nat) : List Nat :=
  let c := (List.range 5).map (fun x =>
    lane a x ^^^ lane a (x + 5) ^^^ lane a (x + 10) ^^^ lane a (x + 15) ^^^ lane a (x + 20))
  let d := (List.range 5).map (fun x =>
    lane c ((x + 4) % 5) ^^^ rotl (lane c ((x + 1) % 5)) 1)
  (List.range 25).map (fun i => lane a i ^^^ lane d (i % 5))

/-- ρ and π: the lane at `(x, y)` moves to `(y, 2x + 3y)`. -/
def rhoPi (a : List Nat) : List Nat :=
  (List.range 25).map (fun j =>
    let i := (j % 5 + 3 * (j / 5)) % 5 + 5 * (j % 5)
    rotl (lane a i) (lane rotations i))

def chi (b : List Nat) : List Nat :=
  (List.range 25).map (fun i =>
    let row := 5 * (i / 5)
    lane b i ^^^ ((lane b (row + (i + 1) % 5) ^^^ mask64) &&& lane b (row + (i + 2) % 5)))

def round (a : List Nat) (rc : Nat) : List Nat :=
  match chi (rhoPi (theta a)) with
  | [] => []
  | l :: rest => (l ^^^ rc) :: rest

def keccakF (a : List Nat) : List Nat := roundConstants.foldl round a

/-- The rate, in bytes. -/
def rate : Nat := 136

/-- `10*1` padding to a multiple of the rate. -/
def pad (msg : List UInt8) : List UInt8 :=
  let zeros := rate - 1 - msg.length % rate
  if zeros = 0 then msg ++ [0x81]
  else msg ++ (0x01 :: List.replicate (zeros - 1) 0) ++ [0x80]

/-- The `n` lanes of a block. -/
def lanes : Nat → List UInt8 → List Nat
  | 0, _ => []
  | n + 1, bs => ofLE (bs.take 8) :: lanes n (bs.drop 8)

def absorb (a : List Nat) (block : List UInt8) : List Nat :=
  let m := lanes (rate / 8) block
  keccakF ((List.range 25).map (fun i => lane a i ^^^ lane m i))

/-- Absorbs the first `n` blocks. -/
def absorbBlocks : Nat → List Nat → List UInt8 → List Nat
  | 0, a, _ => a
  | n + 1, a, bs => absorbBlocks n (absorb a (bs.take rate)) (bs.drop rate)

/-- The digest of a byte string. -/
def keccak256 (msg : List UInt8) : List UInt8 :=
  let a := absorbBlocks ((pad msg).length / rate) (List.replicate 25 0) (pad msg)
  (List.range 4).flatMap (fun i => leBytes 8 (lane a i))

theorem keccak256_length (msg : List UInt8) : (keccak256 msg).length = 32 := by
  simp [keccak256, List.range_succ]

end ProverNetwork.Verified.Keccak
