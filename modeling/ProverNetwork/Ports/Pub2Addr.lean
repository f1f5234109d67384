import Mathlib.Algebra.BigOperators.Fin
import Mathlib.Tactic.Ring
import ProverNetwork.Ports.TakoGnarkEcdsa
import ProverNetwork.Verified.GoSlice

/-!
# The public-key hint

`Pub2AddrHint` puts the two coordinates of a key together from their limbs, in the base
field, and writes their bytes into the slice the solver hands over.  The build for GPUs
has a copy of it in its main package.  The address that is computed on the way is only
logged.

The field elements of the library are residues with canonical big-endian bytes.

## Main results

* `coordinate_val` — a coordinate is what its limbs stand for, reduced.
* `hint_eq` — the bytes that are written are those of the two coordinates.
* `hint_key_bytes` — what the solver is given, by both copies.
* `hint_matches` — the circuit gets the key it asks for from the limbs of the key.
-/

namespace ProverNetwork.Ports

open ProverNetwork.Verified

/-- `fp.Element`. -/
abbrev Fp := ZMod TakoGnarkEcdsa.secp256k1P

namespace Fp

/-- `x.SetBigInt(v)`. -/
def setBigInt (v : Int) : Fp := (v : Fp)

/-- `x.Bytes()`. -/
def bytes (x : Fp) : List UInt8 := beBytes 32 x.val

end Fp

namespace Pub2Addr

def LimbSize : Nat := 64
def Base2_64 : Nat := 2
def ExpectedInputs : Nat := 8
def ExpectedOutputs : Nat := 64

/-- A coordinate from the four inputs that begin at `first`. -/
def coordinate (base limbSize : Nat) (inputs : List Int) (first : Nat) : Fp :=
  [first + 1, first + 2, first + 3].foldl (fun x i =>
    let limbs : Int := base ^ limbSize
    let z := Fp.setBigInt limbs
    let a := Fp.setBigInt (inputs.getD i 0)
    x * z + a) (Fp.setBigInt (inputs.getD first 0))

/-- The bytes `0x04 || X || Y`. -/
def pubBytes (x y : Fp) : List UInt8 := 0x04 :: (x.bytes ++ y.bytes)

/-- The body of both copies. -/
def hint (expectedInputs base limbSize expectedOutputs : Nat) (inputs outputs : List Int) :
    Go (Except String (List Int)) :=
  if inputs.length ≠ expectedInputs then
    .ok (.error ("expected " ++ toString expectedInputs ++ " inputs, got " ++
      toString inputs.length))
  else
    let x := coordinate base limbSize inputs 0
    let y := coordinate base limbSize inputs 4
    if outputs.length < expectedOutputs then .error .indexOutOfRange
    else
      let written := (List.range expectedOutputs).map (fun i =>
        (((pubBytes x y).getD (i + 1) 0).toNat : Int))
      .ok (.ok (written ++ outputs.drop expectedOutputs))

/-- `Pub2AddrHint` of the package `tako_gnark_ecdsa`. -/
def pub2AddrHint (inputs outputs : List Int) : Go (Except String (List Int)) :=
  hint ExpectedInputs Base2_64 LimbSize ExpectedOutputs inputs outputs

end Pub2Addr

/-- `Pub2AddrHint` of the build for GPUs. -/
def SrcGpu.pub2AddrHint (inputs outputs : List Int) : Go (Except String (List Int)) :=
  Pub2Addr.hint 8 2 64 64 inputs outputs

namespace Pub2Addr

open TakoGnarkEcdsa (secp256k1P hintCoordinate limbsValue hintCoordinate_limbs AffinePoint
  HintMatches honest_hint_matches)

/-- **A coordinate is what its limbs stand for**, reduced. -/
theorem coordinate_val {inputs : List Int} {first a b c d : Nat}
    (ha : inputs.getD first 0 = a) (hb : inputs.getD (first + 1) 0 = b)
    (hc : inputs.getD (first + 2) 0 = c) (hd : inputs.getD (first + 3) 0 = d) :
    (coordinate Base2_64 LimbSize inputs first).val = hintCoordinate [a, b, c, d] := by
  have hcast : coordinate Base2_64 LimbSize inputs first =
      ((limbsValue [a, b, c, d] : Nat) : Fp) := by
    simp only [coordinate, limbsValue, List.foldl_cons, List.foldl_nil, Fp.setBigInt, ha, hb, hc,
      hd, Base2_64, LimbSize, TakoGnarkEcdsa.LimbSize]
    push_cast
    ring
  rw [hcast, ZMod.val_natCast, hintCoordinate_limbs]

theorem map_getD_tail (b : UInt8) (bs : List UInt8) :
    (List.range bs.length).map (fun i => ((b :: bs).getD (i + 1) 0).toNat) =
      bs.map UInt8.toNat := by
  apply List.ext_getElem
  · simp
  · intro i hi hi'
    have hlt : i < bs.length := by simpa using hi'
    simp [List.getD_eq_getElem?_getD, List.getElem?_eq_getElem hlt]

/-- The bytes of the key, of eight limbs. -/
def keyBytes (inputs : Fin 8 → Nat) : List UInt8 :=
  beBytes 32 (hintCoordinate [inputs 0, inputs 1, inputs 2, inputs 3]) ++
    beBytes 32 (hintCoordinate [inputs 4, inputs 5, inputs 6, inputs 7])

/-- **The bytes that are written** are those of the two coordinates, in both copies. -/
theorem hint_eq (inputs : Fin 8 → Nat) {outputs : List Int}
    (houtputs : ExpectedOutputs ≤ outputs.length) :
    pub2AddrHint (List.ofFn (fun i => (inputs i : Int))) outputs =
      .ok (.ok ((keyBytes inputs).map (fun b => (b.toNat : Int)) ++
        outputs.drop ExpectedOutputs)) := by
  have hinputs : ¬(List.ofFn (fun i => (inputs i : Int))).length ≠ ExpectedInputs := by
    rw [List.length_ofFn]
    exact fun h => h rfl
  have hx : (coordinate Base2_64 LimbSize (List.ofFn (fun i => (inputs i : Int))) 0).bytes =
      beBytes 32 (hintCoordinate [inputs 0, inputs 1, inputs 2, inputs 3]) :=
    congrArg (beBytes 32) (coordinate_val rfl rfl rfl rfl)
  have hy : (coordinate Base2_64 LimbSize (List.ofFn (fun i => (inputs i : Int))) 4).bytes =
      beBytes 32 (hintCoordinate [inputs 4, inputs 5, inputs 6, inputs 7]) :=
    congrArg (beBytes 32) (coordinate_val rfl rfl rfl rfl)
  have hlength : (keyBytes inputs).length = ExpectedOutputs := by
    rw [keyBytes, List.length_append, length_beBytes, length_beBytes]
    rfl
  have hwritten := congrArg (List.map (fun n : Nat => (n : Int)))
    (map_getD_tail 0x04 (keyBytes inputs))
  rw [hlength, List.map_map, List.map_map] at hwritten
  rw [pub2AddrHint, hint, if_neg hinputs]
  dsimp only
  rw [if_neg (Nat.not_lt.2 houtputs), pubBytes, hx, hy, ← keyBytes]
  exact congrArg (fun written => Except.ok (Except.ok (written ++ _))) hwritten

/-- The hint of the circuit model, which has no slice to write to, gives the same bytes. -/
theorem pub2AddrHint_eq (inputs : Fin 8 → Nat) :
    TakoGnarkEcdsa.pub2AddrHint (List.ofFn inputs) =
      .ok ((keyBytes inputs).map UInt8.toNat) := rfl

/-- **The circuit gets the key it asks for**, where the solver runs the hint on the limbs of
the key. -/
theorem hint_matches (p : AffinePoint) {inputs : Fin 8 → Nat} {outputs written : List Int}
    (hx : limbsValue [inputs 0, inputs 1, inputs 2, inputs 3] % secp256k1P = p.x)
    (hy : limbsValue [inputs 4, inputs 5, inputs 6, inputs 7] % secp256k1P = p.y)
    (houtputs : outputs.length = ExpectedOutputs)
    (hwritten : pub2AddrHint (List.ofFn (fun i => (inputs i : Int))) outputs =
      .ok (.ok written)) :
    HintMatches (written.map (fun b : Int => (b : Fr))) p := by
  have hbytes : written = (keyBytes inputs).map (fun b => (b.toNat : Int)) := by
    have hhint := hint_eq inputs (Nat.le_of_eq houtputs.symm)
    rw [List.drop_eq_nil_of_le (Nat.le_of_eq houtputs), List.append_nil] at hhint
    exact Except.ok.inj (Except.ok.inj (hwritten.symm.trans hhint))
  have hmatches := honest_hint_matches p rfl rfl hx hy (pub2AddrHint_eq inputs)
  have hcast : written.map (fun b : Int => (b : Fr)) =
      ((keyBytes inputs).map UInt8.toNat).map (fun n : Nat => (n : Fr)) := by
    rw [hbytes, List.map_map, List.map_map]
    exact List.map_congr_left (fun b _ => Int.cast_natCast b.toNat)
  rw [hcast]
  exact hmatches

/-- Big-endian bytes, as integers. -/
def readBytes (bytes : List Int) : Int := bytes.foldl (fun acc b => acc * 256 + b) 0

theorem readBytes_map (bs : List UInt8) :
    readBytes (bs.map (fun b => (b.toNat : Int))) = (setBytes bs : Nat) := by
  have hfold : ∀ acc : Nat,
      (bs.map (fun b => (b.toNat : Int))).foldl (fun acc b => acc * 256 + b) (acc : Int) =
        ((bs.foldl (fun acc b => acc * 256 + b.toNat) acc : Nat) : Int) := by
    induction bs with
    | nil => exact fun acc => rfl
    | cons b bs ih => exact fun acc => ih (acc * 256 + b.toNat)
  exact hfold 0

/-- The bytes of a coordinate read as what its limbs stand for, reduced. -/
theorem readBytes_coordinate (limbs : List Nat) :
    readBytes ((beBytes 32 (hintCoordinate limbs)).map (fun b => (b.toNat : Int))) =
      ((limbsValue limbs % secp256k1P : Nat) : Int) := by
  have hsmall : limbsValue limbs % secp256k1P < 256 ^ 32 :=
    (Nat.mod_lt _ (by decide)).trans (by decide)
  rw [hintCoordinate_limbs, readBytes_map, setBytes_beBytes hsmall]

/-- Horner's rule on four limbs. -/
theorem limbsValue_eq_sum (limbs : Fin 4 → Nat) :
    limbsValue [limbs 0, limbs 1, limbs 2, limbs 3] =
      ∑ i : Fin 4, limbs i * 2 ^ (64 * (3 - i.val)) := by
  rw [Fin.sum_univ_four]
  show (((0 * 2 ^ 64 + limbs 0) * 2 ^ 64 + limbs 1) * 2 ^ 64 + limbs 2) * 2 ^ 64 + limbs 3 =
    limbs 0 * 2 ^ 192 + limbs 1 * 2 ^ 128 + limbs 2 * 2 ^ 64 + limbs 3 * 2 ^ 0
  ring

/-- **The hint computes the uncompressed key bytes.**  For any eight natural numbers both
copies fill the sixty-four outputs with bytes: the first half reads as the number the first
four inputs stand for, modulo the prime of the base field, and the second half as that of
the others. -/
theorem hint_key_bytes (inputs : Fin 8 → Nat) (outputs : Fin 64 → Int) :
    ∃ written : List Int,
      pub2AddrHint (List.ofFn (fun i => (inputs i : Int))) (List.ofFn outputs) =
        .ok (.ok written) ∧
      SrcGpu.pub2AddrHint (List.ofFn (fun i => (inputs i : Int))) (List.ofFn outputs) =
        .ok (.ok written) ∧
      written.length = 64 ∧ (∀ b ∈ written, 0 ≤ b ∧ b ≤ 255) ∧
      readBytes (written.take 32) =
        (((∑ i : Fin 4, inputs (Fin.castAdd 4 i) * 2 ^ (64 * (3 - i.val))) % secp256k1P : Nat) :
          Int) ∧
      readBytes (written.drop 32) =
        (((∑ i : Fin 4, inputs (Fin.natAdd 4 i) * 2 ^ (64 * (3 - i.val))) % secp256k1P : Nat) :
          Int) := by
  have houtputs : ExpectedOutputs ≤ (List.ofFn outputs).length := by
    rw [List.length_ofFn]
    exact Nat.le_refl 64
  have hdrop : (List.ofFn outputs).drop ExpectedOutputs = [] := by
    apply List.drop_eq_nil_of_le
    rw [List.length_ofFn]
    exact Nat.le_refl 64
  have hhint := hint_eq inputs houtputs
  rw [hdrop, List.append_nil] at hhint
  have hx := limbsValue_eq_sum (fun i => inputs (Fin.castAdd 4 i))
  have hy := limbsValue_eq_sum (fun i => inputs (Fin.natAdd 4 i))
  refine ⟨_, hhint, hhint, ?_, ?_, ?_, ?_⟩
  · rw [List.length_map, keyBytes, List.length_append, length_beBytes, length_beBytes]
  · intro b hb
    obtain ⟨byte, -, rfl⟩ := List.mem_map.1 hb
    have hlt : byte.toNat < 256 := byte.toNat_lt
    omega
  · rw [← List.map_take, keyBytes, List.take_left' (length_beBytes 32 _), readBytes_coordinate]
    exact congrArg (fun v : Nat => ((v % secp256k1P : Nat) : Int)) hx
  · rw [← List.map_drop, keyBytes, List.drop_left' (length_beBytes 32 _), readBytes_coordinate]
    exact congrArg (fun v : Nat => ((v % secp256k1P : Nat) : Int)) hy

end Pub2Addr

end ProverNetwork.Ports
