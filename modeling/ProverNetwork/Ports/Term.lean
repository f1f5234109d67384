import Mathlib.Algebra.Group.Nat.Defs
import ProverNetwork.Verified.GoSlice

/-!
# Packed terms

A term of a linear expression is one 64-bit word: the wire id in the low 29
bits, the coefficient id in the next 30.  The setters refuse an id that does
not fit its field.

## Main results

* `setCoeffID_ok_iff`, `setWireID_ok_iff` — when the setters return.
* `setCoeffID_fits`, `setWireID_fits` — what is set reads back.
-/

namespace ProverNetwork.Ports

open ProverNetwork.Verified

/-- A term packs wire and coefficient id in a uint64. -/
abbrev Term := BitVec 64

abbrev LinearExpression := List Term

/-- One constraint `L * R = O`. -/
structure R1C where
  L : LinearExpression
  R : LinearExpression
  O : LinearExpression

namespace Term

def nbBitsWireID : Nat := 29
def nbBitsCoeffID : Nat := 30
def shiftCoeffID : Nat := nbBitsWireID

def maskWireID : BitVec 64 := (1 <<< nbBitsWireID) - 1
def maskCoeffID : BitVec 64 := ((1 <<< nbBitsCoeffID) - 1) <<< shiftCoeffID

/-- `SetCoeffID`. -/
def setCoeffID (t : Term) (cID : Nat) : Go Term :=
  let coeffID := BitVec.ofNat 64 cID
  if coeffID &&& (maskCoeffID >>> shiftCoeffID) ≠ BitVec.ofNat 64 cID then
    .error (.panicked "coeffID is too large, unsupported")
  else .ok ((t &&& ~~~maskCoeffID) ||| (coeffID <<< shiftCoeffID))

/-- `SetWireID`. -/
def setWireID (t : Term) (cID : Nat) : Go Term :=
  let variableID := BitVec.ofNat 64 cID
  if variableID &&& maskWireID ≠ BitVec.ofNat 64 cID then
    .error (.panicked "variableID is too large, unsupported")
  else .ok ((t &&& ~~~maskWireID) ||| variableID)

/-- `WireID`. -/
def wireID (t : Term) : Nat := (t &&& maskWireID).toNat

/-- `CoeffID`. -/
def coeffID (t : Term) : Nat := ((t &&& maskCoeffID) >>> shiftCoeffID).toNat

/-! ## The masks, bit by bit -/

private theorem getLsbD_maskWireID (i : Nat) :
    maskWireID.getLsbD i = decide (i < 29) := by
  by_cases h : i < 64
  · revert h
    revert i
    decide
  · have hge : 64 ≤ i := by omega
    rw [BitVec.getLsbD_of_ge _ _ hge]
    simp
    omega

private theorem getLsbD_maskCoeffID (i : Nat) :
    maskCoeffID.getLsbD i = decide (29 ≤ i ∧ i < 59) := by
  by_cases h : i < 64
  · revert h
    revert i
    decide
  · have hge : 64 ≤ i := by omega
    rw [BitVec.getLsbD_of_ge _ _ hge]
    simp
    omega

private theorem maskCoeffID_shifted :
    maskCoeffID >>> shiftCoeffID = BitVec.ofNat 64 (2 ^ 30 - 1) := by decide

private theorem and_ones_eq_iff (n k : Nat) (hn : n < 2 ^ 64) (hk : k ≤ 64) :
    BitVec.ofNat 64 n &&& BitVec.ofNat 64 (2 ^ k - 1) = BitVec.ofNat 64 n ↔
      n < 2 ^ k := by
  have hpow : 2 ^ k ≤ 2 ^ 64 := Nat.pow_le_pow_right (by omega) hk
  have hmask : (2 ^ k - 1) % 2 ^ 64 = 2 ^ k - 1 := by
    apply Nat.mod_eq_of_lt
    have := Nat.two_pow_pos k
    omega
  rw [← BitVec.toNat_inj, BitVec.toNat_and, BitVec.toNat_ofNat,
    BitVec.toNat_ofNat, Nat.mod_eq_of_lt hn, hmask, Nat.and_two_pow_sub_one_eq_mod]
  constructor
  · intro h
    rw [← h]
    exact Nat.mod_lt _ (Nat.two_pow_pos k)
  · exact Nat.mod_eq_of_lt

/-! ## The setters -/

theorem setCoeffID_ok_iff (t t' : Term) (c : Nat) (hc : c < 2 ^ 64) :
    t.setCoeffID c = .ok t' ↔ c < 2 ^ 30 ∧
      t' = (t &&& ~~~maskCoeffID) ||| (BitVec.ofNat 64 c <<< shiftCoeffID) := by
  have hfit := and_ones_eq_iff c 30 hc (by omega)
  simp only [setCoeffID, maskCoeffID_shifted, ne_eq, hfit]
  by_cases h : c < 2 ^ 30
  · simp only [h, not_true_eq_false, if_false, Except.ok.injEq, true_and]
    exact eq_comm
  · simp only [h, not_false_eq_true, if_true, reduceCtorEq, false_and]

theorem setWireID_ok_iff (t t' : Term) (w : Nat) (hw : w < 2 ^ 64) :
    t.setWireID w = .ok t' ↔ w < 2 ^ 29 ∧
      t' = (t &&& ~~~maskWireID) ||| BitVec.ofNat 64 w := by
  have hfit := and_ones_eq_iff w 29 hw (by omega)
  have hmask : maskWireID = BitVec.ofNat 64 (2 ^ 29 - 1) := by decide
  simp only [setWireID, hmask, ne_eq, hfit]
  by_cases h : w < 2 ^ 29
  · simp only [h, not_true_eq_false, if_false, Except.ok.injEq, true_and]
    exact eq_comm
  · simp only [h, not_false_eq_true, if_true, reduceCtorEq, false_and]

/-! ## Reading the fields back -/

private theorem getLsbD_ofNat_of_ge {n k i : Nat} (hn : n < 2 ^ k) (hi : k ≤ i) :
    (BitVec.ofNat 64 n).getLsbD i = false := by
  have hpow : 2 ^ k ≤ 2 ^ i := Nat.pow_le_pow_right (by omega) hi
  have hbit : n.testBit i = false := Nat.testBit_lt_two_pow (by omega)
  simp [BitVec.getLsbD_ofNat, hbit]

theorem coeffID_setCoeffID {t t' : Term} {c : Nat} (h : t.setCoeffID c = .ok t')
    (hc : c < 2 ^ 30) : t'.coeffID = c := by
  obtain ⟨_, rfl⟩ := (setCoeffID_ok_iff t t' c (by omega)).1 h
  have hword : (((t &&& ~~~maskCoeffID) |||
      (BitVec.ofNat 64 c <<< shiftCoeffID)) &&& maskCoeffID) >>> shiftCoeffID =
      BitVec.ofNat 64 c := by
    apply BitVec.eq_of_getLsbD_eq
    intro i hi
    simp only [BitVec.getLsbD_ushiftRight, BitVec.getLsbD_and,
      BitVec.getLsbD_or, BitVec.getLsbD_not, BitVec.getLsbD_shiftLeft,
      getLsbD_maskCoeffID, shiftCoeffID, nbBitsWireID]
    by_cases hlow : i < 30
    · have hin : 29 + i < 64 := by omega
      simp [hin, show 29 + i < 59 by omega]
    · rw [getLsbD_ofNat_of_ge hc (by omega : 30 ≤ i)]
      simp
      omega
  rw [coeffID, hword, BitVec.toNat_ofNat]
  exact Nat.mod_eq_of_lt (by omega)

theorem coeffID_setWireID {t t' : Term} {w : Nat} (h : t.setWireID w = .ok t')
    (hw : w < 2 ^ 29) : t'.coeffID = t.coeffID := by
  obtain ⟨_, rfl⟩ := (setWireID_ok_iff t t' w (by omega)).1 h
  have hword : ((t &&& ~~~maskWireID) ||| BitVec.ofNat 64 w) &&& maskCoeffID =
      t &&& maskCoeffID := by
    apply BitVec.eq_of_getLsbD_eq
    intro i hi
    simp only [BitVec.getLsbD_and, BitVec.getLsbD_or, BitVec.getLsbD_not,
      getLsbD_maskCoeffID, getLsbD_maskWireID]
    by_cases h29 : 29 ≤ i
    · rw [getLsbD_ofNat_of_ge hw h29]
      simp [show ¬i < 29 by omega, hi]
    · simp [h29]
  rw [coeffID, hword, coeffID]

theorem wireID_setWireID {t t' : Term} {w : Nat} (h : t.setWireID w = .ok t')
    (hw : w < 2 ^ 29) : t'.wireID = w := by
  obtain ⟨_, rfl⟩ := (setWireID_ok_iff t t' w (by omega)).1 h
  have hword : ((t &&& ~~~maskWireID) ||| BitVec.ofNat 64 w) &&& maskWireID =
      BitVec.ofNat 64 w := by
    apply BitVec.eq_of_getLsbD_eq
    intro i hi
    simp only [BitVec.getLsbD_and, BitVec.getLsbD_or, BitVec.getLsbD_not,
      getLsbD_maskWireID]
    by_cases h29 : i < 29
    · simp [h29]
    · simp [h29, getLsbD_ofNat_of_ge hw (by omega : 29 ≤ i)]
  rw [wireID, hword, BitVec.toNat_ofNat]
  exact Nat.mod_eq_of_lt (by omega)

/-- **Setting the coefficient id.** -/
theorem setCoeffID_fits (t : Term) {c : Nat} (hc : c < 2 ^ 30) :
    ∃ t', t.setCoeffID c = .ok t' ∧ t'.coeffID = c := by
  have hset := (setCoeffID_ok_iff t _ c (by omega)).2 ⟨hc, rfl⟩
  exact ⟨_, hset, coeffID_setCoeffID hset hc⟩

/-- **Setting the wire id** keeps the coefficient id. -/
theorem setWireID_fits (t : Term) {w : Nat} (hw : w < 2 ^ 29) :
    ∃ t', t.setWireID w = .ok t' ∧ t'.wireID = w ∧ t'.coeffID = t.coeffID := by
  have hset := (setWireID_ok_iff t _ w (by omega)).2 ⟨hw, rfl⟩
  exact ⟨_, hset, wireID_setWireID hset hw, coeffID_setWireID hset hw⟩

end Term

end ProverNetwork.Ports
