import Mathlib.Algebra.Group.Nat.Defs
import Mathlib.Data.Nat.Digits.Defs
import Mathlib.Tactic.Ring

/-!
# Digits in a fixed width

`fixedDigits b k m` are the last `k` digits of `m` in base `b`, least
significant first; what does not fit is cut off.

## Main results

* `ofDigits_fixedDigits` — they stand for `m` modulo `b ^ k`.
* `fixedDigits_eq_iff` — a list of digits is that of a number where it stands
  for the number modulo `b ^ k`.
* `map_shift_eq_fixedDigits` — in base `2 ^ n` they come from shifts and a mask.
-/

namespace ProverNetwork.Verified

/-- The last `k` digits of `m`, least significant first. -/
def fixedDigits (b : Nat) : Nat → Nat → List Nat
  | 0, _ => []
  | k + 1, m => m % b :: fixedDigits b k (m / b)

@[simp] theorem length_fixedDigits (b k m : Nat) : (fixedDigits b k m).length = k := by
  induction k generalizing m with
  | zero => rfl
  | succ k ih => rw [fixedDigits, List.length_cons, ih]

theorem fixedDigits_lt {b : Nat} (hb : 0 < b) (k m : Nat) : ∀ d ∈ fixedDigits b k m, d < b := by
  induction k generalizing m with
  | zero => exact List.forall_mem_nil _
  | succ k ih => exact List.forall_mem_cons.2 ⟨Nat.mod_lt m hb, ih (m / b)⟩

/-- **The digits stand for the number modulo `b ^ k`.** -/
theorem ofDigits_fixedDigits (b k m : Nat) :
    Nat.ofDigits b (fixedDigits b k m) = m % b ^ k := by
  induction k generalizing m with
  | zero => rw [fixedDigits, Nat.ofDigits_nil, pow_zero, Nat.mod_one]
  | succ k ih => rw [fixedDigits, Nat.ofDigits_cons, ih, Nat.pow_succ', Nat.mod_mul]

/-- Digits are determined by the number they stand for. -/
theorem fixedDigits_ofDigits {b : Nat} {ds : List Nat} (hds : ∀ d ∈ ds, d < b) :
    fixedDigits b ds.length (Nat.ofDigits b ds) = ds := by
  induction ds with
  | nil => rfl
  | cons d ds ih =>
      obtain ⟨hd, hrest⟩ := List.forall_mem_cons.1 hds
      have hvalue : Nat.ofDigits b (d :: ds) = d + b * Nat.ofDigits b ds := Nat.ofDigits_cons
      have hmod : (d + b * Nat.ofDigits b ds) % b = d := by
        rw [Nat.add_mul_mod_self_left, Nat.mod_eq_of_lt hd]
      have hdiv : (d + b * Nat.ofDigits b ds) / b = Nat.ofDigits b ds := by
        rw [Nat.add_mul_div_left _ _ (Nat.zero_lt_of_lt hd), Nat.div_eq_of_lt hd, Nat.zero_add]
      rw [List.length_cons, fixedDigits, hvalue, hmod, hdiv, ih hrest]

theorem fixedDigits_mod {b : Nat} (hb : 0 < b) (k m : Nat) :
    fixedDigits b k (m % b ^ k) = fixedDigits b k m := by
  have h := fixedDigits_ofDigits (fixedDigits_lt hb k m)
  rwa [ofDigits_fixedDigits, length_fixedDigits] at h

/-- **The digits of a number** are the lists of `k` digits that stand for it
modulo `b ^ k`. -/
theorem fixedDigits_eq_iff {b : Nat} (hb : 0 < b) {k m : Nat} {ds : List Nat} :
    fixedDigits b k m = ds ↔
      ds.length = k ∧ (∀ d ∈ ds, d < b) ∧ Nat.ofDigits b ds = m % b ^ k := by
  constructor
  · rintro rfl
    exact ⟨length_fixedDigits b k m, fixedDigits_lt hb k m, ofDigits_fixedDigits b k m⟩
  · rintro ⟨rfl, hds, hvalue⟩
    rw [← fixedDigits_mod hb, ← hvalue, fixedDigits_ofDigits hds]

/-- Shifting out the lower digits and masking. -/
theorem map_shift_eq_fixedDigits (n k m : Nat) :
    (List.range k).map (fun i => (m >>> (i * n)) &&& (2 ^ n - 1)) = fixedDigits (2 ^ n) k m := by
  induction k generalizing m with
  | zero => rfl
  | succ k ih =>
      have hshift : ∀ i, m >>> ((i + 1) * n) = (m / 2 ^ n) >>> (i * n) := by
        intro i
        rw [← Nat.shiftRight_eq_div_pow, ← Nat.shiftRight_add, Nat.succ_mul, Nat.add_comm]
      rw [List.range_succ_eq_map, List.map_cons, List.map_map, fixedDigits, ← ih (m / 2 ^ n),
        Nat.zero_mul, Nat.shiftRight_zero, Nat.and_two_pow_sub_one_eq_mod]
      refine congrArg _ (List.map_congr_left (fun i _ => ?_))
      show (m >>> ((i + 1) * n)) &&& (2 ^ n - 1) = _
      rw [hshift]

end ProverNetwork.Verified
