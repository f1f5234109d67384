import Mathlib.Data.Int.Log
import Mathlib.Data.Rat.Floor
import Mathlib.Tactic.Linarith
import Mathlib.Tactic.Positivity
import Mathlib.Tactic.Push
import Mathlib.Tactic.Ring

/-!
# Rounding to 64-bit floating point

A finite `float64` is kept by its value.  `toNearest` rounds a rational to 53 bits, ties to
even, with the exponent bounded from below; `parseFloat` refuses what is rounded past the
largest number.

## Main results

* `toNearest_intCast` — an integer is rounded to an integer.
* `toNearest_eq_self_iff` — the integers that are kept.
-/

namespace ProverNetwork.Verified.Binary64

/-- The nearest integer, the even one of two. -/
def roundEven (x : ℚ) : ℤ :=
  let low := ⌊x⌋
  if x - low < 1 / 2 then low
  else if 1 / 2 < x - low then low + 1
  else if low % 2 = 0 then low else low + 1

/-- The exponent of the last of 53 bits. -/
def exponent (x : ℚ) : ℤ := max (Int.log 2 |x| - 52) (-1074)

/-- The nearest number of 53 bits. -/
def toNearest (x : ℚ) : ℚ := roundEven (x / 2 ^ exponent x) * 2 ^ exponent x

/-- `strconv.ParseFloat` on a numeral of this value; `none` is a range error. -/
def parseFloat (x : ℚ) : Option ℚ :=
  if |toNearest x| < 2 ^ 1024 then some (toNearest x) else none

/-- The integer has 53 significant bits at most. -/
def Fits (n : ℤ) : Prop := ∃ (m : ℤ) (k : ℕ), |m| < 2 ^ 53 ∧ n = m * 2 ^ k

theorem roundEven_intCast (n : ℤ) : roundEven n = n := by
  rw [roundEven, Int.floor_intCast, sub_self]
  exact if_pos (by norm_num)

/-- A multiple of the last bit is kept. -/
theorem toNearest_of_multiple {x : ℚ} {m : ℤ} (h : x = m * 2 ^ exponent x) : toNearest x = x := by
  have hbit : (2 : ℚ) ^ exponent x ≠ 0 := zpow_ne_zero _ two_ne_zero
  have hquotient : x / 2 ^ exponent x = m := by
    rw [div_eq_iff hbit]
    exact h
  rw [toNearest, hquotient, roundEven_intCast, ← h]

/-- Integers are multiples of a bit behind the point. -/
theorem exists_multiple (n : ℤ) {e : ℤ} (he : e ≤ 0) : ∃ m : ℤ, (n : ℚ) = m * 2 ^ e := by
  obtain ⟨k, hk⟩ : ∃ k : ℕ, e = -(k : ℤ) := ⟨(-e).toNat, by omega⟩
  refine ⟨n * 2 ^ k, ?_⟩
  have hbit : (2 : ℚ) ^ k ≠ 0 := pow_ne_zero k two_ne_zero
  rw [hk, zpow_neg, zpow_natCast]
  push_cast
  rw [mul_assoc, mul_inv_cancel₀ hbit, mul_one]

theorem log_lt {n : ℤ} (hn : n ≠ 0) {p : ℕ} (h : |n| < 2 ^ p) : Int.log 2 |(n : ℚ)| < p := by
  have hpos : 0 < |(n : ℚ)| := abs_pos.2 (Int.cast_ne_zero.2 hn)
  apply (Int.lt_zpow_iff_log_lt (b := 2) (by decide) hpos).1
  rw [zpow_natCast]
  exact_mod_cast h

/-- Below `2 ^ 53` the last bit is no larger than one. -/
theorem exponent_nonpos {n : ℤ} (h : |n| < 2 ^ 53) : exponent n ≤ 0 := by
  by_cases hn : n = 0
  · rw [hn, exponent, Int.cast_zero, abs_zero, Int.log_zero_right]
    decide
  · have hlog := log_lt hn h
    rw [exponent]
    omega

theorem toNearest_of_lt {n : ℤ} (h : |n| < 2 ^ 53) : toNearest n = n := by
  obtain ⟨m, hm⟩ := exists_multiple n (exponent_nonpos h)
  exact toNearest_of_multiple hm

/-- **An integer is rounded to an integer.** -/
theorem toNearest_intCast (n : ℤ) : ∃ r : ℤ, toNearest n = r := by
  by_cases he : exponent n ≤ 0
  · obtain ⟨m, hm⟩ := exists_multiple n he
    exact ⟨n, toNearest_of_multiple hm⟩
  · obtain ⟨k, hk⟩ : ∃ k : ℕ, exponent n = k := ⟨(exponent n).toNat, by omega⟩
    refine ⟨roundEven (n / 2 ^ exponent n) * 2 ^ k, ?_⟩
    rw [toNearest, hk, zpow_natCast]
    push_cast
    rfl

/-- An integer is below the fifty-fourth bit from its last one. -/
theorem abs_lt_of_exponent {n : ℤ} {k : ℕ} (hk : exponent n ≤ k) : |n| < 2 ^ (53 + k) := by
  have hlog : Int.log 2 |(n : ℚ)| + 1 ≤ ((53 + k : ℕ) : ℤ) := by
    rw [exponent] at hk
    omega
  have hlt := Int.lt_zpow_succ_log_self (b := 2) (by decide) |(n : ℚ)|
  have hle : ((2 : ℕ) : ℚ) ^ (Int.log 2 |(n : ℚ)| + 1) ≤ ((2 : ℕ) : ℚ) ^ ((53 + k : ℕ) : ℤ) :=
    zpow_le_zpow_right₀ (by norm_num) hlog
  have hbound := hlt.trans_le hle
  rw [zpow_natCast] at hbound
  exact_mod_cast hbound

theorem fits_of_toNearest {n : ℤ} (h : toNearest n = n) : Fits n := by
  by_cases he : exponent n ≤ 0
  · exact ⟨n, 0, abs_lt_of_exponent (k := 0) he, by rw [pow_zero, mul_one]⟩
  · obtain ⟨k, hk⟩ : ∃ k : ℕ, exponent n = k := ⟨(exponent n).toNat, by omega⟩
    have hlt := abs_lt_of_exponent hk.le
    have hvalue : n = roundEven (n / 2 ^ exponent n) * 2 ^ k := by
      rw [toNearest, hk, zpow_natCast] at h
      rw [hk, zpow_natCast]
      exact_mod_cast h.symm
    refine ⟨roundEven (n / 2 ^ exponent n), k, ?_, hvalue⟩
    rw [hvalue, abs_mul, abs_pow, abs_two, pow_add] at hlt
    exact lt_of_mul_lt_mul_right hlt (by positivity)

theorem toNearest_of_fits {n : ℤ} (h : Fits n) : toNearest n = n := by
  obtain ⟨m, k, hm, hvalue⟩ := h
  by_cases he : exponent n ≤ 0
  · obtain ⟨m, hm⟩ := exists_multiple n he
    exact toNearest_of_multiple hm
  · -- the last bit of 53 is no smaller than that of `m`
    have hne : n ≠ 0 := by
      rintro rfl
      exact he (exponent_nonpos (by decide))
    have hsmall : |n| < 2 ^ (53 + k) := by
      rw [hvalue, abs_mul, abs_pow, abs_two, pow_add]
      exact mul_lt_mul_of_pos_right hm (by positivity)
    have hlog := log_lt hne hsmall
    obtain ⟨d, hd⟩ : ∃ d : ℕ, (k : ℤ) = exponent n + d := by
      refine ⟨((k : ℤ) - exponent n).toNat, ?_⟩
      rw [exponent] at he ⊢
      omega
    refine toNearest_of_multiple (m := m * 2 ^ d) ?_
    have hpow : (2 : ℚ) ^ k = 2 ^ d * 2 ^ exponent n := by
      rw [← zpow_natCast, hd, add_comm, zpow_add₀ two_ne_zero, zpow_natCast]
    have hcast : (n : ℚ) = m * 2 ^ k := by
      rw [hvalue]
      push_cast
      rfl
    push_cast
    rw [mul_assoc, ← hpow, hcast]

/-- **The integers that are kept** have 53 significant bits at most. -/
theorem toNearest_eq_self_iff {n : ℤ} : toNearest n = n ↔ Fits n :=
  ⟨fits_of_toNearest, toNearest_of_fits⟩

theorem parseFloat_of_toNearest {x r : ℚ} (h : toNearest x = r) (hr : |r| < 2 ^ 64) :
    parseFloat x = some r := by
  have hrange : |r| < 2 ^ 1024 := hr.trans_le (pow_le_pow_right₀ (by norm_num) (by norm_num))
  rw [parseFloat, h, if_pos hrange]

example : toNearest 9007199254740993 = 9007199254740992 := by decide +kernel

end ProverNetwork.Verified.Binary64
