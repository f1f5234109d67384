import ProverNetwork.Ports.OAuthModulus

/-!
# The limbs of a number

Three providers write a number as limbs with the same loop of shifts and a mask.
`str` raises on a limb of more than 4300 digits; the providers are set up with limbs
of 121 bits, and no limb of up to 14284 bits is that long.

## Main results

* `toCircomBigintBytes_ok` — the loop returns what the comparison of keys uses.
* `decomposition_positional` — the limbs stand for the number, modulo what they hold.
* `wideLimb_raises` — a limb that is too long.
-/

namespace ProverNetwork.Ports

open ProverNetwork.Verified

/-- The first number of more than 4300 digits. -/
@[irreducible] def firstTooLong : Nat := 10 ^ 4300

/-- `str(n)`, which refuses more than 4300 digits. -/
def str (n : Nat) : Except PyError String :=
  if n < firstTooLong then .ok (toString n) else .error .valueError

namespace Provider

/-- The body of `_to_circom_bigint_bytes`. -/
def circomBigintBytes (p : Provider) (num : Nat) : Except PyError (List String) :=
  let msk := (1 <<< p.circom_bigint_n) - 1
  (List.range p.circom_bigint_k).mapM (fun i =>
    let shifted := num >>> (i * p.circom_bigint_n)
    let chunk := shifted &&& msk
    str chunk)

end Provider

/-- `_to_circom_bigint_bytes` of the Google provider. -/
def Google.toCircomBigintBytes (p : Provider) (num : Nat) : Except PyError (List String) :=
  p.circomBigintBytes num

/-- `_to_circom_bigint_bytes` of the X.509 provider. -/
def X509Google.toCircomBigintBytes (p : Provider) (num : Nat) : Except PyError (List String) :=
  p.circomBigintBytes num

/-- `_to_circom_bigint_bytes` of the Telegram provider. -/
def Telegram.toCircomBigintBytes (p : Provider) (num : Nat) : Except PyError (List String) :=
  p.circomBigintBytes num

namespace Provider

/-- The texts of some limbs, all of them short enough or none. -/
theorem mapM_str (limbs : List Nat) :
    limbs.mapM str =
      if ∀ limb ∈ limbs, limb < firstTooLong then .ok (limbs.map toString)
      else .error .valueError := by
  induction limbs with
  | nil => rfl
  | cons limb limbs ih =>
      rw [List.mapM_cons, ih]
      by_cases hlimb : limb < firstTooLong
      · by_cases hlimbs : ∀ limb ∈ limbs, limb < firstTooLong
        · have hcons : ∀ l ∈ limb :: limbs, l < firstTooLong :=
            List.forall_mem_cons.2 ⟨hlimb, hlimbs⟩
          rw [if_pos hlimbs, if_pos hcons, str, if_pos hlimb]
          rfl
        · have hcons : ¬∀ l ∈ limb :: limbs, l < firstTooLong :=
            fun h => hlimbs (List.forall_mem_cons.1 h).2
          rw [if_neg hlimbs, if_neg hcons, str, if_pos hlimb]
          rfl
      · have hcons : ¬∀ l ∈ limb :: limbs, l < firstTooLong :=
          fun h => hlimb (List.forall_mem_cons.1 h).1
        rw [if_neg hcons, str, if_neg hlimb]
        rfl

theorem circomBigintBytes_eq (p : Provider) (num : Nat) :
    p.circomBigintBytes num =
      (fixedDigits (2 ^ p.circom_bigint_n) p.circom_bigint_k num).mapM str := by
  rw [← map_shift_eq_fixedDigits, List.mapM_map, circomBigintBytes, Nat.one_shiftLeft]
  rfl

/-- **The loop returns the texts that are compared**, up to 14284 bits a limb. -/
theorem toCircomBigintBytes_ok {p : Provider} (hwidth : p.circom_bigint_n ≤ 14284) (num : Nat) :
    Google.toCircomBigintBytes p num = .ok (p.toCircomBigintBytes num) := by
  have hfits : 2 ^ p.circom_bigint_n ≤ firstTooLong :=
    (Nat.pow_le_pow_right (by decide) hwidth).trans (by decide +kernel)
  have hshort : ∀ limb ∈ fixedDigits (2 ^ p.circom_bigint_n) p.circom_bigint_k num,
      limb < firstTooLong :=
    fun limb hmem => (fixedDigits_lt (Nat.two_pow_pos _) _ _ limb hmem).trans_le hfits
  rw [Google.toCircomBigintBytes, circomBigintBytes_eq, mapM_str, if_pos hshort,
    toCircomBigintBytes_eq]

/-- Texts that are returned determine the limbs. -/
theorem fixedDigits_of_texts {p : Provider} {num : Nat} {texts : List String}
    (h : Google.toCircomBigintBytes p num = .ok texts) :
    texts = (fixedDigits (2 ^ p.circom_bigint_n) p.circom_bigint_k num).map toString := by
  rw [Google.toCircomBigintBytes, circomBigintBytes_eq, mapM_str] at h
  split at h
  next => exact (Except.ok.inj h).symm
  next => cases h

/-- **Limb decomposition is positional.**  There are as many limbs as the provider asks
for, each below its width, and they stand for the number modulo what they hold; the loop
returns their texts where none of them is too long for `str`.  Numbers the limbs can hold
are told apart by the texts, and the three copies of the loop return the same. -/
theorem decomposition_positional (p : Provider) (num : Nat) :
    (∃ limbs : List Nat, limbs.length = p.circom_bigint_k ∧
      (∀ limb ∈ limbs, limb < 2 ^ p.circom_bigint_n) ∧
      p.limbSum limbs = num % 2 ^ (p.circom_bigint_n * p.circom_bigint_k) ∧
      Google.toCircomBigintBytes p num =
        if ∀ limb ∈ limbs, limb < firstTooLong then .ok (limbs.map toString)
        else .error .valueError) ∧
    (∀ num' texts, num < 2 ^ (p.circom_bigint_n * p.circom_bigint_k) →
      num' < 2 ^ (p.circom_bigint_n * p.circom_bigint_k) →
      Google.toCircomBigintBytes p num = .ok texts →
      Google.toCircomBigintBytes p num' = .ok texts → num = num') ∧
    X509Google.toCircomBigintBytes p num = Google.toCircomBigintBytes p num ∧
    Telegram.toCircomBigintBytes p num = Google.toCircomBigintBytes p num := by
  have hvalue : ∀ m, p.limbSum (fixedDigits (2 ^ p.circom_bigint_n) p.circom_bigint_k m) =
      m % 2 ^ (p.circom_bigint_n * p.circom_bigint_k) := by
    intro m
    rw [limbSum_eq, ofDigits_fixedDigits, Nat.pow_mul]
  refine ⟨⟨fixedDigits (2 ^ p.circom_bigint_n) p.circom_bigint_k num, length_fixedDigits _ _ _,
    fixedDigits_lt (Nat.two_pow_pos _) _ _, hvalue num, ?_⟩, ?_, rfl, rfl⟩
  · rw [Google.toCircomBigintBytes, circomBigintBytes_eq, mapM_str]
  · intro num' texts hnum hnum' htexts htexts'
    have hmap := (fixedDigits_of_texts htexts).symm.trans (fixedDigits_of_texts htexts')
    have hlimbs := List.map_injective_iff.2 toString_nat_injective hmap
    have hsum := (hvalue num).symm.trans ((congrArg p.limbSum hlimbs).trans (hvalue num'))
    rwa [Nat.mod_eq_of_lt hnum, Nat.mod_eq_of_lt hnum'] at hsum

/-- Three limbs of two bits tell 27 from the other numbers they hold. -/
theorem threeLimbs_positional :
    Google.toCircomBigintBytes ⟨2, 3, none⟩ 27 = .ok ["3", "2", "1"] ∧
      ∀ num' < 64, Google.toCircomBigintBytes ⟨2, 3, none⟩ num' = .ok ["3", "2", "1"] →
        27 = num' := by
  have htexts : Google.toCircomBigintBytes ⟨2, 3, none⟩ 27 = .ok ["3", "2", "1"] := by
    rw [toCircomBigintBytes_ok (by decide)]
    rfl
  refine ⟨htexts, fun num' hnum' htexts' => ?_⟩
  exact (decomposition_positional ⟨2, 3, none⟩ 27).2.1 num' _ (by decide) hnum' htexts htexts'

/-- One limb of 14285 bits, all of them set, has 4301 digits. -/
theorem wideLimb_raises :
    1 ≤ (14285 : Nat) ∧ ¬∃ texts,
      Google.toCircomBigintBytes ⟨14285, 1, none⟩ (2 ^ 14285 - 1) = .ok texts := by
  have hraises : (Google.toCircomBigintBytes ⟨14285, 1, none⟩ (2 ^ 14285 - 1)).isOk = false := by
    decide +kernel
  refine ⟨by decide, ?_⟩
  rintro ⟨texts, htexts⟩
  rw [htexts] at hraises
  cases hraises

end Provider

end ProverNetwork.Ports
