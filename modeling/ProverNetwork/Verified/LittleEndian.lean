import Mathlib.Data.Nat.Digits.Defs
import Mathlib.Tactic.Linarith

/-!
# Little-endian numbers in byte strings

`leBytes k n` writes `n` in `k` bytes, least significant first, and `ofLE`
reads such a string back.  `setBytes` reads the other way round.  The loop
`reverseInPlace` swaps the two ends of a byte string inwards, which is how a
decoder gets from one order to the other without a second buffer.

## Main results

* `ofLE_leBytes` — writing and reading back is the identity below `256 ^ k`.
* `reverseInPlace_eq_reverse` — the swap loop reverses.
* `map_words` — big-endian words in a row are read back.
* `setBytes_reverse` — a big-endian read of the reversed string is the
  little-endian read.
-/

namespace ProverNetwork.Verified

/-- The number a byte string stands for, least significant byte first. -/
def ofLE (bs : List UInt8) : Nat := Nat.ofDigits 256 (bs.map UInt8.toNat)

/-- `k` bytes of `n`, least significant first. -/
def leBytes : Nat → Nat → List UInt8
  | 0, _ => []
  | k + 1, n => UInt8.ofNat (n % 256) :: leBytes k (n / 256)

@[simp] theorem ofLE_nil : ofLE [] = 0 := rfl

@[simp] theorem ofLE_cons (b : UInt8) (bs : List UInt8) :
    ofLE (b :: bs) = b.toNat + 256 * ofLE bs := by
  simp [ofLE, Nat.ofDigits_cons]

theorem ofLE_lt (bs : List UInt8) : ofLE bs < 256 ^ bs.length := by
  induction bs with
  | nil => simp
  | cons b bs ih =>
      have hb : b.toNat < 256 := b.toNat_lt
      have hpow : 256 ^ (bs.length + 1) = 256 ^ bs.length * 256 := pow_succ _ _
      simp only [ofLE_cons, List.length_cons]
      omega

@[simp] theorem length_leBytes (k n : Nat) : (leBytes k n).length = k := by
  induction k generalizing n with
  | zero => rfl
  | succ k ih => simp [leBytes, ih]

/-- **Writing and reading back.** -/
theorem ofLE_leBytes (k n : Nat) (h : n < 256 ^ k) : ofLE (leBytes k n) = n := by
  induction k generalizing n with
  | zero => simp [leBytes] at h ⊢; omega
  | succ k ih =>
      have hpow : 256 ^ (k + 1) = 256 ^ k * 256 := pow_succ _ _
      have hdiv : n / 256 < 256 ^ k := by omega
      have hbyte : (UInt8.ofNat (n % 256)).toNat = n % 256 := by
        simp [UInt8.toNat_ofNat']
      simp only [leBytes, ofLE_cons, ih _ hdiv, hbyte]
      omega

/-- Strings of one length that stand for one number are equal. -/
theorem ofLE_inj {as bs : List UInt8} (hlen : as.length = bs.length)
    (h : ofLE as = ofLE bs) : as = bs := by
  induction as generalizing bs with
  | nil => exact (List.length_eq_zero_iff.1 hlen.symm).symm
  | cons a as ih =>
      cases bs with
      | nil => simp at hlen
      | cons b bs =>
          have ha : a.toNat < 256 := a.toNat_lt
          have hb : b.toNat < 256 := b.toNat_lt
          simp only [ofLE_cons] at h
          have hbyte : a = b := UInt8.toNat_inj.1 (by omega)
          have hrest : as = bs := ih (by simpa using hlen) (by omega)
          rw [hbyte, hrest]

/-- A 32-bit word from shifted bytes. -/
theorem ofLE_four (b0 b1 b2 b3 : UInt8) :
    ofLE [b0, b1, b2, b3] =
      b0.toNat + b1.toNat <<< 8 + b2.toNat <<< 16 + b3.toNat <<< 24 := by
  simp only [ofLE_cons, ofLE_nil, Nat.shiftLeft_eq]
  omega

/-- A 64-bit word from shifted bytes. -/
theorem ofLE_eight (b0 b1 b2 b3 b4 b5 b6 b7 : UInt8) :
    ofLE [b0, b1, b2, b3, b4, b5, b6, b7] =
      b0.toNat + b1.toNat <<< 8 + b2.toNat <<< 16 + b3.toNat <<< 24 +
        b4.toNat <<< 32 + b5.toNat <<< 40 + b6.toNat <<< 48 + b7.toNat <<< 56 := by
  simp only [ofLE_cons, ofLE_nil, Nat.shiftLeft_eq]
  omega

/-! ## Big-endian reads -/

/-- The number a byte string stands for, most significant byte first. -/
def setBytes (bs : List UInt8) : Nat :=
  bs.foldl (fun acc b => acc * 256 + b.toNat) 0

theorem setBytes_append_singleton (bs : List UInt8) (b : UInt8) :
    setBytes (bs ++ [b]) = setBytes bs * 256 + b.toNat := by
  simp [setBytes]

theorem setBytes_reverse (bs : List UInt8) : setBytes bs.reverse = ofLE bs := by
  induction bs with
  | nil => rfl
  | cons b bs ih =>
      rw [List.reverse_cons, setBytes_append_singleton, ih, ofLE_cons]
      omega

theorem setBytes_eq_ofLE (bs : List UInt8) : setBytes bs = ofLE bs.reverse := by
  rw [← setBytes_reverse, List.reverse_reverse]

theorem setBytes_lt (bs : List UInt8) : setBytes bs < 256 ^ bs.length := by
  have h := ofLE_lt bs.reverse
  rwa [← setBytes_eq_ofLE, List.length_reverse] at h

theorem setBytes_inj {as bs : List UInt8} (hlen : as.length = bs.length)
    (h : setBytes as = setBytes bs) : as = bs := by
  rw [setBytes_eq_ofLE, setBytes_eq_ofLE] at h
  exact List.reverse_inj.1 (ofLE_inj (by simpa using hlen) h)

/-- `k` bytes of `n`, most significant first. -/
def beBytes (k n : Nat) : List UInt8 := (leBytes k n).reverse

@[simp] theorem length_beBytes (k n : Nat) : (beBytes k n).length = k := by
  simp [beBytes]

theorem setBytes_beBytes {k n : Nat} (h : n < 256 ^ k) : setBytes (beBytes k n) = n := by
  rw [beBytes, setBytes_reverse, ofLE_leBytes k n h]

theorem beBytes_setBytes {k : Nat} {bs : List UInt8} (h : bs.length = k) :
    beBytes k (setBytes bs) = bs := by
  apply setBytes_inj ((length_beBytes k _).trans h.symm)
  exact setBytes_beBytes (h ▸ setBytes_lt bs)

/-- **Words of one width**, one after the other, are read back at their offsets. -/
theorem map_words (k : Nat) {xs : List Nat} (hxs : ∀ x ∈ xs, x < 256 ^ k) :
    (List.range xs.length).map (fun i =>
      setBytes (((xs.flatMap (beBytes k)).drop (k * i)).take k)) = xs := by
  induction xs with
  | nil => rfl
  | cons x xs ih =>
      obtain ⟨hx, hrest⟩ := List.forall_mem_cons.1 hxs
      have hfirst : (beBytes k x ++ xs.flatMap (beBytes k)).take k = beBytes k x :=
        List.take_left' (length_beBytes k x)
      have hdrop : ∀ i, (beBytes k x ++ xs.flatMap (beBytes k)).drop (k * (i + 1)) =
          (xs.flatMap (beBytes k)).drop (k * i) := by
        intro i
        rw [Nat.mul_succ, Nat.add_comm, ← List.drop_drop, List.drop_left' (length_beBytes k x)]
      rw [List.length_cons, List.range_succ_eq_map, List.map_cons, List.map_map, List.flatMap_cons,
        Nat.mul_zero, List.drop_zero, hfirst, setBytes_beBytes hx]
      refine congrArg (x :: ·) (Eq.trans ?_ (ih hrest))
      refine List.map_congr_left (fun i _ => ?_)
      show setBytes (((beBytes k x ++ xs.flatMap (beBytes k)).drop (k * (i + 1))).take k) = _
      rw [hdrop]

/-! ## Reversal by swapping the ends -/

section Swap

variable {α : Type*}

/-- `data[i], data[j] = data[j], data[i]`, for indices inside the list. -/
def swapAt (data : List α) (i j : Nat) : List α :=
  match data[i]?, data[j]? with
  | some x, some y => (data.set i y).set j x
  | _, _ => data

/-- `for i := 0; i < len(data)/2; i++` over the swap of the two ends. -/
def reverseInPlace (data : List α) : List α :=
  (List.range (data.length / 2)).foldl
    (fun d i => swapAt d i (d.length - 1 - i)) data

@[simp] theorem length_swapAt (data : List α) (i j : Nat) :
    (swapAt data i j).length = data.length := by
  unfold swapAt
  split <;> simp

theorem getElem?_swapAt (data : List α) {i j : Nat} (hi : i < data.length)
    (hj : j < data.length) (x : Nat) :
    (swapAt data i j)[x]? =
      if x = j then data[i]? else if x = i then data[j]? else data[x]? := by
  simp only [swapAt, List.getElem?_eq_getElem hi, List.getElem?_eq_getElem hj]
  simp only [List.getElem?_set, List.length_set]
  by_cases hxj : x = j
  · simp [hxj, hj]
  · by_cases hxi : x = i
    · have hij : ¬i = j := hxi ▸ hxj
      simp [hxi, hi, hij, Ne.symm hij]
    · simp [hxj, hxi, Ne.symm hxj, Ne.symm hxi]

/-- After `k` swaps the outer `k` items on either side are exchanged and the
middle is untouched. -/
private theorem swaps_spec (data : List α) : ∀ k, k ≤ data.length / 2 →
    ((List.range k).foldl (fun d i => swapAt d i (d.length - 1 - i)) data).length
        = data.length ∧
    ∀ x, x < data.length →
      ((List.range k).foldl (fun d i => swapAt d i (d.length - 1 - i)) data)[x]? =
        if x < k ∨ data.length ≤ x + k then data[data.length - 1 - x]?
        else data[x]? := by
  intro k
  induction k with
  | zero =>
      intro _
      refine ⟨rfl, ?_⟩
      intro x hx
      rw [if_neg (by omega)]
      rfl
  | succ k ih =>
      intro hk
      obtain ⟨hlen, hget⟩ := ih (by omega)
      rw [List.range_succ, List.foldl_append]
      simp only [List.foldl_cons, List.foldl_nil, length_swapAt, hlen]
      refine ⟨trivial, ?_⟩
      intro x hx
      rw [getElem?_swapAt _ (by omega) (by omega)]
      have hleft := hget k (by omega)
      have hright := hget (data.length - 1 - k) (by omega)
      rw [if_neg (by omega)] at hleft hright
      by_cases hxr : x = data.length - 1 - k
      · rw [if_pos hxr, hleft, if_pos (by omega)]
        congr 1
        omega
      · by_cases hxl : x = k
        · rw [if_neg hxr, if_pos hxl, hright, if_pos (by omega), hxl]
        · rw [if_neg hxr, if_neg hxl, hget x hx]
          by_cases hin : x < k ∨ data.length ≤ x + k
          · rw [if_pos hin, if_pos (by omega)]
          · rw [if_neg hin, if_neg (by omega)]

/-- **The swap loop reverses.** -/
theorem reverseInPlace_eq_reverse (data : List α) :
    reverseInPlace data = data.reverse := by
  obtain ⟨hlen, hget⟩ := swaps_spec data (data.length / 2) (Nat.le_refl _)
  apply List.ext_getElem?
  intro x
  by_cases hx : x < data.length
  · rw [List.getElem?_reverse hx]
    refine (hget x hx).trans ?_
    by_cases hout : x < data.length / 2 ∨ data.length ≤ x + data.length / 2
    · rw [if_pos hout]
    · rw [if_neg hout]
      -- an odd length leaves its middle item where it is
      congr 1
      omega
  · have hl : (reverseInPlace data).length = data.length := hlen
    rw [List.getElem?_eq_none (by omega), List.getElem?_eq_none (by simp; omega)]

end Swap

end ProverNetwork.Verified
