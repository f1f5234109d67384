import Mathlib.Data.Int.Basic
import Mathlib.Data.List.Basic

/-!
# Decimal numerals inside texts

The decimal text of an integer determines the integer, and consists of digits
and at most a sign; so a text that ends in a separator and a numeral can be
taken apart again.

## Main results

* `notMem_toString`, `toString_inj` — numerals.
* `append_sep_inj` — the last separator splits a text.
-/

namespace ProverNetwork.Verified

/-- The decimal digits of a natural number are digits. -/
theorem notMem_repr {c : Char} (hc : c.isDigit = false) (n : Nat) : c ∉ (Nat.repr n).toList := by
  intro hmem
  rw [Nat.toList_repr] at hmem
  have hdigit := Nat.isDigit_of_mem_toDigits (by decide) (by decide) hmem
  exact Bool.noConfusion (hc.symm.trans hdigit)

theorem toList_toString (n : Int) : (toString n).toList =
    match n with
    | .ofNat m => (Nat.repr m).toList
    | .negSucc m => '-' :: (Nat.repr (m + 1)).toList := by
  show (Int.repr n).toList = _
  cases n with
  | ofNat m => rfl
  | negSucc m =>
      rw [Int.repr, String.toList_append]
      rfl

/-- A character that is neither a digit nor the sign does not occur. -/
theorem notMem_toString {c : Char} (hc : c.isDigit = false) (hsign : c ≠ '-') (n : Int) :
    c ∉ (toString n).toList := by
  rw [toList_toString]
  cases n with
  | ofNat m => exact notMem_repr hc m
  | negSucc m =>
      intro hmem
      rcases List.mem_cons.1 hmem with hminus | hdigits
      · exact hsign hminus
      · exact notMem_repr hc _ hdigits

theorem natRepr_inj {m n : Nat} (h : (Nat.repr m).toList = (Nat.repr n).toList) : m = n := by
  rw [Nat.toList_repr, Nat.toList_repr] at h
  rw [← Nat.ofDigitChars_toDigits (b := 10) (n := m) (by decide) (by decide), h,
    Nat.ofDigitChars_toDigits (by decide) (by decide)]

theorem toString_inj {m n : Int} (h : (toString m).toList = (toString n).toList) : m = n := by
  rw [toList_toString, toList_toString] at h
  cases m with
  | ofNat m =>
      cases n with
      | ofNat n => rw [natRepr_inj h]
      | negSucc n =>
          have hlist : (Nat.repr m).toList = '-' :: (Nat.repr (n + 1)).toList := h
          exact absurd (hlist ▸ List.mem_cons_self) (notMem_repr (c := '-') (by decide) m)
  | negSucc m =>
      cases n with
      | ofNat n =>
          have hlist : '-' :: (Nat.repr (m + 1)).toList = (Nat.repr n).toList := h
          exact absurd (hlist ▸ List.mem_cons_self) (notMem_repr (c := '-') (by decide) n)
      | negSucc n => rw [Nat.succ_injective (natRepr_inj (List.cons.inj h).2)]

/-- Two lists that end in separator-free parts are split at the last separator. -/
theorem append_sep_inj {α : Type*} {s : α} {x y d e : List α} (hd : s ∉ d) (he : s ∉ e)
    (h : x ++ s :: d = y ++ s :: e) : x = y ∧ d = e := by
  rcases List.append_eq_append_iff.1 h with ⟨t, hy, htail⟩ | ⟨t, hx, htail⟩
  · cases t with
    | nil =>
        rw [List.append_nil] at hy
        exact ⟨hy.symm, (List.cons.inj htail).2⟩
    | cons a t =>
        have hrest : d = t ++ s :: e := (List.cons.inj htail).2
        exact absurd (hrest ▸ List.mem_append_right t List.mem_cons_self) hd
  · cases t with
    | nil =>
        rw [List.append_nil] at hx
        exact ⟨hx, (List.cons.inj htail).2.symm⟩
    | cons a t =>
        have hrest : e = t ++ s :: d := (List.cons.inj htail).2
        exact absurd (hrest ▸ List.mem_append_right t List.mem_cons_self) he

end ProverNetwork.Verified
