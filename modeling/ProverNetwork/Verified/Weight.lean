import Mathlib.Algebra.Order.Group.Nat
import Mathlib.Data.List.Basic

/-!
# Weights of a list

The items of a list have weights, and the list weighs what its items weigh
together.  A list of messages, of tasks or of credits changes by one item at a
time, and its weight by the weight of that item; conservation laws are sums of
such changes.

## Main results

* `weight_append`, `weight_set`, `weight_eraseIdx` — how a list changes its
  weight.
* `weight_split_le` — the weights of the parts under distinct keys add up to no
  more than the whole.
-/

namespace ProverNetwork.Verified

variable {α κ : Type*}

/-- What the items weigh together. -/
def weight (f : α → Nat) : List α → Nat
  | [] => 0
  | a :: l => f a + weight f l

@[simp] theorem weight_nil (f : α → Nat) : weight f [] = 0 := rfl

@[simp] theorem weight_cons (f : α → Nat) (a : α) (l : List α) :
    weight f (a :: l) = f a + weight f l := rfl

@[simp] theorem weight_append (f : α → Nat) (l m : List α) :
    weight f (l ++ m) = weight f l + weight f m := by
  induction l with
  | nil => exact (Nat.zero_add _).symm
  | cons a l ih => rw [List.cons_append, weight_cons, weight_cons, ih, Nat.add_assoc]

/-- Overwriting an item exchanges its weight. -/
theorem weight_set (f : α → Nat) {l : List α} {i : Nat} {a : α} (h : l[i]? = some a) (b : α) :
    weight f (l.set i b) + f a = weight f l + f b := by
  induction l generalizing i with
  | nil => cases h
  | cons x l ih =>
      cases i with
      | zero =>
          rw [List.getElem?_cons_zero, Option.some.injEq] at h
          subst h
          rw [List.set_cons_zero, weight_cons, weight_cons]
          omega
      | succ i =>
          have hrest := ih (i := i) h
          rw [List.set_cons_succ, weight_cons, weight_cons]
          omega

/-- Taking an item out takes its weight. -/
theorem weight_eraseIdx (f : α → Nat) {l : List α} {i : Nat} {a : α} (h : l[i]? = some a) :
    weight f (l.eraseIdx i) + f a = weight f l := by
  induction l generalizing i with
  | nil => cases h
  | cons x l ih =>
      cases i with
      | zero =>
          rw [List.getElem?_cons_zero, Option.some.injEq] at h
          subst h
          rw [List.eraseIdx_cons_zero, weight_cons]
          omega
      | succ i =>
          have hrest := ih (i := i) h
          rw [List.eraseIdx_cons_succ, weight_cons, weight_cons]
          omega

theorem weight_mono {f g : α → Nat} {l : List α} (h : ∀ a ∈ l, f a ≤ g a) :
    weight f l ≤ weight g l := by
  induction l with
  | nil => exact le_rfl
  | cons a l ih =>
      have hhead := h a List.mem_cons_self
      have htail := ih (fun b hb => h b (List.mem_cons_of_mem a hb))
      rw [weight_cons, weight_cons]
      omega

theorem weight_map {β : Type*} (f : β → Nat) (g : α → β) (l : List α) :
    weight f (l.map g) = weight (fun a => f (g a)) l := by
  induction l with
  | nil => rfl
  | cons a l ih => rw [List.map_cons, weight_cons, weight_cons, ih]

theorem weight_const (c : Nat) (l : List α) : weight (fun _ => c) l = c * l.length := by
  induction l with
  | nil => rfl
  | cons a l ih => rw [weight_cons, List.length_cons, ih, Nat.mul_succ, Nat.add_comm]

theorem weight_le_mul {f : α → Nat} {c : Nat} {l : List α} (h : ∀ a ∈ l, f a ≤ c) :
    weight f l ≤ c * l.length := by
  induction l with
  | nil => exact le_rfl
  | cons a l ih =>
      have hhead := h a List.mem_cons_self
      have htail := ih (fun b hb => h b (List.mem_cons_of_mem a hb))
      rw [weight_cons, List.length_cons, Nat.mul_succ]
      omega

theorem weight_add (f g : α → Nat) (l : List α) :
    weight (fun a => f a + g a) l = weight f l + weight g l := by
  induction l with
  | nil => rfl
  | cons a l ih =>
      simp only [weight_cons, ih]
      omega

theorem weight_mul (c : Nat) (f : α → Nat) (l : List α) :
    weight (fun a => c * f a) l = c * weight f l := by
  induction l with
  | nil => rfl
  | cons a l ih => rw [weight_cons, weight_cons, ih, Nat.mul_add]

/-! ## Parts under keys -/

variable [DecidableEq κ]

/-- One item weighs at most its weight, under distinct keys together. -/
theorem weight_key_le {ks : List κ} (hnodup : ks.Nodup) (k : κ) (n : Nat) :
    weight (fun k' => if k = k' then n else 0) ks ≤ n := by
  induction ks with
  | nil => exact Nat.zero_le n
  | cons k' ks ih =>
      obtain ⟨hnew, hrest⟩ := List.nodup_cons.1 hnodup
      rw [weight_cons]
      by_cases hk : k = k'
      · have hzero : weight (fun k' => if k = k' then n else 0) ks ≤ 0 * ks.length := by
          apply weight_le_mul
          intro k₁ hk₁
          rw [if_neg (fun heq => hnew (by rw [← hk, heq]; exact hk₁))]
        rw [if_pos hk]
        omega
      · have hle := ih hrest
        rw [if_neg hk]
        omega

/-- **The parts weigh no more than the whole.**  Under distinct keys, the weights
of the items with each key add up to at most the weight of all items. -/
theorem weight_split_le (f : α → Nat) (key : α → κ) {ks : List κ} (hnodup : ks.Nodup)
    (l : List α) :
    weight (fun k => weight (fun a => if key a = k then f a else 0) l) ks ≤ weight f l := by
  induction l with
  | nil =>
      have hzero : weight (fun _ : κ => 0) ks ≤ 0 * ks.length :=
        weight_le_mul (fun _ _ => le_rfl)
      simpa using hzero
  | cons a l ih =>
      have hhead := weight_key_le hnodup (key a) (f a)
      simp only [weight_cons, weight_add]
      omega

end ProverNetwork.Verified
