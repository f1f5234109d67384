import Mathlib.Algebra.Group.Nat.Defs

/-!
# Binary hash trees

A level of a tree is its nodes by their index, and the level above hashes them in
pairs.  A climb starts at a leaf and hashes it with one sibling for each level, on
the side that the parity of the index tells.

A collision is never assumed away: where two climbs of the same length and index end
in the same root, they are the same climb or two different pairs on them have the
same hash.

## Main results

* `climb_path` — the siblings of a leaf lead to the root.
* `climb_unique` — two climbs to one root are the same, or they clash.
* `member_of_climb` — a climb to the root of a tree starts at its leaf.
-/

namespace ProverNetwork.Verified.MerkleTree

variable {α : Type*} (node : α → α → α)

/-- The level above. -/
def up (level : Nat → α) (i : Nat) : α := node (level (2 * i)) (level (2 * i + 1))

/-- The root over the first `2 ^ depth` nodes of a level. -/
def root : Nat → (Nat → α) → α
  | 0, level => level 0
  | depth + 1, level => root depth (up node level)

/-- The other child of the same parent. -/
def sibling (i : Nat) : Nat := if i % 2 = 1 then i - 1 else i + 1

/-- The siblings of a node, from its own level upwards. -/
def path : Nat → (Nat → α) → Nat → List α
  | 0, _, _ => []
  | depth + 1, level, i => level (sibling i) :: path depth (up node level) (i / 2)

/-- A node and its sibling, in the order in which they are hashed. -/
def ordered (i : Nat) (sum p : α) : α × α := if i % 2 = 1 then (p, sum) else (sum, p)

/-- The pairs that a climb hashes. -/
def pairs : Nat → α → List α → List (α × α)
  | _, _, [] => []
  | i, sum, p :: path =>
      let pair := ordered i sum p
      pair :: pairs (i / 2) (node pair.1 pair.2) path

/-- A climb from the node of that index. -/
def climb : Nat → α → List α → α
  | _, sum, [] => sum
  | i, sum, p :: path =>
      let pair := ordered i sum p
      climb (i / 2) (node pair.1 pair.2) path

/-- Two different pairs with the same hash, one of each list. -/
def Clash (xs ys : List (α × α)) : Prop :=
  ∃ x ∈ xs, ∃ y ∈ ys, x ≠ y ∧ node x.1 x.2 = node y.1 y.2

variable {node}

theorem path_length (depth : Nat) (level : Nat → α) (i : Nat) :
    (path node depth level i).length = depth := by
  induction depth generalizing level i with
  | zero => rfl
  | succ depth ih => rw [path, List.length_cons, ih]

/-- A node and its sibling are the children of the node above. -/
theorem ordered_sibling (level : Nat → α) (i : Nat) :
    ordered i (level i) (level (sibling i)) = (level (2 * (i / 2)), level (2 * (i / 2) + 1)) := by
  unfold ordered sibling
  by_cases hodd : i % 2 = 1
  · have hleft : 2 * (i / 2) = i - 1 := by omega
    have hright : 2 * (i / 2) + 1 = i := by omega
    rw [if_pos hodd, if_pos hodd, hleft, show i - 1 + 1 = i from by omega]
  · have hleft : 2 * (i / 2) = i := by omega
    rw [if_neg hodd, if_neg hodd, hleft]

/-- **The siblings of a leaf lead to the root.** -/
theorem climb_path (depth : Nat) (level : Nat → α) {i : Nat} (hi : i < 2 ^ depth) :
    climb node i (level i) (path node depth level i) = root node depth level := by
  induction depth generalizing level i with
  | zero =>
      rw [Nat.pow_zero, Nat.lt_one_iff] at hi
      subst hi
      rfl
  | succ depth ih =>
      have hhalf : i / 2 < 2 ^ depth := by
        rw [Nat.pow_succ] at hi
        omega
      rw [path, climb, root, ordered_sibling]
      exact ih (up node level) hhalf

theorem ordered_inj {i : Nat} {a b p q : α} (h : ordered i a p = ordered i b q) :
    a = b ∧ p = q := by
  unfold ordered at h
  split at h
  next => exact ⟨(Prod.mk.inj h).2, (Prod.mk.inj h).1⟩
  next => exact Prod.mk.inj h

theorem Clash.cons {xs ys : List (α × α)} (h : Clash node xs ys) (x y : α × α) :
    Clash node (x :: xs) (y :: ys) := by
  obtain ⟨x', hx', y', hy', hne⟩ := h
  exact ⟨x', List.mem_cons_of_mem x hx', y', List.mem_cons_of_mem y hy', hne⟩

/-- **Two climbs to one root are the same climb, or they clash.**  The induction is on
the siblings: the climbs above agree first, then the pair below. -/
theorem climb_unique {i : Nat} {a b : α} {ps qs : List α} (hlen : ps.length = qs.length)
    (h : climb node i a ps = climb node i b qs) :
    (a = b ∧ ps = qs) ∨ Clash node (pairs node i a ps) (pairs node i b qs) := by
  induction ps generalizing i a b qs with
  | nil =>
      cases qs with
      | nil => exact Or.inl ⟨h, rfl⟩
      | cons q qs => cases hlen
  | cons p ps ih =>
      cases qs with
      | nil => cases hlen
      | cons q qs =>
          rw [pairs, pairs]
          cases ih (Nat.succ.inj hlen) h with
          | inr hclash => exact Or.inr (hclash.cons _ _)
          | inl hsame =>
              by_cases hpair : ordered i a p = ordered i b q
              · obtain ⟨hab, hpq⟩ := ordered_inj hpair
                exact Or.inl ⟨hab, by rw [hpq, hsame.2]⟩
              · exact Or.inr ⟨_, List.mem_cons_self, _, List.mem_cons_self, hpair, hsame.1⟩

/-- **A climb to the root of a tree starts at its leaf** and takes its siblings, or it
clashes with the climb that does. -/
theorem member_of_climb {depth i : Nat} (level : Nat → α) {a : α} {ps : List α}
    (hi : i < 2 ^ depth) (hlen : ps.length = depth)
    (h : climb node i a ps = root node depth level) :
    (a = level i ∧ ps = path node depth level i) ∨
      Clash node (pairs node i a ps) (pairs node i (level i) (path node depth level i)) := by
  rw [← climb_path depth level hi] at h
  exact climb_unique (hlen.trans (path_length depth level i).symm) h

end ProverNetwork.Verified.MerkleTree
