import Mathlib.Algebra.BigOperators.Group.List.Basic
import Mathlib.Algebra.Ring.Basic
import Mathlib.Data.Nat.Cast.Basic
import Mathlib.Logic.Function.Basic

/-!
# Rank-one constraint systems

A constraint `(L, R, O)` holds of a wire assignment when
`⟨L, w⟩ * ⟨R, w⟩ = ⟨O, w⟩`.  Coefficients are natural numbers, read in the
ring the wires take their values in; wires are numbered from 0.

## Main results

* `LinComb.eval_congr` — values of a combination on two assignments.
* `Constraint.holds_congr` — only wires with a nonzero coefficient matter.
* `genuine_of_holds` — when a solution of the constraints has the public part
  of a witness.
-/

namespace ProverNetwork.Verified

/-- A coefficient and the wire it multiplies. -/
structure LinTerm where
  wire : Nat
  coeff : Nat
  deriving DecidableEq

abbrev LinComb := List LinTerm

structure Constraint where
  L : LinComb
  R : LinComb
  O : LinComb
  deriving DecidableEq

/-- The terms of a constraint, in the order of its three combinations. -/
def Constraint.terms (c : Constraint) : List LinTerm := c.L ++ (c.R ++ c.O)

section Eval

variable {F : Type*} [CommRing F]

/-- `⟨l, w⟩`. -/
def LinComb.eval (l : LinComb) (w : Nat → F) : F :=
  (l.map (fun t => w t.wire * (t.coeff : F))).sum

@[simp] theorem LinComb.eval_nil (w : Nat → F) : LinComb.eval [] w = 0 := rfl

@[simp] theorem LinComb.eval_cons (t : LinTerm) (l : LinComb) (w : Nat → F) :
    LinComb.eval (t :: l) w = w t.wire * (t.coeff : F) + LinComb.eval l w := by
  simp [LinComb.eval]

/-- The constraint holds of the wire values `w`. -/
def Constraint.Holds (c : Constraint) (w : Nat → F) : Prop :=
  LinComb.eval c.L w * LinComb.eval c.R w = LinComb.eval c.O w

theorem LinComb.eval_congr {l : LinComb} {w v : Nat → F}
    (h : ∀ t ∈ l, (t.coeff : F) = 0 ∨ w t.wire = v t.wire) :
    LinComb.eval l w = LinComb.eval l v := by
  induction l with
  | nil => rfl
  | cons t l ih =>
      have hrest := ih (fun t' ht' => h t' (List.mem_cons_of_mem t ht'))
      rw [LinComb.eval_cons, LinComb.eval_cons, hrest]
      rcases h t List.mem_cons_self with hzero | hwire
      · rw [hzero, mul_zero, mul_zero]
      · rw [hwire]

/-- Only wires that some term multiplies by a nonzero coefficient matter. -/
theorem Constraint.holds_congr {c : Constraint} {w v : Nat → F}
    (h : ∀ t ∈ c.terms, (t.coeff : F) = 0 ∨ w t.wire = v t.wire) :
    c.Holds w ↔ c.Holds v := by
  have hL : LinComb.eval c.L w = LinComb.eval c.L v :=
    LinComb.eval_congr (fun t ht => h t (by simp [Constraint.terms, ht]))
  have hR : LinComb.eval c.R w = LinComb.eval c.R v :=
    LinComb.eval_congr (fun t ht => h t (by simp [Constraint.terms, ht]))
  have hO : LinComb.eval c.O w = LinComb.eval c.O v :=
    LinComb.eval_congr (fun t ht => h t (by simp [Constraint.terms, ht]))
  rw [Constraint.Holds, Constraint.Holds, hL, hR, hO]

/-! ## Witnesses -/

/-- `v` is a witness: the constant wire is 1 and every constraint holds. -/
def IsWitness (cs : List Constraint) (v : Nat → F) : Prop :=
  v 0 = 1 ∧ ∀ c ∈ cs, c.Holds v

/-- The public values `pub`, on wires 1 and up, are part of some witness. -/
def Genuine (cs : List Constraint) (pub : List F) : Prop :=
  ∃ v : Nat → F, IsWitness cs v ∧ ∀ i, i < pub.length → v (i + 1) = pub.getD i 0

/-- No constraint multiplies the constant wire by a nonzero coefficient. -/
def IgnoresConstantWire (F : Type*) [CommRing F] (cs : List Constraint) : Prop :=
  ∀ c ∈ cs, ∀ t ∈ c.terms, t.wire = 0 → (t.coeff : F) = 0

/-- A solution of the constraints is a witness once the constant wire is 1,
and can be made one when no constraint reads that wire. -/
theorem genuine_of_holds {cs : List Constraint} {w : Nat → F} {pub : List F}
    (hholds : ∀ c ∈ cs, c.Holds w)
    (hpub : ∀ i, i < pub.length → w (i + 1) = pub.getD i 0)
    (hconst : w 0 = 1 ∨ IgnoresConstantWire F cs) : Genuine cs pub := by
  rcases hconst with hone | hignore
  · exact ⟨w, ⟨hone, hholds⟩, hpub⟩
  · refine ⟨Function.update w 0 1, ⟨Function.update_self 0 1 w, ?_⟩, ?_⟩
    · intro c hc
      refine (Constraint.holds_congr ?_).1 (hholds c hc)
      intro t ht
      by_cases hwire : t.wire = 0
      · exact Or.inl (hignore c hc t ht hwire)
      · exact Or.inr (Function.update_of_ne hwire 1 w).symm
    · intro i hi
      rw [Function.update_of_ne (Nat.succ_ne_zero i), hpub i hi]

end Eval

end ProverNetwork.Verified
