import Mathlib.Data.List.Induction
import ProverNetwork.Verified.Run

/-!
# Components of a system

A part of a state is a component when each step of the system moves it by a
step of its own or leaves it alone.  Whatever the other parts do in between, a
run of the system then takes the component along a run of its own, and what is
known of those runs holds of the component.

## Main results

* `run_component` — a run of the system moves a component along its own runs.
* `run_invariant_using` — the invariant rule, given a property of every run.
* `run_extends` — a relation that each step extends is extended by a run.
-/

namespace ProverNetwork.Verified

variable {σ α τ β : Type*}

/-- Every step of the system moves the part by a step of its own, or leaves it
alone. -/
def Component (step : σ → α → Option σ) (own : τ → β → Option τ) (part : σ → Option τ) : Prop :=
  ∀ s a s' c, step s a = some s' → part s = some c →
    ∃ c', part s' = some c' ∧ (c' = c ∨ ∃ b, own c b = some c')

/-- **Projection rule.**  A run of the system moves a component along a run of
its own. -/
theorem run_component {step : σ → α → Option σ} {own : τ → β → Option τ} {part : σ → Option τ}
    (hpart : Component step own part) {s t : σ} {labels : List α} {c : τ}
    (hrun : run step s labels = some t) (hc : part s = some c) :
    ∃ c' moves, part t = some c' ∧ run own c moves = some c' := by
  induction labels generalizing s c with
  | nil =>
      rw [run_nil, Option.some.injEq] at hrun
      exact ⟨c, [], hrun ▸ hc, rfl⟩
  | cons a rest ih =>
      obtain ⟨s', hfirst, hrest⟩ := run_cons_eq_some.1 hrun
      obtain ⟨c₁, hc₁, hmove⟩ := hpart s a s' c hfirst hc
      obtain ⟨c', moves, hc', hmoves⟩ := ih hrest hc₁
      cases hmove with
      | inl hsame => exact ⟨c', moves, hc', hsame ▸ hmoves⟩
      | inr hmove =>
          obtain ⟨b, hb⟩ := hmove
          exact ⟨c', b :: moves, hc', run_cons_eq_some.2 ⟨c₁, hb, hmoves⟩⟩

/-- **Invariant rule**, for a property of every run that the step may use. -/
theorem run_invariant_using {step : σ → α → Option σ} {s₀ t : σ} {labels : List α}
    (Q P : σ → Prop) (hknown : ∀ ls s, run step s₀ ls = some s → Q s)
    (hstep : ∀ s a s', Q s → P s → step s a = some s' → P s') (hs : P s₀)
    (hrun : run step s₀ labels = some t) : P t := by
  induction labels using List.reverseRecOn generalizing t with
  | nil =>
      rw [run_nil, Option.some.injEq] at hrun
      exact hrun ▸ hs
  | append_singleton labels a ih =>
      obtain ⟨s, hbefore, hlast⟩ := run_append_eq_some.1 hrun
      obtain ⟨s', ha, hnil⟩ := run_cons_eq_some.1 hlast
      cases hnil
      exact hstep s a t (hknown labels s hbefore) (ih hbefore) ha

/-- What holds between the states around each step, and composes, holds between
the ends of a run. -/
theorem run_extends {step : σ → α → Option σ} (R : σ → σ → Prop) (hrefl : ∀ s, R s s)
    (htrans : ∀ r s t, R r s → R s t → R r t)
    (hstep : ∀ s a s', step s a = some s' → R s s') {s t : σ} {labels : List α}
    (hrun : run step s labels = some t) : R s t := by
  induction labels generalizing s with
  | nil =>
      rw [run_nil, Option.some.injEq] at hrun
      exact hrun ▸ hrefl s
  | cons a rest ih =>
      obtain ⟨s', hfirst, hrest⟩ := run_cons_eq_some.1 hrun
      exact htrans s s' t (hstep s a s' hfirst) (ih hrest)

/-! ## Parts in a list -/

section Parts

variable {l : List τ} {i j : Nat} {x y : τ}

/-- A part, after one of them has changed. -/
theorem getElem?_set_cases (h : (l.set i x)[j]? = some y) :
    j = i ∧ y = x ∨ j ≠ i ∧ l[j]? = some y := by
  by_cases hji : j = i
  · subst hji
    rw [List.getElem?_set_self'] at h
    obtain ⟨-, -, rfl⟩ := Option.map_eq_some_iff.1 h
    exact Or.inl ⟨rfl, rfl⟩
  · rw [List.getElem?_set_ne (Ne.symm hji)] at h
    exact Or.inr ⟨hji, h⟩

/-- A part, after one has been added. -/
theorem getElem?_concat_cases (h : (l ++ [x])[j]? = some y) :
    l[j]? = some y ∨ j = l.length ∧ y = x := by
  by_cases hlt : j < l.length
  · rw [List.getElem?_append_left hlt] at h
    exact Or.inl h
  · have hle : l.length ≤ j := Nat.le_of_not_lt hlt
    obtain ⟨hj, rfl⟩ : j - l.length = 0 ∧ x = y := by
      rw [List.getElem?_append_right hle, List.getElem?_singleton] at h
      split at h
      next hzero => exact ⟨hzero, Option.some.inj h⟩
      next => cases h
    exact Or.inr ⟨by omega, rfl⟩

end Parts

end ProverNetwork.Verified
