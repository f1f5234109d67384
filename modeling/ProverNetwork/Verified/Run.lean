import Mathlib.Data.List.Induction

/-!
# Runs of a partial step function

A deterministic component is a step function `σ → α → Option σ`; `none` means
that the label is not enabled in the state.  A run folds the step over a list
of labels, so a run on concrete labels evaluates, and an invariant of every
step is an invariant of every run by one induction.

A component that always answers is a step function `σ → α → β × σ`, and what
its callers see of a run is the trace of the answers.

## Main results

* `run_invariant` — the invariant rule, for runs over allowed labels.
* `run_invariant_along` — the rule where a label is allowed in some states only.
* `run_invariant_history` — the rule for a property of the state and the labels so far.
* `trace_eq_of_simulation` — components related by a simulation answer alike.
-/

namespace ProverNetwork.Verified

variable {σ α : Type*}

/-- The state after the labels, or `none` when one of them is not enabled. -/
def run (step : σ → α → Option σ) : σ → List α → Option σ
  | s, [] => some s
  | s, a :: rest => (step s a).bind (fun s' => run step s' rest)

@[simp] theorem run_nil (step : σ → α → Option σ) (s : σ) :
    run step s [] = some s := rfl

theorem run_cons_eq_some {step : σ → α → Option σ} {s t : σ} {a : α}
    {rest : List α} :
    run step s (a :: rest) = some t ↔
      ∃ s', step s a = some s' ∧ run step s' rest = some t := by
  simp [run, Option.bind_eq_some_iff]

theorem run_append_eq_some {step : σ → α → Option σ} {s t : σ} {as bs : List α} :
    run step s (as ++ bs) = some t ↔ ∃ u, run step s as = some u ∧ run step u bs = some t := by
  induction as generalizing s with
  | nil => simp
  | cons a as ih =>
      rw [List.cons_append, run_cons_eq_some]
      simp only [run_cons_eq_some, ih]
      tauto

/-- **Invariant rule.**  What one enabled step preserves, whatever its label
among those allowed, every run over allowed labels preserves. -/
theorem run_invariant {step : σ → α → Option σ} (P : σ → Prop)
    (allowed : α → Prop)
    (hstep : ∀ s a s', allowed a → P s → step s a = some s' → P s')
    {s t : σ} {labels : List α} (hallowed : ∀ a ∈ labels, allowed a)
    (hs : P s) (hrun : run step s labels = some t) : P t := by
  induction labels generalizing s with
  | nil =>
      rw [run_nil, Option.some.injEq] at hrun
      exact hrun ▸ hs
  | cons a rest ih =>
      obtain ⟨s', hfirst, hrest⟩ := run_cons_eq_some.1 hrun
      exact ih (fun b hb => hallowed b (List.mem_cons_of_mem a hb))
        (hstep s a s' (hallowed a List.mem_cons_self) hs hfirst) hrest

/-- Every label of the run meets the condition in the state it is taken in. -/
def Along (step : σ → α → Option σ) (C : σ → α → Prop) : σ → List α → Prop
  | _, [] => True
  | s, a :: rest => C s a ∧ ∀ s', step s a = some s' → Along step C s' rest

theorem Along.of_append {step : σ → α → Option σ} {C : σ → α → Prop} {s : σ} {as bs : List α}
    (h : Along step C s (as ++ bs)) : Along step C s as := by
  induction as generalizing s with
  | nil => trivial
  | cons a as ih => exact ⟨h.1, fun s' hs' => ih (h.2 s' hs')⟩

/-- **Invariant rule**, for runs whose steps all meet a condition. -/
theorem run_invariant_along {step : σ → α → Option σ} (P : σ → Prop)
    (C : σ → α → Prop)
    (hstep : ∀ s a s', C s a → P s → step s a = some s' → P s')
    {s t : σ} {labels : List α} (halong : Along step C s labels)
    (hs : P s) (hrun : run step s labels = some t) : P t := by
  induction labels generalizing s with
  | nil =>
      rw [run_nil, Option.some.injEq] at hrun
      exact hrun ▸ hs
  | cons a rest ih =>
      obtain ⟨s', hfirst, hrest⟩ := run_cons_eq_some.1 hrun
      obtain ⟨hC, hlater⟩ := halong
      exact ih (hlater s' hfirst) (hstep s a s' hC hs hfirst) hrest

/-- **Invariant rule**, for a property of the state and the labels that led to it. -/
theorem run_invariant_history {step : σ → α → Option σ} (P : List α → σ → Prop) {s₀ t : σ}
    {labels : List α}
    (hstep : ∀ done s a s', P done s → step s a = some s' → P (done ++ [a]) s') (hs : P [] s₀)
    (hrun : run step s₀ labels = some t) : P labels t := by
  induction labels using List.reverseRecOn generalizing t with
  | nil =>
      rw [run_nil, Option.some.injEq] at hrun
      exact hrun ▸ hs
  | append_singleton labels a ih =>
      obtain ⟨s, hbefore, hlast⟩ := run_append_eq_some.1 hrun
      obtain ⟨s', ha, hnil⟩ := run_cons_eq_some.1 hlast
      cases hnil
      exact hstep labels s a t (ih hbefore) ha

/-! ## Traces -/

section Trace

variable {ρ β : Type*}

/-- The answers to a list of labels, in order. -/
def trace (step : σ → α → β × σ) : σ → List α → List β
  | _, [] => []
  | s, a :: rest => (step s a).1 :: trace step (step s a).2 rest

/-- **Simulation rule.**  Where related states answer alike and stay related,
the whole traces are equal. -/
theorem trace_eq_of_simulation {step : σ → α → β × σ} {step' : ρ → α → β × ρ}
    (R : σ → ρ → Prop)
    (hstep : ∀ s r a, R s r →
      (step s a).1 = (step' r a).1 ∧ R (step s a).2 (step' r a).2)
    {s : σ} {r : ρ} (hR : R s r) (labels : List α) :
    trace step s labels = trace step' r labels := by
  induction labels generalizing s r with
  | nil => rfl
  | cons a rest ih =>
      obtain ⟨hanswer, hnext⟩ := hstep s r a hR
      rw [trace, trace, hanswer, ih hnext]

end Trace

end ProverNetwork.Verified
