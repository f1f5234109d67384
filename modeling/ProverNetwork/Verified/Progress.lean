import ProverNetwork.Verified.Run
import ProverNetwork.Verified.Weight

/-!
# Runs that come to an end

A **potential** is a number that pays for the steps of a component: what a step
costs is taken from the potential and from what the step brings in.  A run then
costs no more than the potential it starts with and all that its steps brought in.

Some of the labels are the component's own.  Where each own step costs something,
an own run is no longer than the potential, and ends in a **settled** state, in
which no own step is left to take.

## Main results

* `run_pays` — what a run costs.
* `length_le_potential` — own runs are bounded.
* `exists_settled` — own steps lead to a settled state.
-/

namespace ProverNetwork.Verified

variable {σ α : Type*} {step : σ → α → Option σ}

/-- The potential and what a step brings in pay for the step. -/
def Pays (step : σ → α → Option σ) (potential : σ → Nat) (cost gain : α → Nat) : Prop :=
  ∀ s a s', step s a = some s' → potential s' + cost a ≤ potential s + gain a

/-- **What a run costs.** -/
theorem run_pays {potential : σ → Nat} {cost gain : α → Nat}
    (hpays : Pays step potential cost gain) {s t : σ} {labels : List α}
    (hrun : run step s labels = some t) :
    potential t + weight cost labels ≤ potential s + weight gain labels := by
  induction labels generalizing s with
  | nil =>
      rw [run_nil, Option.some.injEq] at hrun
      subst hrun
      exact Nat.le_refl _
  | cons a rest ih =>
      obtain ⟨s', hfirst, hrest⟩ := run_cons_eq_some.1 hrun
      have hstep := hpays s a s' hfirst
      have hlater := ih hrest
      rw [weight_cons, weight_cons]
      omega

/-- No own step is left. -/
def Settled (step : σ → α → Option σ) (own : α → Prop) (s : σ) : Prop :=
  ∀ a, own a → step s a = none

section Own

variable {own : α → Prop} (potential : σ → Nat)

/-- **Own runs are bounded.** -/
theorem length_le_potential
    (hlt : ∀ s a s', own a → step s a = some s' → potential s' < potential s)
    {s t : σ} {labels : List α} (hown : ∀ a ∈ labels, own a)
    (hrun : run step s labels = some t) : potential t + labels.length ≤ potential s := by
  induction labels generalizing s with
  | nil =>
      rw [run_nil, Option.some.injEq] at hrun
      subst hrun
      exact Nat.le_refl _
  | cons a rest ih =>
      obtain ⟨s', hfirst, hrest⟩ := run_cons_eq_some.1 hrun
      have hstep := hlt s a s' (hown a List.mem_cons_self) hfirst
      have hlater := ih (fun b hb => hown b (List.mem_cons_of_mem a hb)) hrest
      rw [List.length_cons]
      omega

/-- **Own steps lead to a settled state.** -/
theorem exists_settled
    (hlt : ∀ s a s', own a → step s a = some s' → potential s' < potential s) (s : σ) :
    ∃ labels t, (∀ a ∈ labels, own a) ∧ run step s labels = some t ∧ Settled step own t := by
  induction hn : potential s using Nat.strongRecOn generalizing s with
  | ind n ih =>
      by_cases hsettled : Settled step own s
      · exact ⟨[], s, fun a ha => absurd ha List.not_mem_nil, rfl, hsettled⟩
      · obtain ⟨a, ha⟩ := not_forall.1 hsettled
        obtain ⟨hown, hsome⟩ := Classical.not_imp.1 ha
        obtain ⟨s', hstep⟩ := Option.ne_none_iff_exists'.1 hsome
        have hless := hlt s a s' hown hstep
        obtain ⟨labels, t, hlabels, hrun, hend⟩ :=
          ih (potential s') (hn ▸ hless) s' rfl
        refine ⟨a :: labels, t, ?_, run_cons_eq_some.2 ⟨s', hstep, hrun⟩, hend⟩
        intro b hb
        cases List.mem_cons.1 hb with
        | inl heq => exact heq ▸ hown
        | inr hrest => exact hlabels b hrest

end Own

end ProverNetwork.Verified
