import Mathlib.Algebra.Order.Group.Defs
import Mathlib.Data.List.Chain

/-!
# Heartbeats

A log of beats, each of a key and at a time, oldest first.  The beats of a key
are **steady** up to a time when no two of them in a row, and not the last of
them and that time, lie further apart than a bound.  Steadiness looks back: it
holds of every earlier part of the log, up to any time before what follows.

## Main results

* `lastBeat_concat` — one more beat.
* `Steady.of_append` — steadiness at an earlier time.
-/

namespace ProverNetwork.Verified

variable {κ τ : Type*} [DecidableEq κ]

/-- The times of the beats of a key. -/
def beatsOf (k : κ) (beats : List (κ × τ)) : List τ :=
  (beats.filter (fun b => b.1 = k)).map Prod.snd

/-- The time of its last beat. -/
def lastBeat (k : κ) (beats : List (κ × τ)) : Option τ := (beatsOf k beats).getLast?

theorem beatsOf_append (k : κ) (early late : List (κ × τ)) :
    beatsOf k (early ++ late) = beatsOf k early ++ beatsOf k late := by
  rw [beatsOf, List.filter_append, List.map_append, beatsOf, beatsOf]

theorem beatsOf_concat (k k' : κ) (t : τ) (beats : List (κ × τ)) :
    beatsOf k (beats ++ [(k', t)]) =
      if k = k' then beatsOf k beats ++ [t] else beatsOf k beats := by
  rw [beatsOf_append]
  by_cases h : k = k'
  · rw [if_pos h, beatsOf, beatsOf, List.filter_cons_of_pos (by simpa using h.symm)]
    rfl
  · have hne : ¬k' = k := fun heq => h heq.symm
    rw [if_neg h, beatsOf, beatsOf, List.filter_cons_of_neg (by simpa using hne)]
    exact List.append_nil _

/-- One more beat is the last of its key, and of no other. -/
theorem lastBeat_concat (k k' : κ) (t : τ) (beats : List (κ × τ)) :
    lastBeat k (beats ++ [(k', t)]) = if k = k' then some t else lastBeat k beats := by
  rw [lastBeat, beatsOf_concat]
  by_cases h : k = k'
  · rw [if_pos h, if_pos h, List.getLast?_concat]
  · rw [if_neg h, if_neg h, lastBeat]

theorem mem_beatsOf {k : κ} {t : τ} {beats : List (κ × τ)} :
    t ∈ beatsOf k beats ↔ (k, t) ∈ beats := by
  simp only [beatsOf, List.mem_map, List.mem_filter, decide_eq_true_eq, Prod.exists]
  constructor
  · rintro ⟨k', t', ⟨hmem, rfl⟩, rfl⟩
    exact hmem
  · intro hmem
    exact ⟨k, t, ⟨hmem, rfl⟩, rfl⟩

section Steady

variable [AddCommGroup τ] [PartialOrder τ] [IsOrderedAddMonoid τ]

/-- No gap between two beats in a row, and none up to `now`, is over `bound`. -/
structure Steady (bound : τ) (times : List τ) (now : τ) : Prop where
  gaps : times.IsChain (fun s t => t - s ≤ bound)
  last : ∀ t ∈ times.getLast?, now - t ≤ bound

/-- **Steadiness at an earlier time**, before what follows in the log. -/
theorem Steady.of_append {bound now earlier : τ} {early late : List τ}
    (h : Steady bound (early ++ late) now) (hearlier : earlier ≤ now)
    (hlate : ∀ t ∈ late, earlier ≤ t) : Steady bound early earlier := by
  refine ⟨h.gaps.left_of_append, ?_⟩
  intro t ht
  obtain ⟨-, -, hgap⟩ := List.isChain_append.1 h.gaps
  rcases late with _ | ⟨next, late⟩
  · -- nothing follows: the last beat is the last of the whole log
    rw [List.append_nil] at h
    exact (sub_le_sub_right hearlier t).trans (h.last t ht)
  · have hnext : earlier ≤ next := hlate next List.mem_cons_self
    exact (sub_le_sub_right hnext t).trans (hgap t ht next rfl)

end Steady

end ProverNetwork.Verified
