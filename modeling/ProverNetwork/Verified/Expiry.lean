import Mathlib.Data.Option.Basic
import Mathlib.Order.Basic

/-!
# Stores whose items stop counting

An item of a store counts up to some time and never again after it.  Two
stores **agree at `t`** when they answer alike for the items that count at
`t`; what either of them still keeps beyond its time makes no difference.
Purging, at any earlier time and in any number of places, keeps agreement, and
so does storing the same item in both.

## Main results

* `AgreeAt.mono` — agreement lasts.
* `agreeAt_of_purge` — a store agrees with what a purge leaves of it.
* `AgreeAt.store` — writing one item to both keeps agreement.
-/

namespace ProverNetwork.Verified

/-- When items count: once an item does not, it never does again. -/
structure Lifetime (τ ε : Type*) [Preorder τ] where
  live : τ → ε → Bool
  live_of_le : ∀ {s t : τ} {e : ε}, s ≤ t → live t e = true → live s e = true

variable {τ ε κ : Type*} [Preorder τ] (L : Lifetime τ ε)

/-- The stores answer alike for every item that counts at `t`. -/
def AgreeAt (t : τ) (f g : κ → Option ε) : Prop :=
  ∀ k, (f k).filter (L.live t) = (g k).filter (L.live t)

variable {L} {s t : τ} {f g h : κ → Option ε}

/-- Looking at what counts at `s` first does not change what counts later. -/
theorem Lifetime.filter_filter (hle : s ≤ t) (o : Option ε) :
    (o.filter (L.live s)).filter (L.live t) = o.filter (L.live t) := by
  cases o with
  | none => rfl
  | some e =>
      by_cases hlive : L.live s e = true
      · rw [Option.filter_some_pos hlive]
      · have hlater : ¬L.live t e = true := fun hl => hlive (L.live_of_le hle hl)
        rw [Option.filter_some_neg (by simpa using hlive),
          Option.filter_some_neg (by simpa using hlater)]
        rfl

namespace AgreeAt

theorem refl (f : κ → Option ε) : AgreeAt L t f f := fun _ => rfl

theorem symm (hfg : AgreeAt L t f g) : AgreeAt L t g f := fun k => (hfg k).symm

theorem trans (hfg : AgreeAt L t f g) (hgh : AgreeAt L t g h) : AgreeAt L t f h :=
  fun k => (hfg k).trans (hgh k)

/-- Stores that agree at one time agree from then on. -/
theorem mono (hle : s ≤ t) (hfg : AgreeAt L s f g) : AgreeAt L t f g := by
  intro k
  rw [← L.filter_filter hle (f k), hfg k, L.filter_filter hle]

/-- Writing an item under one key of both stores keeps agreement. -/
theorem store [DecidableEq κ] {f' g' : κ → Option ε} {key : κ} {e : ε}
    (hfg : AgreeAt L t f g) (hf : ∀ k, f' k = if k = key then some e else f k)
    (hg : ∀ k, g' k = if k = key then some e else g k) : AgreeAt L t f' g' := by
  intro k
  rw [hf, hg]
  by_cases hk : k = key
  · rw [if_pos hk, if_pos hk]
  · rw [if_neg hk, if_neg hk]
    exact hfg k

end AgreeAt

/-- **Purging is not observable**: a store agrees with what is left of it after
items that did not count at `s` were removed, under any of its keys. -/
theorem agreeAt_of_purge (hle : s ≤ t)
    (hpurge : ∀ k, g k = f k ∨ g k = (f k).filter (L.live s)) : AgreeAt L t g f := by
  intro k
  rcases hpurge k with hkept | hpurged
  · rw [hkept]
  · rw [hpurged, L.filter_filter hle]

end ProverNetwork.Verified
