import Mathlib.Data.List.Induction
import Mathlib.Data.List.Nodup

/-!
# Chains of links

Each entry of a log is given a link, made from the entry and the link of the
entry before it; the first entry has none before it.  Where a link determines
what it was made from, no link is ever given twice, and the last one
determines the whole log.

## Main results

* `chain_getElem?` — what the `k`-th link is made from.
* `chain_nodup` — links are pairwise distinct.
* `chain_inj` — the last link determines the log.
-/

namespace ProverNetwork.Verified.HashChain

variable {α β : Type*} (link : α → Option β → β)

/-- What the links are made from: each entry, with the link before it. -/
def inputs : Option β → List α → List (α × Option β)
  | _, [] => []
  | prev, a :: rest => (a, prev) :: inputs (some (link a prev)) rest

/-- The links of the entries. -/
def chain (prev : Option β) (entries : List α) : List β :=
  (inputs link prev entries).map (fun x => link x.1 x.2)

theorem inputs_concat (prev : Option β) (entries : List α) (a : α) :
    inputs link prev (entries ++ [a]) =
      inputs link prev entries ++ [(a, (chain link prev entries).getLast?.or prev)] := by
  induction entries generalizing prev with
  | nil => rfl
  | cons b rest ih =>
      have hlast : (chain link prev (b :: rest)).getLast?.or prev =
          (chain link (some (link b prev)) rest).getLast?.or (some (link b prev)) := by
        show ((link b prev :: chain link (some (link b prev)) rest).getLast?).or prev = _
        rw [List.getLast?_cons]
        cases (chain link (some (link b prev)) rest).getLast? <;> rfl
      rw [List.cons_append, inputs, ih, inputs, hlast, List.cons_append]

/-- One more entry: its link is made from it and the last one. -/
theorem chain_concat (entries : List α) (a : α) :
    chain link none (entries ++ [a]) =
      chain link none entries ++ [link a (chain link none entries).getLast?] := by
  rw [chain, inputs_concat, List.map_append, Option.or_none]
  rfl

theorem inputs_getElem?_zero (prev : Option β) (entries : List α) :
    (inputs link prev entries)[0]? = entries[0]?.map (fun a => (a, prev)) := by
  cases entries <;> rfl

theorem inputs_getElem?_succ (prev : Option β) (entries : List α) (k : Nat) :
    (inputs link prev entries)[k + 1]? =
      entries[k + 1]?.map (fun a => (a, (chain link prev entries)[k]?)) := by
  induction entries generalizing prev k with
  | nil => rfl
  | cons b rest ih =>
      show (inputs link (some (link b prev)) rest)[k]? =
        rest[k]?.map (fun a => (a, (link b prev :: chain link (some (link b prev)) rest)[k]?))
      cases k with
      | zero => exact inputs_getElem?_zero link _ rest
      | succ k => exact ih _ k

/-- The link before the `k`-th. -/
def before (links : List β) : Nat → Option β
  | 0 => none
  | k + 1 => links[k]?

theorem inputs_getElem? (entries : List α) (k : Nat) :
    (inputs link none entries)[k]? =
      entries[k]?.map (fun a => (a, before (chain link none entries) k)) := by
  cases k with
  | zero => exact inputs_getElem?_zero link none entries
  | succ k => exact inputs_getElem?_succ link none entries k

/-- The `k`-th link is made from the `k`-th entry and the link before. -/
theorem chain_getElem? (entries : List α) (k : Nat) :
    (chain link none entries)[k]? =
      entries[k]?.map (fun a => link a (before (chain link none entries) k)) := by
  rw [chain, List.getElem?_map, inputs_getElem?, Option.map_map]
  rfl

/-! ## Links that determine what they were made from -/

variable {link}

/-- The descent: links that agree are at the same place. -/
theorem index_eq {entries : List α}
    (hlink : ∀ x ∈ inputs link none entries, ∀ y ∈ inputs link none entries,
      link x.1 x.2 = link y.1 y.2 → x.2 = y.2) {i j : Nat} {b : β}
    (hi : (chain link none entries)[i]? = some b) (hj : (chain link none entries)[j]? = some b) :
    i = j := by
  -- what two equal links were made from came after equal links
  have hbefore : ∀ {i j : Nat} {b : β}, (chain link none entries)[i]? = some b →
      (chain link none entries)[j]? = some b →
      before (chain link none entries) i = before (chain link none entries) j := by
    intro i j b hi hj
    rw [chain, List.getElem?_map, Option.map_eq_some_iff] at hi hj
    obtain ⟨x, hx, hxb⟩ := hi
    obtain ⟨y, hy, hyb⟩ := hj
    have hxy := hlink x (List.mem_of_getElem? hx) y (List.mem_of_getElem? hy) (hxb.trans hyb.symm)
    rw [inputs_getElem?, Option.map_eq_some_iff] at hx hy
    obtain ⟨a, -, rfl⟩ := hx
    obtain ⟨c, -, rfl⟩ := hy
    exact hxy
  -- below a link there is another
  have hdown : ∀ {k : Nat} {b : β}, (chain link none entries)[k + 1]? = some b →
      ∃ c, (chain link none entries)[k]? = some c := by
    intro k b hk
    have hlt : k + 1 < (chain link none entries).length := (List.getElem?_eq_some_iff.1 hk).1
    exact ⟨_, List.getElem?_eq_getElem (Nat.lt_of_succ_lt hlt)⟩
  induction i generalizing j b with
  | zero =>
      cases j with
      | zero => rfl
      | succ j =>
          obtain ⟨c, hc⟩ := hdown hj
          have hnone : none = (chain link none entries)[j]? := hbefore hi hj
          rw [hc] at hnone
          cases hnone
  | succ i ih =>
      obtain ⟨c, hc⟩ := hdown hi
      cases j with
      | zero =>
          have hnone : (chain link none entries)[i]? = none := hbefore hi hj
          rw [hc] at hnone
          cases hnone
      | succ j =>
          have hprev : (chain link none entries)[i]? = (chain link none entries)[j]? :=
            hbefore hi hj
          rw [ih hc (hprev ▸ hc)]

/-- **No link is given twice.** -/
theorem chain_nodup {entries : List α}
    (hlink : ∀ x ∈ inputs link none entries, ∀ y ∈ inputs link none entries,
      link x.1 x.2 = link y.1 y.2 → x.2 = y.2) :
    (chain link none entries).Nodup := by
  rw [List.nodup_iff_getElem?_ne_getElem?]
  intro i j hij hj heq
  exact absurd (index_eq hlink (heq.trans (List.getElem?_eq_getElem hj))
    (List.getElem?_eq_getElem hj)) (Nat.ne_of_lt hij)

/-- **The last link determines the log**, where links determine all that they
were made from. -/
theorem chain_inj (hlink : ∀ a b p q, link a p = link b q → a = b ∧ p = q) {xs ys : List α}
    (h : (chain link none xs).getLast? = (chain link none ys).getLast?) : xs = ys := by
  induction xs using List.reverseRecOn generalizing ys with
  | nil =>
      cases ys using List.reverseRecOn with
      | nil => rfl
      | append_singleton ys b =>
          rw [chain_concat, List.getLast?_concat] at h
          cases h
  | append_singleton xs a ih =>
      cases ys using List.reverseRecOn with
      | nil =>
          rw [chain_concat, List.getLast?_concat] at h
          cases h
      | append_singleton ys b =>
          rw [chain_concat, chain_concat, List.getLast?_concat, List.getLast?_concat] at h
          obtain ⟨rfl, hprev⟩ := hlink a b _ _ (Option.some.inj h)
          rw [ih hprev]

end ProverNetwork.Verified.HashChain
