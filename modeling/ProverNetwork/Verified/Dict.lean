import Mathlib.Data.List.Nodup

/-!
# Insertion-ordered dictionaries

A finite map kept as the list of its items, in the order the keys were first
stored.  Overwriting a key keeps its place, deleting one closes the gap, so
the iteration order is the one of a Python `dict`; nothing here names a
program.  No key occurs twice, and the structure carries that fact.

## Main results

* `get?_set`, `get?_del`, `get?_delAll` — each update is pointwise.
* `mem_items_iff` — membership in the item list is lookup.
* `get?_delAll_keysWhere` — deleting the keys selected by a predicate on
  items is filtering the lookup.
* `values_set`, `values_del` — the stored values, one key more or less.
* `filterMap_keys` — looking up every key gives the values.
-/

namespace ProverNetwork.Verified

/-- A dictionary: its items in insertion order, no key twice. -/
structure Dict (κ ν : Type*) where
  items : List (κ × ν)
  nodup : (items.map Prod.fst).Nodup

namespace Dict

variable {κ ν : Type*} [DecidableEq κ]

/-- The dictionary without items. -/
def empty : Dict κ ν := ⟨[], List.nodup_nil⟩

/-- First value stored under `k` in an item list. -/
def lookup (k : κ) : List (κ × ν) → Option ν
  | [] => none
  | (k', v) :: rest => if k = k' then some v else lookup k rest

/-- Overwrite the value under `k` in place, or append the new item. -/
def store (k : κ) (v : ν) : List (κ × ν) → List (κ × ν)
  | [] => [(k, v)]
  | (k', v') :: rest =>
      if k = k' then (k, v) :: rest else (k', v') :: store k v rest

def get? (d : Dict κ ν) (k : κ) : Option ν := lookup k d.items

theorem store_keys (k : κ) (v : ν) (l : List (κ × ν)) (x : κ) :
    x ∈ (store k v l).map Prod.fst ↔ x = k ∨ x ∈ l.map Prod.fst := by
  induction l with
  | nil => simp [store]
  | cons kv rest ih =>
      obtain ⟨k', v'⟩ := kv
      unfold store
      split
      · rename_i h
        subst h
        simp
      · simp only [List.map_cons, List.mem_cons, ih]
        tauto

theorem store_nodup (k : κ) (v : ν) (l : List (κ × ν))
    (h : (l.map Prod.fst).Nodup) : ((store k v l).map Prod.fst).Nodup := by
  induction l with
  | nil => simp [store]
  | cons kv rest ih =>
      obtain ⟨k', v'⟩ := kv
      simp only [List.map_cons, List.nodup_cons] at h
      unfold store
      split
      · rename_i hk
        subst hk
        simpa using h
      · rename_i hk
        simp only [List.map_cons, List.nodup_cons]
        refine ⟨?_, ih h.2⟩
        rw [store_keys]
        rintro (rfl | hmem)
        · exact hk rfl
        · exact h.1 hmem

/-- `d[k] = v`. -/
def set (d : Dict κ ν) (k : κ) (v : ν) : Dict κ ν :=
  ⟨store k v d.items, store_nodup k v d.items d.nodup⟩

/-- `del d[k]`; a missing key is left alone. -/
def del (d : Dict κ ν) (k : κ) : Dict κ ν :=
  ⟨d.items.filter (fun kv => kv.1 ≠ k),
    d.nodup.sublist ((List.filter_sublist).map Prod.fst)⟩

/-- Delete every listed key, in order. -/
def delAll (d : Dict κ ν) (ks : List κ) : Dict κ ν := ks.foldl del d

/-- The items that satisfy `p`, in their order. -/
def filter (d : Dict κ ν) (p : κ → ν → Bool) : Dict κ ν :=
  ⟨d.items.filter (fun kv => p kv.1 kv.2),
    d.nodup.sublist ((List.filter_sublist).map Prod.fst)⟩

/-- The keys of the items that satisfy `p`. -/
def keysWhere (d : Dict κ ν) (p : κ → ν → Bool) : List κ :=
  (d.items.filter (fun kv => p kv.1 kv.2)).map Prod.fst

/-! ## Lookup -/

@[simp] theorem get?_empty (k : κ) : (empty : Dict κ ν).get? k = none := rfl

theorem lookup_store (k k' : κ) (v : ν) (l : List (κ × ν)) :
    lookup k' (store k v l) = if k' = k then some v else lookup k' l := by
  induction l with
  | nil => simp [store, lookup]
  | cons kv rest ih =>
      obtain ⟨a, b⟩ := kv
      unfold store
      split
      · rename_i h
        subst h
        simp only [lookup]
        split <;> rfl
      · rename_i h
        simp only [lookup, ih]
        by_cases hka : k' = a
        · subst hka
          rw [if_pos rfl, if_neg (fun e => h e.symm), if_pos rfl]
        · rw [if_neg hka, if_neg hka]

/-- Writing a key changes the lookup of that key only. -/
theorem get?_set (d : Dict κ ν) (k k' : κ) (v : ν) :
    (d.set k v).get? k' = if k' = k then some v else d.get? k' :=
  lookup_store k k' v d.items

@[simp] theorem get?_set_self (d : Dict κ ν) (k : κ) (v : ν) :
    (d.set k v).get? k = some v := by
  rw [get?_set, if_pos rfl]

theorem lookup_filter_ne (k k' : κ) (l : List (κ × ν)) :
    lookup k' (l.filter (fun kv => kv.1 ≠ k)) =
      if k' = k then none else lookup k' l := by
  induction l with
  | nil => simp [lookup]
  | cons kv rest ih =>
      obtain ⟨a, b⟩ := kv
      by_cases ha : a = k
      · subst ha
        rw [List.filter_cons_of_neg (by simp), ih, lookup]
        split <;> rfl
      · rw [List.filter_cons_of_pos (by simpa using ha), lookup, lookup, ih]
        by_cases hka : k' = a
        · subst hka
          rw [if_pos rfl, if_neg ha, if_pos rfl]
        · rw [if_neg hka, if_neg hka]

/-- Deleting a key changes the lookup of that key only. -/
theorem get?_del (d : Dict κ ν) (k k' : κ) :
    (d.del k).get? k' = if k' = k then none else d.get? k' :=
  lookup_filter_ne k k' d.items

theorem get?_delAll (d : Dict κ ν) (ks : List κ) (k : κ) :
    (d.delAll ks).get? k = if k ∈ ks then none else d.get? k := by
  induction ks generalizing d with
  | nil => simp [delAll]
  | cons a ks ih =>
      change ((d.del a).delAll ks).get? k = _
      rw [ih, get?_del]
      by_cases hmem : k ∈ ks
      · simp [hmem]
      · by_cases hka : k = a
        · simp [hka]
        · simp [hmem, hka]

theorem mem_iff_lookup (l : List (κ × ν)) (h : (l.map Prod.fst).Nodup)
    (k : κ) (v : ν) : (k, v) ∈ l ↔ lookup k l = some v := by
  induction l with
  | nil => simp [lookup]
  | cons kv rest ih =>
      obtain ⟨a, b⟩ := kv
      simp only [List.map_cons, List.nodup_cons] at h
      rw [lookup, List.mem_cons]
      by_cases hka : k = a
      · subst hka
        rw [if_pos rfl]
        constructor
        · rintro (heq | hmem)
          · rw [(Prod.mk.inj heq).2]
          · exact absurd (List.mem_map_of_mem hmem) h.1
        · intro hsome
          exact Or.inl (by rw [Option.some.inj hsome])
      · rw [if_neg hka, ← ih h.2]
        constructor
        · rintro (heq | hmem)
          · exact absurd (Prod.mk.inj heq).1 hka
          · exact hmem
        · exact Or.inr

/-- The items are exactly the pairs the lookup answers. -/
theorem mem_items_iff (d : Dict κ ν) (k : κ) (v : ν) :
    (k, v) ∈ d.items ↔ d.get? k = some v :=
  mem_iff_lookup d.items d.nodup k v

theorem mem_keysWhere_iff (d : Dict κ ν) (p : κ → ν → Bool) (k : κ) :
    k ∈ d.keysWhere p ↔ ∃ v, d.get? k = some v ∧ p k v = true := by
  simp only [keysWhere, List.mem_map, List.mem_filter, Prod.exists]
  constructor
  · rintro ⟨a, v, ⟨hmem, hp⟩, rfl⟩
    exact ⟨v, (d.mem_items_iff a v).1 hmem, hp⟩
  · rintro ⟨v, hget, hp⟩
    exact ⟨k, v, ⟨(d.mem_items_iff k v).2 hget, hp⟩, rfl⟩

/-- Deleting the keys selected by `p` filters the lookup by `¬ p`. -/
theorem get?_delAll_keysWhere (d : Dict κ ν) (p : κ → ν → Bool) (k : κ) :
    (d.delAll (d.keysWhere p)).get? k =
      (d.get? k).filter (fun v => !p k v) := by
  rw [get?_delAll]
  cases hget : d.get? k with
  | none => simp
  | some v =>
      have hmem : k ∈ d.keysWhere p ↔ p k v = true := by
        rw [mem_keysWhere_iff]
        simp [hget]
      by_cases hp : p k v = true
      · rw [if_pos (hmem.2 hp), Option.filter_some_neg (by simp [hp])]
      · rw [if_neg (fun hk => hp (hmem.1 hk)),
          Option.filter_some_pos (by simp [hp])]

/-- Filtering the items filters the lookup. -/
theorem get?_filter (d : Dict κ ν) (p : κ → ν → Bool) (k : κ) :
    (d.filter p).get? k = (d.get? k).filter (p k) := by
  refine Option.ext (fun v => ?_)
  have hitems : (k, v) ∈ (d.filter p).items ↔ (k, v) ∈ d.items ∧ p k v = true := List.mem_filter
  have hfiltered := (d.filter p).mem_items_iff k v
  have hplain := d.mem_items_iff k v
  rw [Option.filter_eq_some_iff]
  tauto

/-! ## Values -/

/-- The stored values, in the order of their keys. -/
def values (d : Dict κ ν) : List ν := d.items.map Prod.snd

theorem store_of_lookup_none {k : κ} (v : ν) {l : List (κ × ν)} (h : lookup k l = none) :
    store k v l = l ++ [(k, v)] := by
  induction l with
  | nil => rfl
  | cons kv rest ih =>
      obtain ⟨a, b⟩ := kv
      unfold lookup at h
      split at h
      · cases h
      next hka => rw [store, if_neg hka, ih h, List.cons_append]

/-- A new key comes last. -/
theorem values_set {d : Dict κ ν} {k : κ} (h : d.get? k = none) (v : ν) :
    (d.set k v).values = d.values ++ [v] := by
  simp only [values, set, store_of_lookup_none v h, List.map_append, List.map_cons, List.map_nil]

theorem perm_filter_ne {k : κ} {v : ν} {l : List (κ × ν)} (hnodup : (l.map Prod.fst).Nodup)
    (h : lookup k l = some v) : l.Perm ((k, v) :: l.filter (fun kv => kv.1 ≠ k)) := by
  induction l with
  | nil => cases h
  | cons kv rest ih =>
      obtain ⟨a, b⟩ := kv
      simp only [List.map_cons, List.nodup_cons] at hnodup
      by_cases hka : k = a
      · subst hka
        rw [lookup, if_pos rfl, Option.some.injEq] at h
        subst h
        have hrest : rest.filter (fun kv => kv.1 ≠ k) = rest := by
          refine List.filter_eq_self.2 ?_
          intro kv hkv
          have hne : kv.1 ≠ k := fun heq => hnodup.1 (heq ▸ List.mem_map_of_mem hkv)
          simpa using hne
        rw [List.filter_cons_of_neg (by simp), hrest]
      · rw [lookup, if_neg hka] at h
        have hne : a ≠ k := fun heq => hka heq.symm
        rw [List.filter_cons_of_pos (by simpa using hne)]
        exact ((ih hnodup.2 h).cons (a, b)).trans (List.Perm.swap _ _ _)

/-- Deleting a key removes its value once. -/
theorem values_del {d : Dict κ ν} {k : κ} {v : ν} (h : d.get? k = some v) :
    d.values.Perm (v :: (d.del k).values) :=
  (perm_filter_ne d.nodup h).map Prod.snd

/-- Overwriting a key stores no item more. -/
theorem length_set {d : Dict κ ν} {k : κ} (h : (d.get? k).isSome) (v : ν) :
    (d.set k v).items.length = d.items.length := by
  show (store k v d.items).length = d.items.length
  have hlookup : (lookup k d.items).isSome := h
  generalize d.items = l at hlookup ⊢
  induction l with
  | nil => cases hlookup
  | cons kv rest ih =>
      obtain ⟨a, b⟩ := kv
      unfold store
      split
      next => rfl
      next hka =>
        rw [lookup, if_neg hka] at hlookup
        rw [List.length_cons, List.length_cons, ih hlookup]

/-- The keys, in the order they were first stored. -/
def keys (d : Dict κ ν) : List κ := d.items.map Prod.fst

theorem mem_keys {d : Dict κ ν} {k : κ} : k ∈ d.keys ↔ ∃ v, d.get? k = some v := by
  simp only [keys, List.mem_map, Prod.exists, exists_and_right, exists_eq_right, mem_items_iff]

/-- Looking up every key gives the values. -/
theorem filterMap_keys (d : Dict κ ν) : d.keys.filterMap d.get? = d.values := by
  rw [keys, values, List.filterMap_map]
  have hitem : ∀ kv ∈ d.items, (d.get? ∘ Prod.fst) kv = (some ∘ Prod.snd) kv :=
    fun kv hkv => (d.mem_items_iff kv.1 kv.2).1 hkv
  rw [List.filterMap_congr hitem, List.filterMap_eq_map]

theorem mem_values {d : Dict κ ν} {v : ν} : v ∈ d.values ↔ ∃ k, d.get? k = some v := by
  simp only [values, List.mem_map, Prod.exists, exists_eq_right, mem_items_iff]

end Dict

end ProverNetwork.Verified
