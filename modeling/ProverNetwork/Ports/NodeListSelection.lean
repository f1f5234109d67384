import Mathlib.Data.Finset.Card
import ProverNetwork.Ports.NodeListHistory

/-!
# The nodes the hub hands out

`get_node` answers with the tuples of all nodes, or of as many as a client asks
for, drawn at random.  Nothing compares the addresses of the nodes it returns:
that they are distinct comes from the keys, which the registrations choose and
the cleanup keeps.

Which pairs are registered is read off the calls alone: `Standing` follows one
pair through them, from its registrations to its removals and to the cleanups it
is too old for.  That the table holds these pairs and no others is a theorem.

## Main results

* `keyed` — every node stands under the key of its two addresses.
* `getNode_drawn` — both branches look up a list of distinct keys.
* `registered_eq_current` — the table holds the pairs that stand after the calls.
* `node_selection` — what a selection is, in every state of every run.
-/

namespace ProverNetwork.Ports.NodeListHistory

open ProverNetwork.Verified
open ProverNetwork.Ports
open ProverNetwork.Ports.NodeList

/-- The two addresses of a node. -/
def pairOf (node : Node) : String × String := (node.grpc_info, node.http_info)

/-- The two addresses of a tuple. -/
def tuplePair (t : String × String × Int × String) : String × String := (t.1, t.2.1)

/-- The pairs of addresses that the table holds. -/
def registered (l : NodeList) : Finset (String × String) :=
  (l.nodes.values.map pairOf).toFinset

/-- The keys that `get_node` looks up. -/
def drawn (l : NodeList) (size : Nat) (sample : List String) : List String :=
  if size > l.nodes.items.length then l.nodes.keys else sample

theorem getNode_drawn (l : NodeList) (size : Nat) (sample : List String) :
    l.getNode size sample = ((drawn l size sample).filterMap l.nodes.get?).map tuple := by
  unfold getNode drawn
  split
  next => rw [Dict.filterMap_keys]
  next => rfl

/-- The drawn keys are distinct keys of nodes, as many as asked for or there
are. -/
theorem drawn_spec {l : NodeList} {size : Nat} {sample : List String}
    (h : Sampled l size sample) :
    (drawn l size sample).length = min size l.nodes.items.length ∧
      (drawn l size sample).Nodup ∧ ∀ k ∈ drawn l size sample, ∃ node, l.nodes.get? k = some node := by
  unfold drawn
  split
  next hall =>
    have hlen : l.nodes.keys.length = l.nodes.items.length := List.length_map _
    exact ⟨by omega, l.nodes.nodup, fun k hk => Dict.mem_keys.1 hk⟩
  next hsome =>
    obtain ⟨hlen, hnodup, hkeys⟩ := h (by omega)
    exact ⟨by omega, hnodup, fun k hk => Dict.mem_keys.1 (hkeys k hk)⟩

section Digest

variable {digest : String → String}

/-- Every node stands under the key of its two addresses. -/
def Keyed (digest : String → String) (l : NodeList) : Prop :=
  ∀ key node, l.nodes.get? key = some node → keyOf digest node = key

theorem HistoryInv.keyed {w : World} (hinv : HistoryInv digest w) : Keyed digest w.list :=
  fun key node hget => (latest_eq_some (hinv.stored key node hget)).1.symm

/-- The keys of the nodes that were looked up are the keys they were looked up
by. -/
theorem Keyed.map_keyOf {l : NodeList} (hkeyed : Keyed digest l) {ks : List String}
    (h : ∀ k ∈ ks, ∃ node, l.nodes.get? k = some node) :
    (ks.filterMap l.nodes.get?).map (keyOf digest) = ks := by
  induction ks with
  | nil => rfl
  | cons k ks ih =>
      obtain ⟨node, hget⟩ := h k List.mem_cons_self
      have hrest := ih (fun k' hk' => h k' (List.mem_cons_of_mem k hk'))
      rw [List.filterMap_cons_some hget, List.map_cons, hrest, hkeyed k node hget]

/-- Nodes under distinct keys have distinct pairs of addresses. -/
theorem Keyed.nodup_pairs {l : NodeList} (hkeyed : Keyed digest l) {ks : List String}
    (hnodup : ks.Nodup) (h : ∀ k ∈ ks, ∃ node, l.nodes.get? k = some node) :
    ((ks.filterMap l.nodes.get?).map pairOf).Nodup := by
  have hkeys := hkeyed.map_keyOf h
  apply List.Nodup.of_map (fun p => generateUnique digest p.1 p.2)
  rw [List.map_map]
  show ((ks.filterMap l.nodes.get?).map (keyOf digest)).Nodup
  rw [hkeys]
  exact hnodup

/-- There are as many registered pairs as nodes. -/
theorem Keyed.card_registered {l : NodeList} (hkeyed : Keyed digest l) :
    (registered l).card = l.nodes.items.length := by
  have hnodup : l.nodes.keys.Nodup := l.nodes.nodup
  have hpairs := hkeyed.nodup_pairs hnodup (fun k hk => Dict.mem_keys.1 hk)
  rw [Dict.filterMap_keys] at hpairs
  rw [registered, List.toFinset_card_of_nodup hpairs, List.length_map]
  exact List.length_map _

theorem mem_registered {l : NodeList} {p : String × String} :
    p ∈ registered l ↔ ∃ key node, l.nodes.get? key = some node ∧ pairOf node = p := by
  rw [registered, List.mem_toFinset, List.mem_map]
  constructor
  · rintro ⟨node, hmem, hpair⟩
    obtain ⟨key, hget⟩ := Dict.mem_values.1 hmem
    exact ⟨key, node, hget, hpair⟩
  · rintro ⟨key, node, hget, hpair⟩
    exact ⟨node, Dict.mem_values.2 ⟨key, hget⟩, hpair⟩

/-- A registration of a registered pair overwrites its node. -/
theorem Keyed.add_length {l : NodeList} (hkeyed : Keyed digest l) {g h : String}
    (hmem : (g, h) ∈ registered l) (now : ℚ) :
    (l.add digest g h now).nodes.items.length = l.nodes.items.length := by
  obtain ⟨key, node, hget, hpair⟩ := mem_registered.1 hmem
  rw [pairOf, Prod.mk.injEq] at hpair
  have hkey : key = generateUnique digest g h := by
    rw [← hkeyed key node hget, keyOf, hpair.1, hpair.2]
  rw [add_nodes]
  apply Dict.length_set
  rw [← hkey, hget]
  rfl

end Digest

/-! ## The registrations that stand -/

/-- The pair that a call registers. -/
def Op.pair? (op : Op) : Option (String × String) :=
  op.registration?.map (fun r => (r.grpc_info, r.http_info))

/-- The pairs that were ever registered. -/
def pairsOf (ops : List Op) : List (String × String) := ops.filterMap Op.pair?

/-- Where a pair stands: since when it is registered, where it is, next to the
timeout that cleanups go by. -/
structure Standing where
  timeout : Int
  since : Option Int

def Standing.initial : Standing := ⟨30, none⟩

section Digest

variable (digest : String → String)

/-- What a call means for the pair `p`. -/
def Standing.next (p : String × String) (s : Standing) : Op → Standing
  | .add grpc_info http_info now =>
      if p = (grpc_info, http_info) then { s with since := some (wholeSeconds now) } else s
  | .remove index =>
      if generateUnique digest p.1 p.2 = index then { s with since := none } else s
  | .removeInactiveNodes now =>
      { s with since := s.since.filter (fun t => wholeSeconds now - t ≤ s.timeout) }
  | .setTimeout timeout => { s with timeout := timeout }
  | .getNode _ _ => s

/-- Where the pair `p` stands after the calls. -/
def standing (p : String × String) (ops : List Op) : Standing :=
  ops.foldl (Standing.next digest p) Standing.initial

/-- The pairs that were registered and neither removed nor dropped since. -/
def current (ops : List Op) : Finset (String × String) :=
  (pairsOf ops).toFinset.filter (fun p => (standing digest p ops).since.isSome)

/-- No two key texts of the run have one digest. -/
def KeysCollisionFree (ops : List Op) : Prop :=
  ∀ p ∈ pairsOf ops, ∀ q ∈ pairsOf ops,
    digest (uniqueText p.1 p.2) = digest (uniqueText q.1 q.2) →
      uniqueText p.1 p.2 = uniqueText q.1 q.2

instance (ops : List Op) : Decidable (KeysCollisionFree digest ops) :=
  inferInstanceAs (Decidable (∀ p ∈ pairsOf ops, ∀ q ∈ pairsOf ops, _ → _))

variable {digest}

theorem standing_concat (p : String × String) (ops : List Op) (op : Op) :
    standing digest p (ops ++ [op]) = (standing digest p ops).next digest p op := by
  rw [standing, List.foldl_append]
  rfl

theorem pairsOf_concat (ops : List Op) (op : Op) :
    pairsOf (ops ++ [op]) = pairsOf ops ++ op.pair?.toList := by
  rw [pairsOf, List.filterMap_append, pairsOf]
  cases hop : op.pair? with
  | none => rw [List.filterMap_cons_none hop]; rfl
  | some p => rw [List.filterMap_cons_some hop]; rfl

theorem KeysCollisionFree.before {ops : List Op} {op : Op}
    (hfree : KeysCollisionFree digest (ops ++ [op])) : KeysCollisionFree digest ops := by
  have hold : ∀ p ∈ pairsOf ops, p ∈ pairsOf (ops ++ [op]) := fun p hp => by
    rw [pairsOf_concat]
    exact List.mem_append_left _ hp
  exact fun p hp q hq => hfree p (hold p hp) q (hold q hq)

/-- Different pairs of the run have different keys. -/
theorem KeysCollisionFree.eq {ops : List Op} (hfree : KeysCollisionFree digest ops)
    {p q : String × String} (hp : p ∈ pairsOf ops) (hq : q ∈ pairsOf ops)
    (hkey : generateUnique digest p.1 p.2 = generateUnique digest q.1 q.2) : p = q := by
  obtain ⟨hgrpc, hhttp⟩ := uniqueText_inj (hfree p hp q hq hkey)
  exact Prod.ext hgrpc hhttp

/-- A pair stands only where it was registered. -/
theorem mem_pairsOf_of_standing {p : String × String} {ops : List Op} {t : Int}
    (h : (standing digest p ops).since = some t) : p ∈ pairsOf ops := by
  induction ops using List.reverseRecOn generalizing t with
  | nil => cases h
  | append_singleton ops op ih =>
      rw [pairsOf_concat]
      rw [standing_concat] at h
      cases op with
      | add g h' now =>
          by_cases hp : p = (g, h')
          · subst hp
            exact List.mem_append_right _ List.mem_cons_self
          · rw [Standing.next, if_neg hp] at h
            exact List.mem_append_left _ (ih h)
      | remove index =>
          rw [Standing.next] at h
          split at h
          next => cases h
          next => exact List.mem_append_left _ (ih h)
      | removeInactiveNodes now =>
          exact List.mem_append_left _ (ih (Option.filter_eq_some_iff.1 h).1)
      | setTimeout timeout => exact List.mem_append_left _ (ih h)
      | getNode size sample => exact List.mem_append_left _ (ih h)

theorem mem_current {p : String × String} {ops : List Op} :
    p ∈ current digest ops ↔ ∃ t, (standing digest p ops).since = some t := by
  rw [current, Finset.mem_filter, List.mem_toFinset, Option.isSome_iff_exists]
  constructor
  · rintro ⟨-, hsince⟩
    exact hsince
  · rintro ⟨t, ht⟩
    exact ⟨mem_pairsOf_of_standing ht, t, ht⟩

/-! ## The table holds the registrations that stand -/

/-- The table has a node of the pair `p` with the time `t`, under the key of `p`. -/
def Held (digest : String → String) (l : NodeList) (p : String × String) (t : Int) : Prop :=
  ∃ node, l.nodes.get? (generateUnique digest p.1 p.2) = some node ∧ pairOf node = p ∧
    node.timestamp = t

/-- The list has the timeout in force, and the table holds a pair exactly while it
stands, with the time of its registration. -/
structure TableInv (digest : String → String) (ops : List Op) (l : NodeList) : Prop where
  timeout : ∀ p, (standing digest p ops).timeout = l.timeout
  held : ∀ p t, (standing digest p ops).since = some t ↔ Held digest l p t

theorem initial_tableInv : TableInv digest [] .init := by
  refine ⟨fun p => rfl, ?_⟩
  intro p t
  constructor
  · intro h
    cases h
  · rintro ⟨node, hget, -⟩
    cases hget

theorem TableInv.add {ops : List Op} {l : NodeList} (hinv : TableInv digest ops l)
    {g h : String} {now : ℚ} (hfree : KeysCollisionFree digest (ops ++ [.add g h now])) :
    TableInv digest (ops ++ [.add g h now]) (l.add digest g h now) := by
  have hnew : (g, h) ∈ pairsOf (ops ++ [.add g h now]) := by
    rw [pairsOf_concat]
    exact List.mem_append_right _ List.mem_cons_self
  constructor
  case timeout =>
    intro p
    rw [standing_concat, Standing.next, add_timeout]
    split
    next => exact hinv.timeout p
    next => exact hinv.timeout p
  case held =>
    intro p t
    rw [standing_concat, Standing.next, Held]
    simp only [add_get?]
    by_cases hp : p = (g, h)
    · subst hp
      rw [if_pos rfl, if_pos rfl]
      constructor
      · intro ht
        exact ⟨_, rfl, rfl, Option.some.inj ht⟩
      · rintro ⟨node, hnode, -, htime⟩
        rw [← htime, ← Option.some.inj hnode]
    · rw [if_neg hp]
      by_cases hkey : generateUnique digest p.1 p.2 = generateUnique digest g h
      · -- `p` has the key of another pair, so the run never registered it
        rw [if_pos hkey]
        constructor
        · intro ht
          have hmem : p ∈ pairsOf (ops ++ [.add g h now]) := by
            rw [pairsOf_concat]
            exact List.mem_append_left _ (mem_pairsOf_of_standing ht)
          exact absurd (hfree.eq hmem hnew hkey) hp
        · rintro ⟨node, hnode, hpair, -⟩
          rw [← Option.some.inj hnode] at hpair
          exact absurd hpair.symm hp
      · rw [if_neg hkey]
        exact hinv.held p t

theorem TableInv.remove {ops : List Op} {l : NodeList} (hinv : TableInv digest ops l)
    (index : String) : TableInv digest (ops ++ [.remove index]) (l.remove index) := by
  constructor
  case timeout =>
    intro p
    rw [standing_concat, Standing.next, remove_timeout]
    split
    next => exact hinv.timeout p
    next => exact hinv.timeout p
  case held =>
    intro p t
    rw [standing_concat, Standing.next, Held]
    simp only [remove_get?]
    by_cases hkey : generateUnique digest p.1 p.2 = index
    · rw [if_pos hkey, if_pos hkey]
      simp
    · rw [if_neg hkey, if_neg hkey]
      exact hinv.held p t

theorem TableInv.removeInactiveNodes {ops : List Op} {l : NodeList}
    (hinv : TableInv digest ops l) (now : ℚ) :
    TableInv digest (ops ++ [.removeInactiveNodes now]) (l.removeInactiveNodes now) := by
  constructor
  case timeout =>
    intro p
    rw [standing_concat]
    exact hinv.timeout p
  case held =>
    intro p t
    rw [standing_concat, Standing.next, Held]
    simp only [removeInactiveNodes_get?, Option.filter_eq_some_iff]
    rw [hinv.held p t, hinv.timeout p]
    constructor
    · rintro ⟨⟨node, hget, hpair, htime⟩, hage⟩
      rw [← htime] at hage
      exact ⟨node, ⟨hget, hage⟩, hpair, htime⟩
    · rintro ⟨node, ⟨hget, hage⟩, hpair, htime⟩
      rw [htime] at hage
      exact ⟨⟨node, hget, hpair, htime⟩, hage⟩

theorem TableInv.setTimeout {ops : List Op} {l : NodeList} (hinv : TableInv digest ops l)
    (timeout : Int) : TableInv digest (ops ++ [.setTimeout timeout]) (l.setTimeout timeout) := by
  refine ⟨fun p => ?_, fun p t => ?_⟩
  · rw [standing_concat]
    rfl
  · rw [standing_concat]
    exact hinv.held p t

theorem TableInv.getNode {ops : List Op} {l : NodeList} (hinv : TableInv digest ops l)
    (size : Nat) (sample : List String) : TableInv digest (ops ++ [.getNode size sample]) l := by
  refine ⟨fun p => ?_, fun p t => ?_⟩
  · rw [standing_concat]
    exact hinv.timeout p
  · rw [standing_concat]
    exact hinv.held p t

theorem step_tableInv {ops : List Op} {w w' : World} {op : Op}
    (hfree : KeysCollisionFree digest (ops ++ [op])) (hinv : TableInv digest ops w.list)
    (hstep : w.step digest op = some w') : TableInv digest (ops ++ [op]) w'.list := by
  cases op with
  | add g h now => exact Option.some.inj hstep ▸ hinv.add hfree
  | remove index => exact Option.some.inj hstep ▸ hinv.remove index
  | removeInactiveNodes now => exact Option.some.inj hstep ▸ hinv.removeInactiveNodes now
  | setTimeout timeout => exact Option.some.inj hstep ▸ hinv.setTimeout timeout
  | getNode size sample =>
      rw [World.step] at hstep
      split at hstep
      next => exact Option.some.inj hstep ▸ hinv.getNode size sample
      next => cases hstep

theorem run_tableInv {ops : List Op} {w : World} (hfree : KeysCollisionFree digest ops)
    (hrun : run (World.step digest) World.initial ops = some w) : TableInv digest ops w.list :=
  run_invariant_history
    (fun done w => KeysCollisionFree digest done → TableInv digest done w.list)
    (fun _ _ _ _ hinv hstep hfree => step_tableInv hfree (hinv hfree.before) hstep)
    (fun _ => initial_tableInv) hrun hfree

/-- **The table holds the pairs that stand after the calls.** -/
theorem registered_eq_current {ops : List Op} {w : World}
    (hfree : KeysCollisionFree digest ops)
    (hrun : run (World.step digest) World.initial ops = some w) :
    registered w.list = current digest ops := by
  have hinv := run_tableInv hfree hrun
  have hkeyed := (run_historyInv hrun).keyed
  ext p
  rw [mem_registered, mem_current]
  constructor
  · rintro ⟨key, node, hget, rfl⟩
    rw [← hkeyed key node hget] at hget
    exact ⟨node.timestamp, (hinv.held _ _).2 ⟨node, hget, rfl, rfl⟩⟩
  · rintro ⟨t, ht⟩
    obtain ⟨node, hget, hpair, -⟩ := (hinv.held p t).1 ht
    exact ⟨_, node, hget, hpair⟩

/-- **Selection is duplicate-free and current.**  In every state of every run
each node stands under the key of its addresses; a selection has as many tuples
as asked for or there are pairs that were registered and neither removed nor
dropped since, no two of the same pair; each is of such a pair, with the time and
the proof of history of its latest registration; and registering such a pair
again adds no node. -/
theorem node_selection {ops : List Op} {w : World} (hfree : KeysCollisionFree digest ops)
    (hrun : run (World.step digest) World.initial ops = some w) :
    w.log.map registration = ops.filterMap Op.registration? ∧
      (∀ key node, w.list.nodes.get? key = some node →
        key = generateUnique digest node.grpc_info node.http_info) ∧
      (∀ size sample, Sampled w.list size sample →
        (w.list.getNode size sample).length = min size (current digest ops).card ∧
        ((w.list.getNode size sample).map tuplePair).Nodup ∧
        ∀ t ∈ w.list.getNode size sample, tuplePair t ∈ current digest ops ∧
          (standing digest (tuplePair t) ops).since = some t.2.2.1 ∧
          ∃ node, tuple node = t ∧ (w.log.filter (fun n =>
            n.grpc_info = node.grpc_info ∧ n.http_info = node.http_info)).getLast? = some node) ∧
      (∀ g h now, (g, h) ∈ current digest ops →
        (w.list.add digest g h now).nodes.items.length ≤ w.list.nodes.items.length) := by
  have hinv := run_historyInv hrun
  have hkeyed := hinv.keyed
  have htable := run_tableInv hfree hrun
  rw [← registered_eq_current hfree hrun]
  refine ⟨?_, fun key node hget => (hkeyed key node hget).symm, ?_,
    fun g h now hmem => Nat.le_of_eq (hkeyed.add_length hmem now)⟩
  · rw [run_registrations hrun]
    rfl
  intro size sample hsampled
  obtain ⟨hlen, hnodup, hkeys⟩ := drawn_spec hsampled
  have hlength : ((drawn w.list size sample).filterMap w.list.nodes.get?).length =
      (drawn w.list size sample).length := by
    have hmap := congrArg List.length (hkeyed.map_keyOf hkeys)
    rwa [List.length_map] at hmap
  have hpairs := hkeyed.nodup_pairs hnodup hkeys
  rw [getNode_drawn]
  refine ⟨?_, ?_, ?_⟩
  · rw [List.length_map, hlength, hlen, hkeyed.card_registered]
  · rw [List.map_map]
    exact hpairs
  · intro t ht
    obtain ⟨node, hnode, rfl⟩ := List.mem_map.1 ht
    obtain ⟨key, -, hget⟩ := List.mem_filterMap.1 hnode
    have hown := hget
    rw [← hkeyed key node hget] at hown
    exact ⟨mem_registered.2 ⟨key, node, hget, rfl⟩,
      (htable.held _ _).2 ⟨node, hown, rfl, rfl⟩, node, rfl,
      (latest_eq_some (hinv.stored key node hget)).2⟩

end Digest

/-- Three nodes register, one of them long before the others.  One is removed, and
a cleanup drops the oldest. -/
def leavingNodes : List Op :=
  [.add "93.184.216.36:50051" "https://93.184.216.36" 1751327000,
    .add "93.184.216.34:50051" "https://93.184.216.34" 1751328000,
    .add "93.184.216.35:50051" "https://93.184.216.35" 1751328001,
    .add "93.184.216.34:50051" "https://93.184.216.34" 1751328010,
    .remove (generateUnique sha256Hexdigest "93.184.216.35:50051" "https://93.184.216.35"),
    .removeInactiveNodes 1751328020]

theorem leavingNodes_isSome :
    (run (World.step sha256Hexdigest) World.initial leavingNodes).isSome := by decide +kernel

/-- The three key texts have three digests. -/
theorem leavingNodes_collisionFree : KeysCollisionFree sha256Hexdigest leavingNodes := by
  decide +kernel

/-- A client asks for four nodes, and is given the one that is left. -/
theorem leavingNodes_selection : ∃ w,
    run (World.step sha256Hexdigest) World.initial leavingNodes = some w ∧
      current sha256Hexdigest leavingNodes =
        {("93.184.216.34:50051", "https://93.184.216.34")} ∧
      (w.list.getNode 4 []).length = 1 := by
  refine ⟨_, (Option.some_get leavingNodes_isSome).symm, by decide +kernel, ?_⟩
  have hselection := node_selection leavingNodes_collisionFree
    (Option.some_get leavingNodes_isSome).symm
  have hsampled : Sampled ((run (World.step sha256Hexdigest) World.initial leavingNodes).get
      leavingNodes_isSome).list 4 [] := by decide +kernel
  have hcard : (current sha256Hexdigest leavingNodes).card = 1 := by decide +kernel
  rw [(hselection.2.2.1 4 [] hsampled).1, hcard]
  rfl

end ProverNetwork.Ports.NodeListHistory
