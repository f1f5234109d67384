import ProverNetwork.Ports.GetNode
import ProverNetwork.Ports.NodeRegister

/-!
# The table of a run

Whatever registrations are under way, each node of the table stands under the key of
its two addresses, and it was put there by a request that passed every check.  A
selection therefore has no pair of addresses twice, and no address that the
validators refuse.

## Main results

* `run_tableInv` — what the table of every run keeps.
* `TableInv.selection`, `TableInv.selected` — what a selection of four is.
-/

namespace ProverNetwork.Ports.NodeRegister

open ProverNetwork.Verified
open ProverNetwork.Ports
open ProverNetwork.Ports.NodeListHistory (Keyed keyOf Sampled drawn drawn_spec getNode_drawn pairOf
  tuplePair)

variable {ι Ip Net Pub Priv : Type} [DecidableEq ι] {s : Setup Ip Net Pub Priv}

/-- Some request with these addresses passed every check before the pings. -/
def Passed (s : Setup Ip Net Pub Priv) (g h : String) : Prop :=
  ∃ request rsa, Admitted s request rsa g h

/-- Every node stands under the key of its addresses, which passed every check. -/
structure TableInv (s : Setup Ip Net Pub Priv) (l : NodeList) : Prop where
  keyed : Keyed s.digest l
  passed : ∀ key node, l.nodes.get? key = some node → Passed s node.grpc_info node.http_info

theorem TableInv.add {l : NodeList} (hinv : TableInv s l) {g h : String} (hpassed : Passed s g h)
    (now : ℚ) : TableInv s (l.add s.digest g h now) where
  keyed := fun key node hget => by
    rw [NodeList.add_get?] at hget
    split at hget
    next hkey =>
      cases hget
      exact hkey.symm
    next => exact hinv.keyed key node hget
  passed := fun key node hget => by
    rw [NodeList.add_get?] at hget
    split at hget
    next =>
      cases hget
      exact hpassed
    next => exact hinv.passed key node hget

theorem TableInv.removeInactiveNodes {l : NodeList} (hinv : TableInv s l) (now : ℚ) :
    TableInv s (l.removeInactiveNodes now) := by
  have hkept : ∀ key node, (l.removeInactiveNodes now).nodes.get? key = some node →
      l.nodes.get? key = some node := by
    intro key node hget
    rw [NodeList.removeInactiveNodes_get?] at hget
    exact (Option.filter_eq_some_iff.1 hget).1
  exact ⟨fun key node hget => hinv.keyed key node (hkept key node hget),
    fun key node hget => hinv.passed key node (hkept key node hget)⟩

/-- **Step lemma.** -/
theorem TableInv.of_effect {w w' : World ι Pub Priv} {label : Label ι Pub Priv}
    {a : Option Answer} (hinv : TableInv s w.nodeList) (hregister : RegisterInv s w)
    (heff : Effect (s := s) w label a w') : TableInv s w'.nodeList := by
  cases heff with
  | kept => exact hinv
  | cleaned now =>
      have htimeout : TableInv s (w.nodeList.setTimeout 600) := ⟨hinv.keyed, hinv.passed⟩
      exact htimeout.removeInactiveNodes now
  | registers i now request rsa g h hget =>
      exact hinv.add ⟨request, rsa, hregister i _ hget⟩ now

/-- **Run lemma.** -/
theorem run_tableInv {w : World ι Pub Priv} {labels : List (Label ι Pub Priv)}
    (hrun : run (World.step s) World.initial labels = some w) : TableInv s w.nodeList := by
  have hinitial : TableInv s (World.initial : World ι Pub Priv).nodeList :=
    ⟨fun _ _ h => (by cases h), fun _ _ h => (by cases h)⟩
  refine (run_invariant (fun w => RegisterInv s w ∧ TableInv s w.nodeList) (fun _ => True) ?_
    (fun _ _ => trivial) ⟨initial_registerInv, hinitial⟩ hrun).2
  intro v label v' _ hinv hstep
  have heff := effect_of_handle hinv.1 (step_eq_some hstep)
  exact ⟨hinv.1.step heff, hinv.2.of_effect hinv.1 heff⟩

/-- A selection of four has at most four nodes, and no pair of addresses twice. -/
theorem TableInv.selection {l : NodeList} (hinv : TableInv s l) {sample : List String}
    (hsampled : Sampled l 4 sample) : GetNode.Ticket.Selection (l.getNode 4 sample) := by
  obtain ⟨hlen, hnodup, hkeys⟩ := drawn_spec hsampled
  have hpairs := hinv.keyed.nodup_pairs hnodup hkeys
  rw [getNode_drawn]
  constructor
  · rw [List.length_map]
    have hle := List.length_filterMap_le l.nodes.get? (drawn l 4 sample)
    omega
  · rw [List.map_map]
    exact hpairs

/-- What is selected passed every check. -/
theorem TableInv.selected {l : NodeList} (hinv : TableInv s l) {sample : List String}
    {t : GetNode.RawNode} (ht : t ∈ l.getNode 4 sample) : Passed s t.1 t.2.1 := by
  rw [getNode_drawn] at ht
  obtain ⟨node, hnode, rfl⟩ := List.mem_map.1 ht
  obtain ⟨key, -, hget⟩ := List.mem_filterMap.1 hnode
  exact hinv.passed key node hget

end ProverNetwork.Ports.NodeRegister
