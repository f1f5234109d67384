import ProverNetwork.Ports.NodeList
import ProverNetwork.Verified.Decimal
import ProverNetwork.Verified.HashChain
import ProverNetwork.Verified.Run

/-!
# The registration history

Registrations, removals, cleanups, changes of the timeout and readers of the
table come in any order and at any times.  The log of the registrations is
ghost state: no operation reads it.

## Main results

* `HistoryInv` — the proofs of history in the log are the links of a chain over
  the registrations, its last link is the head, and the table holds the latest
  registration under each key.
* `registration_history` — the same over every run, with the links pairwise
  distinct where no two texts of the run have one digest.
* `last_poh_index_commits` — the head determines the registrations.
-/

namespace ProverNetwork.Ports.NodeListHistory

open ProverNetwork.Verified
open ProverNetwork.Verified.JsonText
open ProverNetwork.Ports
open ProverNetwork.Ports.NodeList

/-! ## The text that is hashed -/

theorem toList_pohText (g h : String) (t : Int) (last : Option String) :
    (pohText g h t last).toList =
      "\x7b\"grpc_info\": ".toList ++ ((quote g).toList ++ (", \"http_info\": ".toList ++
        ((quote h).toList ++ (", \"last_poh_index\": ".toList ++ ((headText last).toList ++
          (", \"timestamp\": ".toList ++ ((toString t).toList ++ ['\x7d']))))))) := by
  have hgrpc : quote "grpc_info" = "\"grpc_info\"" := rfl
  have hhttp : quote "http_info" = "\"http_info\"" := rfl
  have hlast : quote "last_poh_index" = "\"last_poh_index\"" := rfl
  have htime : quote "timestamp" = "\"timestamp\"" := rfl
  simp [pohText, object, hgrpc, hhttp, hlast, htime]

/-- `null` is no string literal. -/
theorem headText_inj {p q : Option String} {x y : List Char}
    (h : (headText p).toList ++ x = (headText q).toList ++ y) : p = q ∧ x = y := by
  have hquote : ∀ s : String, ∃ rest, (quote s).toList = '"' :: rest := fun s =>
    ⟨_, String.toList_ofList⟩
  cases p with
  | none =>
      cases q with
      | none => exact ⟨rfl, List.append_cancel_left h⟩
      | some s =>
          obtain ⟨rest, hs⟩ := hquote s
          rw [headText, headText, hs] at h
          cases h
  | some s =>
      cases q with
      | none =>
          obtain ⟨rest, hs⟩ := hquote s
          rw [headText, headText, hs] at h
          cases h
      | some t =>
          obtain ⟨rfl, hrest⟩ := quote_inj h
          exact ⟨rfl, hrest⟩

/-- **The text determines the addresses, the time and the head before.** -/
theorem pohText_inj {g h g' h' : String} {t t' : Int} {last last' : Option String}
    (heq : pohText g h t last = pohText g' h' t' last') :
    g = g' ∧ h = h' ∧ t = t' ∧ last = last' := by
  have hlist := congrArg String.toList heq
  rw [toList_pohText, toList_pohText] at hlist
  obtain ⟨hg, hlist⟩ := quote_inj (List.append_cancel_left hlist)
  obtain ⟨hh, hlist⟩ := quote_inj (List.append_cancel_left hlist)
  obtain ⟨hlast, hlist⟩ := headText_inj (List.append_cancel_left hlist)
  have htime := List.append_cancel_right (List.append_cancel_left hlist)
  exact ⟨hg, hh, toString_inj htime, hlast⟩

/-! ## Runs -/

/-- What a registration is about. -/
structure Registration where
  grpc_info : String
  http_info : String
  timestamp : Int
  deriving DecidableEq

/-- The registration that a node was stored by. -/
def registration (node : Node) : Registration := ⟨node.grpc_info, node.http_info, node.timestamp⟩

/-- The calls of a node list, with the time in seconds where one reads it. -/
inductive Op
  | add (grpc_info http_info : String) (now : ℚ)
  | remove (index : String)
  | removeInactiveNodes (now : ℚ)
  | setTimeout (timeout : Int)
  | getNode (size : Nat) (sample : List String)

/-- The registration that a call asks for. -/
def Op.registration? : Op → Option Registration
  | .add grpc_info http_info now => some ⟨grpc_info, http_info, wholeSeconds now⟩
  | _ => none

/-- The node list, and the nodes as they were stored, oldest first. -/
structure World where
  list : NodeList
  log : List Node

def World.initial : World := ⟨.init, []⟩

/-- `random.sample` of the keys. -/
def Sampled (l : NodeList) (size : Nat) (sample : List String) : Prop :=
  size ≤ l.nodes.items.length →
    sample.length = size ∧ sample.Nodup ∧ ∀ k ∈ sample, k ∈ l.nodes.items.map Prod.fst

instance (l : NodeList) (size : Nat) (sample : List String) : Decidable (Sampled l size sample) :=
  inferInstanceAs (Decidable (_ → _))

section Digest

variable (digest : String → String)

/-- A registration logs what it stored under its key. -/
def World.register (w : World) (grpc_info http_info : String) (now : ℚ) : World :=
  let l := w.list.add digest grpc_info http_info now
  ⟨l, w.log ++ (l.nodes.get? (generateUnique digest grpc_info http_info)).toList⟩

def World.step (w : World) : Op → Option World
  | .add grpc_info http_info now => some (w.register digest grpc_info http_info now)
  | .remove index => some { w with list := w.list.remove index }
  | .removeInactiveNodes now => some { w with list := w.list.removeInactiveNodes now }
  | .setTimeout timeout => some { w with list := w.list.setTimeout timeout }
  | .getNode size sample => if Sampled w.list size sample then some w else none

/-- What a registration is given, from the one before. -/
def link (r : Registration) (last_poh_index : Option String) : String :=
  digest (pohText r.grpc_info r.http_info r.timestamp last_poh_index)

/-- The key of a node. -/
def keyOf (node : Node) : String := generateUnique digest node.grpc_info node.http_info

/-- The texts that a log was hashed from. -/
def pohTexts (log : List Node) : List String :=
  (HashChain.inputs (link digest) none (log.map registration)).map (fun x =>
    pohText x.1.grpc_info x.1.http_info x.1.timestamp x.2)

/-- The latest node of the log under a key. -/
def latest (log : List Node) (key : String) : Option Node :=
  (log.filter (fun node => keyOf digest node = key)).getLast?

/-- The log is a chain, its last link is the head, and what the table holds is
the latest registration under its key. -/
structure HistoryInv (w : World) : Prop where
  chained : w.log.map Node.poh = HashChain.chain (link digest) none (w.log.map registration)
  head : w.list.last_poh_index = (w.log.map Node.poh).getLast?
  stored : ∀ key node, w.list.nodes.get? key = some node → latest digest w.log key = some node

variable {digest}

theorem initial_historyInv : HistoryInv digest World.initial := by
  refine ⟨rfl, rfl, ?_⟩
  intro key node hget
  cases hget

theorem register_eq (w : World) (g h : String) (now : ℚ) :
    w.register digest g h now =
      ⟨w.list.add digest g h now, w.log ++ [⟨g, h, wholeSeconds now,
        w.list.generatePoh digest g h (wholeSeconds now)⟩]⟩ := by
  rw [World.register, add_get?, if_pos rfl]
  rfl

/-- One more node is the latest under its key, and under no other. -/
theorem latest_concat (log : List Node) (node : Node) (key : String) :
    latest digest (log ++ [node]) key =
      if key = keyOf digest node then some node else latest digest log key := by
  rw [latest, List.filter_append]
  by_cases hkey : key = keyOf digest node
  · rw [if_pos hkey, List.filter_cons_of_pos (by simpa using hkey.symm), List.filter_nil,
      List.getLast?_concat]
  · have hne : ¬keyOf digest node = key := fun heq => hkey heq.symm
    rw [if_neg hkey, List.filter_cons_of_neg (by simpa using hne), List.filter_nil,
      List.append_nil, latest]

theorem HistoryInv.register {w : World} (hinv : HistoryInv digest w) (g h : String) (now : ℚ) :
    HistoryInv digest (w.register digest g h now) := by
  rw [register_eq]
  have hlink : w.list.generatePoh digest g h (wholeSeconds now) =
      link digest ⟨g, h, wholeSeconds now⟩
        (HashChain.chain (link digest) none (w.log.map registration)).getLast? := by
    rw [generatePoh, hinv.head, hinv.chained]
    rfl
  constructor
  case chained =>
    rw [List.map_append, List.map_append]
    show _ ++ [w.list.generatePoh digest g h (wholeSeconds now)] =
      HashChain.chain (link digest) none (w.log.map registration ++ [⟨g, h, wholeSeconds now⟩])
    rw [HashChain.chain_concat, ← hlink, hinv.chained]
  case head =>
    rw [List.map_append, List.map_singleton, List.getLast?_concat]
    exact add_last_poh_index digest w.list g h now
  case stored =>
    intro key node hget
    rw [latest_concat]
    dsimp only at hget
    rw [add_get?] at hget
    by_cases hkey : key = generateUnique digest g h
    · rw [if_pos hkey] at hget
      exact (if_pos hkey).trans hget
    · rw [if_neg hkey] at hget
      exact (if_neg hkey).trans (hinv.stored key node hget)

/-- What loses nodes and leaves the head keeps the history. -/
theorem HistoryInv.lose {w : World} (hinv : HistoryInv digest w) {l : NodeList}
    (hlast : l.last_poh_index = w.list.last_poh_index)
    (hnodes : ∀ key node, l.nodes.get? key = some node → w.list.nodes.get? key = some node) :
    HistoryInv digest { w with list := l } :=
  ⟨hinv.chained, hlast.trans hinv.head, fun key node hget =>
    hinv.stored key node (hnodes key node hget)⟩

theorem remove_get?_eq_some {l : NodeList} {index key : String} {node : Node}
    (h : (l.remove index).nodes.get? key = some node) : l.nodes.get? key = some node := by
  rw [remove_get?] at h
  split at h
  next => cases h
  next => exact h

theorem remove_last_poh_index (l : NodeList) (index : String) :
    (l.remove index).last_poh_index = l.last_poh_index := by
  unfold remove
  split <;> rfl

theorem removeInactiveNodes_get?_eq_some {l : NodeList} {now : ℚ} {key : String} {node : Node}
    (h : (l.removeInactiveNodes now).nodes.get? key = some node) :
    l.nodes.get? key = some node := by
  rw [removeInactiveNodes_get?] at h
  exact (Option.filter_eq_some_iff.1 h).1

theorem step_historyInv {w w' : World} {op : Op} (hinv : HistoryInv digest w)
    (hstep : w.step digest op = some w') : HistoryInv digest w' := by
  cases op with
  | add g h now => exact Option.some.inj hstep ▸ hinv.register g h now
  | remove index =>
      exact Option.some.inj hstep ▸
        hinv.lose (remove_last_poh_index w.list index) (fun _ _ => remove_get?_eq_some)
  | removeInactiveNodes now =>
      exact Option.some.inj hstep ▸
        hinv.lose rfl (fun _ _ => removeInactiveNodes_get?_eq_some)
  | setTimeout timeout => exact Option.some.inj hstep ▸ hinv.lose rfl (fun _ _ hget => hget)
  | getNode size sample =>
      rw [World.step] at hstep
      split at hstep
      next => exact Option.some.inj hstep ▸ hinv
      next => cases hstep

theorem run_historyInv {ops : List Op} {w : World}
    (hrun : run (World.step digest) World.initial ops = some w) : HistoryInv digest w :=
  run_invariant (HistoryInv digest) (fun _ => True)
    (fun _ _ _ _ hinv hstep => step_historyInv hinv hstep) (fun _ _ => trivial)
    initial_historyInv hrun

/-! ## What the log is -/

theorem step_registrations {w w' : World} {op : Op} (hstep : w.step digest op = some w') :
    w'.log.map registration = w.log.map registration ++ op.registration?.toList := by
  cases op with
  | add g h now =>
      rw [← Option.some.inj hstep, register_eq, List.map_append]
      rfl
  | getNode size sample =>
      rw [World.step] at hstep
      split at hstep
      next =>
        rw [← Option.some.inj hstep]
        exact (List.append_nil _).symm
      next => cases hstep
  | _ =>
      rw [← Option.some.inj hstep]
      exact (List.append_nil _).symm

/-- The log has the registrations of the run, in order. -/
theorem run_registrations {ops : List Op} {w w' : World}
    (hrun : run (World.step digest) w ops = some w') :
    w'.log.map registration = w.log.map registration ++ ops.filterMap Op.registration? := by
  induction ops generalizing w with
  | nil =>
      rw [← Option.some.inj hrun]
      exact (List.append_nil _).symm
  | cons op rest ih =>
      obtain ⟨u, hstep, hrest⟩ := run_cons_eq_some.1 hrun
      rw [ih hrest, step_registrations hstep, List.append_assoc]
      cases hop : op.registration? with
      | none => rw [List.filterMap_cons_none hop]; rfl
      | some r => rw [List.filterMap_cons_some hop]; rfl

/-- The last of those that meet a condition is the last of fewer that it is one of. -/
theorem getLast?_filter_of_imp {p q : Node → Bool} {log : List Node} {node : Node}
    (hpq : ∀ n, q n = true → p n = true) (hq : q node = true)
    (h : (log.filter p).getLast? = some node) : (log.filter q).getLast? = some node := by
  obtain ⟨older, hlog⟩ := List.getLast?_eq_some_iff.1 h
  have hfilter : log.filter q = (log.filter p).filter q := by
    rw [List.filter_filter]
    refine List.filter_congr (fun n _ => ?_)
    cases hqn : q n with
    | false => rfl
    | true => rw [hpq n hqn]; rfl
  rw [hfilter, hlog, List.filter_append, List.filter_cons_of_pos hq, List.filter_nil,
    List.getLast?_concat]

theorem latest_eq_some {log : List Node} {key : String} {node : Node}
    (h : latest digest log key = some node) :
    key = keyOf digest node ∧
      (log.filter (fun n => n.grpc_info = node.grpc_info ∧ n.http_info = node.http_info)).getLast? =
        some node := by
  have hmem := List.mem_of_getLast? h
  have hkey : keyOf digest node = key := by simpa using (List.mem_filter.1 hmem).2
  refine ⟨hkey.symm, getLast?_filter_of_imp (fun n hn => ?_) (by simp) h⟩
  rw [decide_eq_true_iff] at hn ⊢
  rw [← hkey, keyOf, hn.1, hn.2, keyOf]

/-- No two texts of the log have one digest. -/
def CollisionFree (digest : String → String) (log : List Node) : Prop :=
  ∀ s ∈ pohTexts digest log, ∀ t ∈ pohTexts digest log, digest s = digest t → s = t

theorem HistoryInv.nodup {w : World} (hinv : HistoryInv digest w)
    (hfree : CollisionFree digest w.log) : (w.log.map Node.poh).Nodup := by
  rw [hinv.chained]
  refine HashChain.chain_nodup (fun x hx y hy hxy => ?_)
  have htext := hfree _ (List.mem_map_of_mem hx) _ (List.mem_map_of_mem hy) hxy
  exact (pohText_inj htext).2.2.2

theorem HistoryInv.poh_eq {w : World} (hinv : HistoryInv digest w) {k : Nat} {node : Node}
    (hk : w.log[k]? = some node) :
    node.poh = digest (pohText node.grpc_info node.http_info node.timestamp
      (HashChain.before (w.log.map Node.poh) k)) := by
  have hpoh : (w.log.map Node.poh)[k]? = some node.poh := by rw [List.getElem?_map, hk]; rfl
  rw [hinv.chained, HashChain.chain_getElem?, List.getElem?_map, hk] at hpoh
  rw [hinv.chained]
  exact (Option.some.inj hpoh).symm

/-- **The registration history is a chain without repeats.**  The log has the
registrations of the run in order; each one's proof of history is the digest of
its data and the one before; the head is the last of them, whatever was removed
since; a stored node is the latest registration of its addresses; and where no
two texts hashed in the run collide, no proof of history is issued twice. -/
theorem registration_history {ops : List Op} {w : World}
    (hrun : run (World.step digest) World.initial ops = some w) :
    w.log.map registration = ops.filterMap Op.registration? ∧
      (∀ k node, w.log[k]? = some node →
        node.poh = digest (pohText node.grpc_info node.http_info node.timestamp
          (HashChain.before (w.log.map Node.poh) k))) ∧
      w.list.last_poh_index = (w.log.map Node.poh).getLast? ∧
      (∀ key node, w.list.nodes.get? key = some node →
        key = generateUnique digest node.grpc_info node.http_info ∧
        (w.log.filter (fun n =>
          n.grpc_info = node.grpc_info ∧ n.http_info = node.http_info)).getLast? = some node) ∧
      (CollisionFree digest w.log → (w.log.map Node.poh).Nodup) := by
  have hinv := run_historyInv hrun
  refine ⟨?_, fun k node hk => hinv.poh_eq hk, hinv.head, ?_, hinv.nodup⟩
  · rw [run_registrations hrun]
    rfl
  · intro key node hget
    exact latest_eq_some (hinv.stored key node hget)

end Digest

/-- A node registers, is removed and registers again within the second, then
the list is cleaned up. -/
def registerTwice : List Op :=
  [.add "93.184.216.34:50051" "https://93.184.216.34" 1751328000,
    .remove (generateUnique sha256Hexdigest "93.184.216.34:50051" "https://93.184.216.34"),
    .add "93.184.216.34:50051" "https://93.184.216.34" 1751328000,
    .removeInactiveNodes 1751328600]

theorem registerTwice_isSome :
    (run (World.step sha256Hexdigest) World.initial registerTwice).isSome := by decide +kernel

theorem registerTwice_history : ∃ w,
    run (World.step sha256Hexdigest) World.initial registerTwice = some w ∧
      w.log.length = 2 ∧ (w.log.map Node.poh).Nodup := by
  refine ⟨_, (Option.some_get registerTwice_isSome).symm, by decide +kernel, ?_⟩
  have hfree : CollisionFree sha256Hexdigest
      ((run (World.step sha256Hexdigest) World.initial registerTwice).get
        registerTwice_isSome).log := by
    unfold CollisionFree
    decide +kernel
  exact (registration_history (Option.some_get registerTwice_isSome).symm).2.2.2.2 hfree

/-- **The head determines the registrations**, where no two texts collide. -/
theorem last_poh_index_commits {digest : String → String} (hinj : Function.Injective digest)
    {ops ops' : List Op} {w w' : World}
    (hrun : run (World.step digest) World.initial ops = some w)
    (hrun' : run (World.step digest) World.initial ops' = some w')
    (hhead : w.list.last_poh_index = w'.list.last_poh_index) :
    ops.filterMap Op.registration? = ops'.filterMap Op.registration? := by
  have hinv := run_historyInv hrun
  have hinv' := run_historyInv hrun'
  rw [hinv.head, hinv'.head, hinv.chained, hinv'.chained] at hhead
  have hregistrations := HashChain.chain_inj (fun a b p q hab => by
    obtain ⟨hg, hh, ht, hpq⟩ := pohText_inj (hinj hab)
    cases a
    cases b
    cases hg
    cases hh
    cases ht
    exact ⟨rfl, hpq⟩) hhead
  rw [run_registrations hrun, run_registrations hrun'] at hregistrations
  exact hregistrations

end ProverNetwork.Ports.NodeListHistory
