import Mathlib.Data.Rat.Defs
import ProverNetwork.Verified.Dict
import ProverNetwork.Verified.JsonText
import ProverNetwork.Verified.PyText
import ProverNetwork.Verified.Sha256

/-!
# The nodes the hub knows

A registration stores a node under the digest of its two addresses, with the
time and the head of a chain of digests; the head goes on with every
registration.  A cleanup drops the nodes that have not registered for a while.

The digest is a parameter.

## Main results

* `uniqueText_inj` — the text under a key determines the two addresses.
* `add_get?`, `remove_get?`, `removeInactiveNodes_get?` — what an operation does to a
  key.
-/

namespace ProverNetwork.Ports

open ProverNetwork.Verified
open ProverNetwork.Verified.JsonText

/-- `hashlib.sha256(text.encode()).hexdigest()`. -/
def sha256Hexdigest (text : String) : String :=
  String.ofList ((Sha256.sha256 (PyText.utf8 text)).flatMap (fun b =>
    [hexDigit (b.toNat / 16), hexDigit (b.toNat % 16)]))

structure Node where
  grpc_info : String
  http_info : String
  timestamp : Int
  poh : String
  deriving DecidableEq

structure NodeList where
  nodes : Dict String Node
  last_poh_index : Option String
  timeout : Int

namespace NodeList

/-- `_init`. -/
def init : NodeList := ⟨Dict.empty, none, 30⟩

/-- `int(now)`. -/
def wholeSeconds (now : ℚ) : Int := now.num.tdiv now.den

/-- The JSON text of the head of the chain. -/
def headText : Option String → String
  | none => "null"
  | some poh => quote poh

/-- The text that `_generate_poh` hashes. -/
def pohText (grpc_info http_info : String) (timestamp : Int) (last_poh_index : Option String) :
    String :=
  object [("grpc_info", quote grpc_info), ("http_info", quote http_info),
    ("last_poh_index", headText last_poh_index), ("timestamp", toString timestamp)]

/-- The text that `_generate_unique` hashes. -/
def uniqueText (grpc_info http_info : String) : String :=
  object [("grpc_info", quote grpc_info), ("http_info", quote http_info)]

section Digest

variable (digest : String → String)

/-- `_generate_poh`. -/
def generatePoh (l : NodeList) (grpc_info http_info : String) (timestamp : Int) : String :=
  digest (pohText grpc_info http_info timestamp l.last_poh_index)

/-- `_generate_unique`. -/
def generateUnique (grpc_info http_info : String) : String :=
  digest (uniqueText grpc_info http_info)

/-- `add`; `now` is the time in seconds. -/
def add (l : NodeList) (grpc_info http_info : String) (now : ℚ) : NodeList :=
  let timestamp := wholeSeconds now
  let index := generateUnique digest grpc_info http_info
  let poh_index := l.generatePoh digest grpc_info http_info timestamp
  let l := if l.last_poh_index.isNone then { l with last_poh_index := some poh_index } else l
  let l := { l with nodes := l.nodes.set index ⟨grpc_info, http_info, timestamp, poh_index⟩ }
  { l with last_poh_index := some poh_index }

end Digest

/-- `remove`. -/
def remove (l : NodeList) (index : String) : NodeList :=
  if (l.nodes.get? index).isSome then { l with nodes := l.nodes.del index } else l

/-- The tuple of a node. -/
def tuple (node : Node) : String × String × Int × String :=
  (node.grpc_info, node.http_info, node.timestamp, node.poh)

/-- `get_node`, where `random.sample` draws the keys `sample`. -/
def getNode (l : NodeList) (size : Nat) (sample : List String) :
    List (String × String × Int × String) :=
  if size > l.nodes.items.length then l.nodes.values.map tuple
  else (sample.filterMap l.nodes.get?).map tuple

/-- `remove_inactive_nodes`. -/
def removeInactiveNodes (l : NodeList) (now : ℚ) : NodeList :=
  let current_time := wholeSeconds now
  { l with nodes := l.nodes.filter (fun _ node => current_time - node.timestamp ≤ l.timeout) }

/-- `set_timeout`. -/
def setTimeout (l : NodeList) (timeout : Int) : NodeList := { l with timeout := timeout }

/-! ## Keys -/

theorem toList_uniqueText (g h : String) : (uniqueText g h).toList =
    "\x7b\"grpc_info\": ".toList ++ ((quote g).toList ++ (", \"http_info\": ".toList ++
      ((quote h).toList ++ ['\x7d']))) := by
  have hgrpc : quote "grpc_info" = "\"grpc_info\"" := rfl
  have hhttp : quote "http_info" = "\"http_info\"" := rfl
  simp [uniqueText, object, hgrpc, hhttp]

/-- **The text under a key determines the two addresses.** -/
theorem uniqueText_inj {g h g' h' : String} (heq : uniqueText g h = uniqueText g' h') :
    g = g' ∧ h = h' := by
  have hlist := congrArg String.toList heq
  rw [toList_uniqueText, toList_uniqueText] at hlist
  obtain ⟨hg, hrest⟩ := quote_inj (List.append_cancel_left hlist)
  exact ⟨hg, (quote_inj (List.append_cancel_left hrest)).1⟩

/-! ## What an operation does to a key -/

variable (digest : String → String)

theorem add_nodes (l : NodeList) (grpc_info http_info : String) (now : ℚ) :
    (l.add digest grpc_info http_info now).nodes =
      l.nodes.set (generateUnique digest grpc_info http_info)
        ⟨grpc_info, http_info, wholeSeconds now,
          l.generatePoh digest grpc_info http_info (wholeSeconds now)⟩ := by
  unfold add
  dsimp only
  split <;> rfl

theorem add_last_poh_index (l : NodeList) (grpc_info http_info : String) (now : ℚ) :
    (l.add digest grpc_info http_info now).last_poh_index =
      some (l.generatePoh digest grpc_info http_info (wholeSeconds now)) := rfl

theorem add_timeout (l : NodeList) (grpc_info http_info : String) (now : ℚ) :
    (l.add digest grpc_info http_info now).timeout = l.timeout := by
  unfold add
  dsimp only
  split <;> rfl

theorem remove_timeout (l : NodeList) (index : String) :
    (l.remove index).timeout = l.timeout := by
  unfold remove
  split <;> rfl

/-- A registration writes the key of its two addresses only. -/
theorem add_get? (l : NodeList) (grpc_info http_info : String) (now : ℚ) (k : String) :
    (l.add digest grpc_info http_info now).nodes.get? k =
      if k = generateUnique digest grpc_info http_info then
        some ⟨grpc_info, http_info, wholeSeconds now,
          l.generatePoh digest grpc_info http_info (wholeSeconds now)⟩
      else l.nodes.get? k := by
  rw [add_nodes, Dict.get?_set]

/-- A removal takes one key away. -/
theorem remove_get? (l : NodeList) (index k : String) :
    (l.remove index).nodes.get? k = if k = index then none else l.nodes.get? k := by
  unfold remove
  split
  next => exact Dict.get?_del l.nodes index k
  next habsent =>
    split
    next hk =>
      rw [hk]
      exact Option.not_isSome_iff_eq_none.1 habsent
    next => rfl

/-- The cleanup keeps or drops a node, and changes none. -/
theorem removeInactiveNodes_get? (l : NodeList) (now : ℚ) (k : String) :
    (l.removeInactiveNodes now).nodes.get? k =
      (l.nodes.get? k).filter (fun node => wholeSeconds now - node.timestamp ≤ l.timeout) :=
  l.nodes.get?_filter _ k

end NodeList

end ProverNetwork.Ports
