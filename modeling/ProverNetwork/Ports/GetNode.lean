import ProverNetwork.Ports.HubResponse
import ProverNetwork.Ports.NodeListSelection

/-!
# Handing out a task

`GET /node` gives the client a fresh proof hash and up to four nodes, and starts
a push of the hash to each of them.  It tries three times: an attempt counts
when every node it selected could be processed, an attempt that selected none or
lost some is followed by another, and what the last attempt that selected any
node left behind is the answer.  The pushes an earlier attempt started go on.

## Main results

* `Ticket.WellFormed` — what a request under way keeps.
* `select_wellFormed`, `gather_wellFormed` — the two steps of an attempt.
-/

namespace ProverNetwork.Ports.GetNode

open ProverNetwork.Ports
open ProverNetwork.Ports.HubResponse
open ProverNetwork.Ports.NodeListHistory

/-! ## Models and answers -/

/-- What `get_node` returns for a node. -/
abbrev RawNode := String × String × Int × String

/-- `GrpcInfoModel` and `HttpInfoModel`. -/
structure InfoModel where
  address : String
  timestamp : Int
  deriving DecidableEq

structure NodeInfoModel where
  grpc_info : InfoModel
  http_info : InfoModel
  poh : String
  deriving DecidableEq

/-- The model that `process_node` returns. -/
def nodeInfoModel : RawNode → NodeInfoModel
  | (grpc_info, http_info, timestamp, poh) =>
      ⟨⟨grpc_info, timestamp⟩, ⟨http_info, timestamp⟩, poh⟩

/-- The two addresses of a model. -/
def NodeInfoModel.pair (m : NodeInfoModel) : String × String :=
  (m.grpc_info.address, m.http_info.address)

/-- The status and the members of the JSON object of an answer; `null` is
`none`, and so is a member that is left out. -/
structure Response where
  status : Nat
  code : Option Int
  msg : String
  results : Option (List NodeInfoModel)
  proof_hash : Option String
  deriving DecidableEq

/-- `GetNodePrivateKeyNotExistResponse`. -/
def privateKeyNotExist : Response :=
  ⟨SERVER_ERROR, some private_key_not_exist.code, private_key_not_exist.msg, none, none⟩

def failedToProcess : Response :=
  ⟨INVALID_REQUEST, none, "Failed to process any nodes.", none, none⟩

/-- `GetNodeSuccessfullyResponse`. -/
def handedOut (results : List NodeInfoModel) (proof_hash : String) : Response :=
  ⟨OK, some successfully.code, successfully.msg, some results, some proof_hash⟩

/-- `generate_proof_hash`; `now` is the time in seconds. -/
def generateProofHash (digest : String → String) (data : String) (now : ℚ) : String :=
  "0x" ++ digest (data ++ "-" ++ toString (NodeList.wholeSeconds (now * 1000)))

/-! ## A request under way -/

/-- What `process_node` does with a node: it starts the push and returns the
model, or it raises, before or after it started the push. -/
inductive Processed
  | model
  | raises (started : Bool)
  deriving DecidableEq

def Processed.started : Processed → Bool
  | .model => true
  | .raises started => started

/-- Where a request is: between two attempts, in `gather`, or answered. -/
inductive Stage
  | selects
  | gathers (raw_nodes : List RawNode)
  | answered (r : Response)
  deriving DecidableEq

/-- A request that was given a proof hash. -/
structure Ticket where
  proof_hash : String
  signature : String
  attempts : Nat
  node_models : List NodeInfoModel
  stage : Stage
  deriving DecidableEq

namespace Ticket

/-- What `GET /node` keeps once the hash is signed. -/
def issue (proof_hash signature : String) : Ticket := ⟨proof_hash, signature, 0, [], .selects⟩

/-- The answer after the last attempt. -/
def finish (t : Ticket) : Ticket :=
  { t with
    stage := .answered
      (if t.node_models = [] then failedToProcess else handedOut t.node_models t.proof_hash) }

/-- `continue`, in the loop over `range(3)`. -/
def again (t : Ticket) : Ticket :=
  if t.attempts < 3 then { t with stage := .selects } else t.finish

/-- The selection of an attempt. -/
def select (t : Ticket) (raw_nodes : List RawNode) : Ticket :=
  let t := { t with attempts := t.attempts + 1 }
  if raw_nodes = [] then t.again else { t with stage := .gathers raw_nodes }

/-- The models among the results of `gather`. -/
def models (raw_nodes : List RawNode) (outcomes : List Processed) : List NodeInfoModel :=
  ((raw_nodes.zip outcomes).filter (fun p => p.2 = .model)).map (fun p => nodeInfoModel p.1)

/-- The nodes to which `process_node` started a push. -/
def started (raw_nodes : List RawNode) (outcomes : List Processed) : List RawNode :=
  ((raw_nodes.zip outcomes).filter (fun p => p.2.started)).map Prod.fst

/-- What follows `gather`. -/
def gather (t : Ticket) (raw_nodes : List RawNode) (outcomes : List Processed) : Ticket :=
  let t := { t with node_models := models raw_nodes outcomes }
  if t.node_models.length ≠ raw_nodes.length then t.again else t.finish

/-- The pushes that a request can still start. -/
def room (t : Ticket) : Nat :=
  match t.stage with
  | .selects => 4 * (3 - t.attempts)
  | .gathers _ => 4 * (4 - t.attempts)
  | .answered _ => 0

/-! ## What a request keeps -/

/-- Nodes as a selection of four returns them: no more, and no pair of addresses
twice. -/
structure Selection (raw_nodes : List RawNode) : Prop where
  length_le : raw_nodes.length ≤ 4
  nodup : (raw_nodes.map tuplePair).Nodup

/-- At most three attempts were made, the models kept are of one selection, and an
answer hands out the models under the hash of the request. -/
structure WellFormed (t : Ticket) : Prop where
  attempts_le : t.attempts ≤ 3
  selects_lt : t.stage = .selects → t.attempts < 3
  gathers_pos : ∀ raw_nodes, t.stage = .gathers raw_nodes →
    1 ≤ t.attempts ∧ Selection raw_nodes
  models_le : t.node_models.length ≤ 4
  models_nodup : (t.node_models.map NodeInfoModel.pair).Nodup
  answered_eq : ∀ r, t.stage = .answered r →
    r = if t.node_models = [] then failedToProcess else handedOut t.node_models t.proof_hash

theorem issue_wellFormed (proof_hash signature : String) :
    WellFormed (issue proof_hash signature) where
  attempts_le := Nat.zero_le 3
  selects_lt := fun _ => Nat.zero_lt_succ 2
  gathers_pos := fun _ h => by cases h
  models_le := Nat.zero_le 4
  models_nodup := List.nodup_nil
  answered_eq := fun _ h => by cases h

/-- The models kept and the number of attempts are all that an ended attempt
needs. -/
theorem again_wellFormed {t : Ticket} (hattempts : t.attempts ≤ 3)
    (hle : t.node_models.length ≤ 4) (hnodup : (t.node_models.map NodeInfoModel.pair).Nodup) :
    WellFormed t.again := by
  unfold again
  split
  next hlt =>
    exact ⟨hattempts, fun _ => hlt, fun _ h => (by cases h), hle, hnodup,
      fun _ h => (by cases h)⟩
  next =>
    exact ⟨hattempts, fun h => (by cases h), fun _ h => (by cases h), hle, hnodup,
      fun r h => (Stage.answered.inj h).symm⟩

theorem finish_wellFormed {t : Ticket} (hattempts : t.attempts ≤ 3)
    (hle : t.node_models.length ≤ 4) (hnodup : (t.node_models.map NodeInfoModel.pair).Nodup) :
    WellFormed t.finish :=
  ⟨hattempts, fun h => (by cases h), fun _ h => (by cases h), hle, hnodup,
    fun r h => (Stage.answered.inj h).symm⟩

/-- **The selection of an attempt.** -/
theorem select_wellFormed {t : Ticket} (ht : WellFormed t) (hstage : t.stage = .selects)
    {raw_nodes : List RawNode} (hraw : Selection raw_nodes) : WellFormed (t.select raw_nodes) := by
  have hlt := ht.selects_lt hstage
  unfold select
  split
  next => exact again_wellFormed hlt ht.models_le ht.models_nodup
  next =>
    refine ⟨hlt, fun h => (by cases h), ?_, ht.models_le, ht.models_nodup,
      fun _ h => (by cases h)⟩
    intro raw h
    cases h
    exact ⟨Nat.le_add_left 1 t.attempts, hraw⟩

theorem map_fst_zip_sublist {α β : Type} (xs : List α) (ys : List β) :
    ((xs.zip ys).map Prod.fst).Sublist xs := by
  induction xs generalizing ys with
  | nil => simp
  | cons x xs ih =>
      cases ys with
      | nil => simp
      | cons y ys => exact (ih ys).cons_cons x

/-- The models of a selection are no more than its nodes. -/
theorem models_sublist (raw_nodes : List RawNode) (outcomes : List Processed) :
    ((models raw_nodes outcomes).map NodeInfoModel.pair).Sublist (raw_nodes.map tuplePair) := by
  have hfst := map_fst_zip_sublist raw_nodes outcomes
  have hmodels : (models raw_nodes outcomes).map NodeInfoModel.pair =
      (((raw_nodes.zip outcomes).filter (fun p => p.2 = .model)).map Prod.fst).map tuplePair := by
    rw [models, List.map_map, List.map_map]
    rfl
  rw [hmodels]
  exact ((List.filter_sublist.map Prod.fst).trans hfst).map tuplePair

/-- **The results of an attempt.** -/
theorem gather_wellFormed {t : Ticket} (ht : WellFormed t) {raw_nodes : List RawNode}
    (hraw : Selection raw_nodes) (outcomes : List Processed) :
    WellFormed (t.gather raw_nodes outcomes) := by
  have hsub := models_sublist raw_nodes outcomes
  have hle : (models raw_nodes outcomes).length ≤ 4 := by
    have hlength := hsub.length_le
    rw [List.length_map, List.length_map] at hlength
    exact le_trans hlength hraw.length_le
  have hnodup := hraw.nodup.sublist hsub
  unfold gather
  dsimp only
  split
  next => exact again_wellFormed ht.attempts_le hle hnodup
  next => exact finish_wellFormed ht.attempts_le hle hnodup

/-! ## What is left of a request -/

theorem room_again {t : Ticket} : t.again.room ≤ 4 * (3 - t.attempts) := by
  unfold again
  split
  next => exact le_rfl
  next => exact Nat.zero_le _

theorem room_select {t : Ticket} (hstage : t.stage = .selects) (hlt : t.attempts < 3)
    (raw_nodes : List RawNode) : (t.select raw_nodes).room ≤ t.room := by
  have hroom : t.room = 4 * (3 - t.attempts) := by rw [room, hstage]
  rw [hroom]
  unfold select
  split
  next => exact le_trans room_again (by dsimp only; omega)
  next =>
    show 4 * (4 - (t.attempts + 1)) ≤ 4 * (3 - t.attempts)
    omega

theorem started_length_le (raw_nodes : List RawNode) (outcomes : List Processed) :
    (started raw_nodes outcomes).length ≤ raw_nodes.length := by
  rw [started, List.length_map]
  refine le_trans (List.length_filter_le _ _) ?_
  rw [List.length_zip]
  exact Nat.min_le_left _ _

/-- The pushes that an attempt starts come out of the room of the request. -/
theorem room_gather {t : Ticket} {raw_nodes : List RawNode} (hstage : t.stage = .gathers raw_nodes)
    (ht : WellFormed t) (outcomes : List Processed) :
    (t.gather raw_nodes outcomes).room + (started raw_nodes outcomes).length ≤ t.room := by
  have hroom : t.room = 4 * (4 - t.attempts) := by rw [room, hstage]
  have hle := (ht.gathers_pos raw_nodes hstage).2.length_le
  have hattempts := ht.attempts_le
  have hstarted := started_length_le raw_nodes outcomes
  have hrest : (t.gather raw_nodes outcomes).room ≤ 4 * (3 - t.attempts) := by
    unfold gather
    dsimp only
    split
    next => exact room_again
    next => exact Nat.zero_le _
  omega

/-- A node with a model has a push. -/
theorem started_of_model {raw_nodes : List RawNode} {outcomes : List Processed}
    {m : NodeInfoModel} (h : m ∈ models raw_nodes outcomes) :
    ∃ raw ∈ started raw_nodes outcomes, nodeInfoModel raw = m := by
  obtain ⟨p, hp, rfl⟩ := List.mem_map.1 h
  obtain ⟨hmem, hmodel⟩ := List.mem_filter.1 hp
  refine ⟨p.1, List.mem_map.2 ⟨p, List.mem_filter.2 ⟨hmem, ?_⟩, rfl⟩, rfl⟩
  rw [of_decide_eq_true hmodel]
  rfl

theorem mem_of_started {raw_nodes : List RawNode} {outcomes : List Processed} {raw : RawNode}
    (h : raw ∈ started raw_nodes outcomes) : raw ∈ raw_nodes := by
  obtain ⟨p, hp, rfl⟩ := List.mem_map.1 h
  exact (List.of_mem_zip (List.mem_filter.1 hp).1).1

end Ticket

end ProverNetwork.Ports.GetNode
