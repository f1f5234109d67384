import ProverNetwork.Ports.GetNode
import ProverNetwork.Ports.NodeRegister
import ProverNetwork.Ports.ProveNode
import ProverNetwork.Ports.PushTask
import ProverNetwork.Verified.Weight

/-!
# The hub and its nodes

The hub registers nodes, hands out tasks and pushes each of them to the nodes it
handed out; a node accepts a push, and its prove handlers claim the task.  Between
hub and node is a network: a POST is delivered late or never, its answer is
delivered late or never, and the hub may give up on either.  Others can post to a
node as well.

A connection is the POST of one push until its answer is back.  What a request, a
push or another's POST was is never forgotten, so the lists of the state are its
history too.

## Main results

* `effect_of_step` — what one step of the system can do.
* `component_hub`, `component_node` — each party has a run of its own.
-/

namespace ProverNetwork.Ports.TaskNetwork

open ProverNetwork.Verified
open ProverNetwork.Ports
open ProverNetwork.Ports.GetNode
open ProverNetwork.Ports.PushTask
open ProverNetwork.Ports.NodeListHistory (Sampled)

/-! ## The state -/

/-- A push that a request started: the arguments of `_dispatch_task_to_node`, and
how far it has come. -/
structure Dispatch where
  ticket : Nat
  grpc_info : String
  http_info : String
  proof_hash : String
  signature : String
  phase : Phase
  deriving DecidableEq

/-- The POST number `attempt` of a push, on its way to the node, or with the status
of its answer on the way back. -/
structure Connection where
  dispatch : Nat
  attempt : Nat
  http_info : String
  proof_hash : String
  signature : String
  status : Option Nat
  deriving DecidableEq

/-- The hub: what it has registered, the requests it gave a hash, and the pushes
they started; what is on the network; the nodes under their HTTP addresses; and
the pushes that others made, by address and hash. -/
structure World (ι Pub Priv : Type) where
  hub : NodeRegister.World ι Pub Priv
  tickets : List Ticket
  dispatches : List Dispatch
  connections : List Connection
  nodes : Dict String ProveNode.World
  foreign : List (String × String)

/-- Nodes under their addresses, each with a clock, and nothing else yet. -/
def World.initial {ι Pub Priv : Type} (clocks : List (String × ℚ)) : World ι Pub Priv where
  hub := .initial
  tickets := []
  dispatches := []
  connections := []
  nodes := clocks.foldl (fun d (address, now) => d.set address (.initial now)) Dict.empty
  foreign := []

/-- The hub's setup, the signatures it makes, and the test that the nodes make with
the key they hold. -/
structure Setup (Ip Net Pub Priv : Type) where
  hub : NodeRegister.Setup Ip Net Pub Priv
  /-- `generate_signature`, with a salt; `none` where it raises -/
  sign : List UInt8 → String → Option String
  verify : String → String → Bool

/-- A registration step; a request is given a hash, selects nodes, or has processed
them; a push makes its first post, or its post ends in an exception; a connection
reaches its node, its answer reaches the hub, or it is lost; somebody else pushes
to a node; a node does something other than accept a push. -/
inductive Label (ι Pub Priv : Type)
  | hub (l : NodeRegister.Label ι Pub Priv)
  | issue (data : String) (now : ℚ) (salt : List UInt8)
  | select (i : Nat) (sample : List String)
  | gathered (i : Nat) (outcomes : List Processed)
  | post (d : Nat)
  | fails (d : Nat) (e : Error)
  | deliver (c : Nat) (readable : Bool) (stranger : Option Nat)
  | answer (c : Nat)
  | lose (c : Nat)
  | foreign (address proofHash signature : String)
  | node (address : String) (l : ProveNode.Label Pub Priv)

/-! ## The steps -/

section Steps

variable {ι Ip Net Pub Priv : Type} [DecidableEq ι] (s : Setup Ip Net Pub Priv)

/-- `hub_get_node` up to its loop, with the keys loaded. -/
def World.issue (w : World ι Pub Priv) (data : String) (now : ℚ) (salt : List UInt8) :
    Option (World ι Pub Priv) :=
  let proof_hash := generateProofHash s.hub.digest data now
  (s.sign salt proof_hash).map (fun signature =>
    { w with tickets := w.tickets ++ [.issue proof_hash signature] })

/-- An attempt selects its nodes. -/
def World.select (w : World ι Pub Priv) (i : Nat) (sample : List String) :
    Option (World ι Pub Priv) :=
  match w.tickets[i]? with
  | none => none
  | some t =>
      if t.stage = .selects ∧ Sampled w.hub.nodeList 4 sample then
        some { w with tickets := w.tickets.set i (t.select (w.hub.nodeList.getNode 4 sample)) }
      else none

/-- The push that `process_node` starts. -/
def dispatchOf (i : Nat) (t : Ticket) (raw : RawNode) : Dispatch :=
  ⟨i, raw.1, raw.2.1, t.proof_hash, t.signature, .queued⟩

/-- An attempt has processed its nodes. -/
def World.gathered (w : World ι Pub Priv) (i : Nat) (outcomes : List Processed) :
    Option (World ι Pub Priv) :=
  match w.tickets[i]? with
  | none => none
  | some t =>
      match t.stage with
      | .gathers raw_nodes =>
          if outcomes.length = raw_nodes.length then
            some { w with
              tickets := w.tickets.set i (t.gather raw_nodes outcomes)
              dispatches :=
                w.dispatches ++ (Ticket.started raw_nodes outcomes).map (dispatchOf i t) }
          else none
      | _ => none

/-- A push is in another phase. -/
def Dispatch.inPhase (x : Dispatch) (phase : Phase) : Dispatch := { x with phase := phase }

/-- The POST of a push. -/
def Dispatch.connection (x : Dispatch) (d attempt : Nat) : Connection :=
  ⟨d, attempt, x.http_info, x.proof_hash, x.signature, none⟩

/-- A push makes its first post. -/
def World.post (w : World ι Pub Priv) (d : Nat) : Option (World ι Pub Priv) :=
  match w.dispatches[d]? with
  | none => none
  | some x =>
      if x.phase = .queued then
        some { w with
          dispatches := w.dispatches.set d (x.inPhase .posted)
          connections := w.connections ++ [x.connection d 0] }
      else none

/-- The post that a push waits for ends in an exception; a second one follows a
first that timed out. -/
def World.fails (w : World ι Pub Priv) (d : Nat) (e : Error) : Option (World ι Pub Priv) :=
  match w.dispatches[d]? with
  | none => none
  | some x =>
      let phase := x.phase.settles s.hub.libs.lower (.error e)
      match x.phase with
      | .posted =>
          some { w with
            dispatches := w.dispatches.set d (x.inPhase phase)
            connections :=
              if e.timedOut then w.connections ++ [x.connection d 1] else w.connections }
      | .reposted => some { w with dispatches := w.dispatches.set d (x.inPhase phase) }
      | _ => none

/-- The status with which FastAPI answers. -/
def statusOf : Except HTTPException StatusResponse → Nat
  | .ok _ => 200
  | .error e => e.statusCode.toNat

/-- `push_task` on the live process of a node. -/
def pushed (v : ProveNode.World) (pm : ProofManager) (h signature : String) : ProveNode.World :=
  { v with manager := v.manager.push s.verify pm h signature }

/-- A connection reaches its address.  A node whose key file cannot be read answers
500, a node that is down not at all; what is no node answers anything or nothing. -/
def World.deliver (w : World ι Pub Priv) (c : Nat) (readable : Bool) (stranger : Option Nat) :
    Option (World ι Pub Priv) :=
  match w.connections[c]? with
  | none => none
  | some x =>
      if x.status.isSome then none
      else
        match w.nodes.get? x.http_info with
        | none =>
            some { w with connections := w.connections.set c { x with status := stranger } }
        | some v =>
            match v.manager.process with
            | none => some { w with connections := w.connections.eraseIdx c }
            | some pm =>
                if readable then
                  let response := (pushTask s.verify pm v.manager.now x.proof_hash x.signature).1
                  some { w with
                    connections := w.connections.set c { x with status := some (statusOf response) }
                    nodes := w.nodes.set x.http_info (pushed s v pm x.proof_hash x.signature) }
                else
                  some { w with connections := w.connections.set c { x with status := some 500 } }

/-- An answer reaches the hub; a push that no longer waits for it has closed the
connection. -/
def World.answer (w : World ι Pub Priv) (c : Nat) : Option (World ι Pub Priv) :=
  match w.connections[c]? with
  | none => none
  | some x =>
      match x.status, w.dispatches[x.dispatch]? with
      | some n, some y =>
          let connections := w.connections.eraseIdx c
          if y.phase.awaits x.attempt then
            some { w with
              connections := connections
              dispatches := w.dispatches.set x.dispatch
                (y.inPhase (y.phase.settles s.hub.libs.lower (.status n))) }
          else some { w with connections := connections }
      | _, _ => none

/-- Somebody else pushes to a node. -/
def World.pushForeign (w : World ι Pub Priv) (address h signature : String) :
    Option (World ι Pub Priv) :=
  match w.nodes.get? address with
  | none => none
  | some v =>
      v.manager.process.map (fun pm =>
        { w with
          nodes := w.nodes.set address (pushed s v pm h signature)
          foreign := (address, h) :: w.foreign })

/-- A node does something other than accept a push. -/
def World.nodeStep (w : World ι Pub Priv) (address : String) (l : ProveNode.Label Pub Priv) :
    Option (World ι Pub Priv) :=
  match l with
  | .manager (.pushTask _ _) => none
  | l =>
      match w.nodes.get? address with
      | none => none
      | some v => (v.step s.verify l).map (fun v' => { w with nodes := w.nodes.set address v' })

def World.step (w : World ι Pub Priv) : Label ι Pub Priv → Option (World ι Pub Priv)
  | .hub l => (w.hub.step s.hub l).map (fun hub => { w with hub := hub })
  | .issue data now salt => w.issue s data now salt
  | .select i sample => w.select i sample
  | .gathered i outcomes => w.gathered i outcomes
  | .post d => w.post d
  | .fails d e => w.fails s d e
  | .deliver c readable stranger => w.deliver s c readable stranger
  | .answer c => w.answer s c
  | .lose c => if c < w.connections.length then
      some { w with connections := w.connections.eraseIdx c } else none
  | .foreign address h signature => w.pushForeign s address h signature
  | .node address l => w.nodeStep s address l

end Steps

/-! ## What a step can do -/

/-- The POST of the hash is on its way to the address. -/
def Connection.carries (address h : String) (x : Connection) : Nat :=
  if x.status = none ∧ x.http_info = address ∧ x.proof_hash = h then 1 else 0

section Effects

variable {ι Ip Net Pub Priv : Type} [DecidableEq ι] {s : Setup Ip Net Pub Priv}

/-- What is on the network after a connection was lost, or was answered by something
other than a push: no POST is new, and an answer is new only from what is no node or
from a node that could not read its key file. -/
structure Quiet (w : World ι Pub Priv) (connections : List Connection) : Prop where
  carries_le : ∀ address h, weight (Connection.carries address h) connections ≤
    weight (Connection.carries address h) w.connections
  source : ∀ x ∈ connections, x ∈ w.connections ∨
    ∃ y ∈ w.connections, x = { y with status := x.status } ∧
      (w.nodes.get? x.http_info = none ∨ x.status = some 500)

/-- What a single step can do. -/
inductive Effect (s : Setup Ip Net Pub Priv) (w : World ι Pub Priv) : World ι Pub Priv → Prop
  | hub (l : NodeRegister.Label ι Pub Priv) (hub : NodeRegister.World ι Pub Priv) :
      w.hub.step s.hub l = some hub → Effect s w { w with hub := hub }
  | issued (data : String) (now : ℚ) (salt : List UInt8) (signature : String) :
      s.sign salt (generateProofHash s.hub.digest data now) = some signature →
      Effect s w { w with
        tickets := w.tickets ++ [.issue (generateProofHash s.hub.digest data now) signature] }
  | selected (i : Nat) (t : Ticket) (sample : List String) : w.tickets[i]? = some t →
      t.stage = .selects → Sampled w.hub.nodeList 4 sample →
      Effect s w { w with
        tickets := w.tickets.set i (t.select (w.hub.nodeList.getNode 4 sample)) }
  | gathered (i : Nat) (t : Ticket) (raw_nodes : List RawNode) (outcomes : List Processed) :
      w.tickets[i]? = some t → t.stage = .gathers raw_nodes →
      Effect s w { w with
        tickets := w.tickets.set i (t.gather raw_nodes outcomes)
        dispatches :=
          w.dispatches ++ (Ticket.started raw_nodes outcomes).map (dispatchOf i t) }
  | posted (d : Nat) (x : Dispatch) : w.dispatches[d]? = some x → x.phase = .queued →
      Effect s w { w with
        dispatches := w.dispatches.set d (x.inPhase .posted)
        connections := w.connections ++ [x.connection d 0] }
  | reposted (d : Nat) (x : Dispatch) : w.dispatches[d]? = some x → x.phase = .posted →
      Effect s w { w with
        dispatches := w.dispatches.set d (x.inPhase .reposted)
        connections := w.connections ++ [x.connection d 1] }
  | failed (d : Nat) (x : Dispatch) (e : Error) : w.dispatches[d]? = some x →
      (∀ r, x.phase ≠ .returned r) →
      Effect s w { w with
        dispatches := w.dispatches.set d
          (x.inPhase (x.phase.settles s.hub.libs.lower (.error e))) }
  | answered (c : Nat) (x : Connection) (y : Dispatch) (n : Nat) : w.connections[c]? = some x →
      x.status = some n → w.dispatches[x.dispatch]? = some y → y.phase.awaits x.attempt = true →
      Effect s w { w with
        connections := w.connections.eraseIdx c
        dispatches := w.dispatches.set x.dispatch
          (y.inPhase (y.phase.settles s.hub.libs.lower (.status n))) }
  | quiet (connections : List Connection) : Quiet w connections →
      Effect s w { w with connections := connections }
  | delivered (c : Nat) (x : Connection) (v : ProveNode.World) (pm : ProofManager) :
      w.connections[c]? = some x → x.status = none → w.nodes.get? x.http_info = some v →
      v.manager.process = some pm →
      Effect s w { w with
        connections := w.connections.set c
          { x with
            status := some (statusOf
              (pushTask s.verify pm v.manager.now x.proof_hash x.signature).1) }
        nodes := w.nodes.set x.http_info (pushed s v pm x.proof_hash x.signature) }
  | foreign (address h signature : String) (v : ProveNode.World) (pm : ProofManager) :
      w.nodes.get? address = some v → v.manager.process = some pm →
      Effect s w { w with
        nodes := w.nodes.set address (pushed s v pm h signature)
        foreign := (address, h) :: w.foreign }
  | node (address : String) (v v' : ProveNode.World) (l : ProveNode.Label Pub Priv) :
      w.nodes.get? address = some v → v.step s.verify l = some v' →
      (∀ h signature, l ≠ .manager (.pushTask h signature)) →
      Effect s w { w with nodes := w.nodes.set address v' }

omit [DecidableEq ι] in
/-- A connection that is gone leaves the others as they were. -/
theorem Quiet.erased {w : World ι Pub Priv} {c : Nat} {x : Connection}
    (hget : w.connections[c]? = some x) : Quiet w (w.connections.eraseIdx c) where
  carries_le := fun address h => by
    have hweight := weight_eraseIdx (Connection.carries address h) hget
    omega
  source := fun y hy => Or.inl (List.mem_of_mem_eraseIdx hy)

omit [DecidableEq ι] in
/-- A connection that something other than a push answers. -/
theorem Quiet.answered {w : World ι Pub Priv} {c : Nat} {x : Connection}
    (hget : w.connections[c]? = some x) (hopen : x.status = none) {status : Option Nat}
    (hsource : w.nodes.get? x.http_info = none ∨ status = some 500) :
    Quiet w (w.connections.set c { x with status := status }) where
  carries_le := fun address h => by
    have hweight := weight_set (Connection.carries address h) hget { x with status := status }
    have hle : Connection.carries address h { x with status := status } ≤
        x.carries address h := by
      unfold Connection.carries
      by_cases haddress : x.http_info = address ∧ x.proof_hash = h
      · have hone : x.status = none ∧ x.http_info = address ∧ x.proof_hash = h := ⟨hopen, haddress⟩
        rw [if_pos hone]
        split <;> decide
      · rw [if_neg (fun hx => haddress hx.2)]
        exact Nat.zero_le _
    omega
  source := fun y hy => by
    cases List.mem_or_eq_of_mem_set hy with
    | inl hold => exact Or.inl hold
    | inr heq =>
        subst heq
        exact Or.inr ⟨x, List.mem_of_getElem? hget, rfl, hsource⟩

theorem effect_of_fails {w w' : World ι Pub Priv} {d : Nat} {e : Error}
    (hstep : w.fails s d e = some w') : Effect s w w' := by
  simp only [World.fails] at hstep
  split at hstep
  next => cases hstep
  next x hget =>
    split at hstep
    next hphase =>
      cases hstep
      by_cases htimedOut : e.timedOut = true
      · rw [if_pos htimedOut, hphase, Phase.settles, if_pos htimedOut]
        exact .reposted d x hget hphase
      · rw [if_neg htimedOut]
        exact .failed d x e hget (fun r heq => by rw [hphase] at heq; cases heq)
    next hphase =>
      cases hstep
      exact .failed d x e hget (fun r heq => by rw [hphase] at heq; cases heq)
    next => cases hstep

theorem effect_of_deliver {w w' : World ι Pub Priv} {c : Nat} {readable : Bool}
    {stranger : Option Nat} (hstep : w.deliver s c readable stranger = some w') :
    Effect s w w' := by
  simp only [World.deliver] at hstep
  split at hstep
  next => cases hstep
  next x hget =>
    split at hstep
    next => cases hstep
    next hopen =>
      have hnone : x.status = none := by simpa using hopen
      split at hstep
      next hnode =>
        cases hstep
        exact .quiet _ (.answered hget hnone (Or.inl hnode))
      next v hnode =>
        split at hstep
        next =>
          cases hstep
          exact .quiet _ (.erased hget)
        next pm hpm =>
          split at hstep
          next =>
            cases hstep
            exact .delivered c x v pm hget hnone hnode hpm
          next =>
            cases hstep
            exact .quiet _ (.answered hget hnone (Or.inr rfl))

theorem effect_of_answer {w w' : World ι Pub Priv} {c : Nat} (hstep : w.answer s c = some w') :
    Effect s w w' := by
  simp only [World.answer] at hstep
  split at hstep
  next => cases hstep
  next x hget =>
    split at hstep
    next n y hstatus hdispatch =>
      split at hstep
      next hawaits =>
        cases hstep
        exact .answered c x y n hget hstatus hdispatch hawaits
      next =>
        cases hstep
        exact .quiet _ (.erased hget)
    next => cases hstep

/-- **One step.** -/
theorem effect_of_step {w w' : World ι Pub Priv} {label : Label ι Pub Priv}
    (hstep : w.step s label = some w') : Effect s w w' := by
  cases label with
  | hub l =>
      obtain ⟨hub, hhub, rfl⟩ := Option.map_eq_some_iff.1 hstep
      exact .hub l hub hhub
  | issue data now salt =>
      obtain ⟨signature, hsign, rfl⟩ := Option.map_eq_some_iff.1 hstep
      exact .issued data now salt signature hsign
  | select i sample =>
      simp only [World.step, World.select] at hstep
      split at hstep
      next => cases hstep
      next t hget =>
        split at hstep
        next hcond =>
          cases hstep
          exact .selected i t sample hget hcond.1 hcond.2
        next => cases hstep
  | gathered i outcomes =>
      simp only [World.step, World.gathered] at hstep
      split at hstep
      next => cases hstep
      next t hget =>
        split at hstep
        next raw_nodes hstage =>
          split at hstep
          next =>
            cases hstep
            exact .gathered i t raw_nodes outcomes hget hstage
          next => cases hstep
        next => cases hstep
  | post d =>
      simp only [World.step, World.post] at hstep
      split at hstep
      next => cases hstep
      next x hget =>
        split at hstep
        next hphase =>
          cases hstep
          exact .posted d x hget hphase
        next => cases hstep
  | fails d e => exact effect_of_fails hstep
  | deliver c readable stranger => exact effect_of_deliver hstep
  | answer c => exact effect_of_answer hstep
  | lose c =>
      simp only [World.step] at hstep
      split at hstep
      next hlt =>
        cases hstep
        exact .quiet _ (.erased (List.getElem?_eq_getElem hlt))
      next => cases hstep
  | foreign address h signature =>
      simp only [World.step, World.pushForeign] at hstep
      split at hstep
      next => cases hstep
      next v hnode =>
        obtain ⟨pm, hpm, rfl⟩ := Option.map_eq_some_iff.1 hstep
        exact .foreign address h signature v pm hnode hpm
  | node address l =>
      simp only [World.step, World.nodeStep] at hstep
      split at hstep
      next => cases hstep
      next hpush =>
        split at hstep
        next => cases hstep
        next v hnode =>
          obtain ⟨v', hv', rfl⟩ := Option.map_eq_some_iff.1 hstep
          exact .node address v v' l hnode hv' hpush

/-! ## The parties -/

/-- **The registration of nodes is a component of the system.** -/
theorem component_hub :
    Component (World.step s) (NodeRegister.World.step s.hub)
      (fun w : World ι Pub Priv => some w.hub) := by
  intro w label w' hub hstep hhub
  cases hhub
  cases effect_of_step hstep with
  | hub l hub hmove => exact ⟨hub, rfl, Or.inr ⟨l, hmove⟩⟩
  | issued => exact ⟨_, rfl, Or.inl rfl⟩
  | selected => exact ⟨_, rfl, Or.inl rfl⟩
  | gathered => exact ⟨_, rfl, Or.inl rfl⟩
  | posted => exact ⟨_, rfl, Or.inl rfl⟩
  | reposted => exact ⟨_, rfl, Or.inl rfl⟩
  | failed => exact ⟨_, rfl, Or.inl rfl⟩
  | answered => exact ⟨_, rfl, Or.inl rfl⟩
  | quiet => exact ⟨_, rfl, Or.inl rfl⟩
  | delivered => exact ⟨_, rfl, Or.inl rfl⟩
  | foreign => exact ⟨_, rfl, Or.inl rfl⟩
  | node => exact ⟨_, rfl, Or.inl rfl⟩

/-- A push is a step of the node's own. -/
theorem pushed_step {v : ProveNode.World} {pm : ProofManager}
    (hpm : v.manager.process = some pm) (h signature : String) :
    v.step s.verify (.manager (.pushTask h signature) : ProveNode.Label Pub Priv) =
      some (pushed s v pm h signature) := by
  simp only [ProveNode.World.step, ProveNode.World.handle, ProofManagerRun.World.step, hpm]
  rfl

/-- What a step of the node at one address does to the node at another. -/
theorem node_moved {own : ProveNode.World → ProveNode.Label Pub Priv → Option ProveNode.World}
    {nodes : Dict String ProveNode.World} {address a : String} {v v' u : ProveNode.World}
    {l : ProveNode.Label Pub Priv} (hv : nodes.get? a = some v) (hmove : own v l = some v')
    (hu : nodes.get? address = some u) :
    ∃ u', (nodes.set a v').get? address = some u' ∧ (u' = u ∨ ∃ b, own u b = some u') := by
  rw [Dict.get?_set]
  by_cases ha : address = a
  · subst ha
    rw [hv, Option.some.injEq] at hu
    subst hu
    exact ⟨v', if_pos rfl, Or.inr ⟨l, hmove⟩⟩
  · exact ⟨u, by rw [if_neg ha, hu], Or.inl rfl⟩

/-- **Each node is a component of the system.** -/
theorem component_node (address : String) :
    Component (World.step s)
      (fun (v : ProveNode.World) (l : ProveNode.Label Pub Priv) => v.step s.verify l)
      (fun w : World ι Pub Priv => w.nodes.get? address) := by
  intro w label w' u hstep hu
  cases effect_of_step hstep with
  | hub => exact ⟨u, hu, Or.inl rfl⟩
  | issued => exact ⟨u, hu, Or.inl rfl⟩
  | selected => exact ⟨u, hu, Or.inl rfl⟩
  | gathered => exact ⟨u, hu, Or.inl rfl⟩
  | posted => exact ⟨u, hu, Or.inl rfl⟩
  | reposted => exact ⟨u, hu, Or.inl rfl⟩
  | failed => exact ⟨u, hu, Or.inl rfl⟩
  | answered => exact ⟨u, hu, Or.inl rfl⟩
  | quiet => exact ⟨u, hu, Or.inl rfl⟩
  | delivered c x v pm hget hopen hv hpm =>
      exact node_moved hv (pushed_step hpm x.proof_hash x.signature) hu
  | foreign a h signature v pm hv hpm => exact node_moved hv (pushed_step hpm h signature) hu
  | node a v v' l hv hmove _ => exact node_moved hv hmove hu

/-! ## Where a run starts -/

omit [DecidableEq ι] in
/-- Every node starts with nothing. -/
theorem initial_nodes {clocks : List (String × ℚ)} {address : String} {v : ProveNode.World}
    (hv : (World.initial clocks : World ι Pub Priv).nodes.get? address = some v) :
    ∃ now, v = .initial now := by
  have hfold : ∀ (l : List (String × ℚ)) (d : Dict String ProveNode.World),
      (∀ a u, d.get? a = some u → ∃ now, u = .initial now) →
      ∀ a u, (l.foldl (fun d (c : String × ℚ) => d.set c.1 (.initial c.2)) d).get? a = some u →
        ∃ now, u = .initial now := by
    intro l
    induction l with
    | nil => exact fun d hd => hd
    | cons c l ih =>
        intro d hd
        apply ih
        intro a u hu
        rw [Dict.get?_set] at hu
        split at hu
        next =>
          cases hu
          exact ⟨c.2, rfl⟩
        next => exact hd a u hu
  exact hfold clocks Dict.empty (fun _ _ h => by cases h) address v hv

/-- No step removes a node or adds one. -/
theorem nodes_get?_isSome {w w' : World ι Pub Priv} {labels : List (Label ι Pub Priv)}
    (hrun : run (World.step s) w labels = some w') (address : String) :
    (w'.nodes.get? address).isSome = (w.nodes.get? address).isSome := by
  refine run_extends (fun w w' : World ι Pub Priv =>
    (w'.nodes.get? address).isSome = (w.nodes.get? address).isSome) (fun _ => rfl)
    (fun _ _ _ h h' => h'.trans h) ?_ hrun
  intro w label w' hstep
  have hset : ∀ {a : String} {v v' : ProveNode.World}, w.nodes.get? a = some v →
      ((w.nodes.set a v').get? address).isSome = (w.nodes.get? address).isSome := by
    intro a v v' hv
    rw [Dict.get?_set]
    split
    next ha =>
      rw [ha, hv]
      rfl
    next => rfl
  cases effect_of_step hstep with
  | delivered c x v pm hget hopen hv hpm => exact hset hv
  | foreign a h signature v pm hv hpm => exact hset hv
  | node a v v' l hv hmove _ => exact hset hv
  | _ => rfl

/-- **A node of a run has a run of its own**, from nothing. -/
theorem run_node {clocks : List (String × ℚ)} {labels : List (Label ι Pub Priv)}
    {w : World ι Pub Priv} {address : String} {v : ProveNode.World}
    (hrun : run (World.step s) (World.initial clocks) labels = some w)
    (hv : w.nodes.get? address = some v) :
    ∃ (t₀ : ℚ) (moves : List (ProveNode.Label Pub Priv)),
      run (ProveNode.World.step s.verify) (ProveNode.World.initial t₀) moves = some v := by
  have hsome := nodes_get?_isSome hrun address
  rw [hv, Option.isSome_some] at hsome
  obtain ⟨v₀, hv₀⟩ := Option.isSome_iff_exists.1 hsome.symm
  obtain ⟨t₀, rfl⟩ := initial_nodes hv₀
  obtain ⟨v', moves, hv', hmoves⟩ := run_component (component_node address) hrun hv₀
  cases hv.symm.trans hv'
  exact ⟨t₀, moves, hmoves⟩

/-- **The registration of a run has a run of its own.** -/
theorem run_hub {clocks : List (String × ℚ)} {labels : List (Label ι Pub Priv)}
    {w : World ι Pub Priv} (hrun : run (World.step s) (World.initial clocks) labels = some w) :
    ∃ moves, run (NodeRegister.World.step s.hub) NodeRegister.World.initial moves =
      some w.hub := by
  obtain ⟨hub, moves, hhub, hmoves⟩ := run_component component_hub hrun rfl
  cases hhub
  exact ⟨moves, hmoves⟩

end Effects

/-! ## One task -/

/-- A signature is the text itself. -/
def plainSigning : Signing Unit Unit where
  sign := fun _ message _ => some message
  verify := fun _ signature message => signature = message

def smallSetup : Setup Unit Unit Unit Unit where
  hub := NodeRegister.smallSetup
  sign := fun salt message => (NodeRegister.smallKey.sign plainSigning salt message).toOption
  verify := NodeRegister.smallKey.verify plainSigning

def smallAddress : String := "http://93.184.216.34:8080"

def smallHash : String := generateProofHash sha256Hexdigest "data" 1700000000

def smallRequest : ProveNode.Request :=
  ⟨smallHash, none, "circom", "10005", "input", false, 0, none⟩

/-- A node registers, a task is handed out and pushed to it, and the node claims it. -/
def smallLabels : List (Label Nat Unit Unit) :=
  [.hub (.post 0 NodeRegister.smallRequest.headers (some NodeRegister.smallRequest.body)),
    .hub (.keyLoaded 0 (some NodeRegister.smallKey)), .hub (.pinged 0 (.ok (true, true)) 0),
    .issue "data" 1700000000 [], .select 0 [], .gathered 0 [.model], .post 0,
    .node smallAddress (.manager (.restart none)), .deliver 0 true none, .answer 0,
    .node smallAddress (.request .grpcProveV2 smallRequest)]

def smallStart : World Nat Unit Unit := .initial [(smallAddress, 0)]

theorem run_small_isSome : (run (World.step smallSetup) smallStart smallLabels).isSome = true := by
  decide +kernel

def smallEnd : World Nat Unit Unit :=
  (run (World.step smallSetup) smallStart smallLabels).get run_small_isSome

theorem run_small : run (World.step smallSetup) smallStart smallLabels = some smallEnd :=
  (Option.some_get run_small_isSome).symm

end ProverNetwork.Ports.TaskNetwork
