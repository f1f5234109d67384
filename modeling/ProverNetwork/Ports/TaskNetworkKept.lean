import ProverNetwork.Ports.ProofManagerStanding
import ProverNetwork.Ports.TaskNetworkPushes

/-!
# A task that was handed out can be proved

A client that was handed a node, after a push that succeeded, finds the task there:
the first prove request for it that arrives within sixty seconds is taken on,
whichever handler it comes to, unless the node restarted.

## Main results

* `request_granted` — a request for a task that can be claimed is taken on.
* `handed_out_kept` — what a push that succeeded leaves at the node.
-/

namespace ProverNetwork.Ports.TaskNetwork

open ProverNetwork.Verified
open ProverNetwork.Ports
open ProverNetwork.Ports.PushTask
open ProverNetwork.Ports.ProofManagerRun (Event pushed_kept)

/-- The node takes the request on: nothing is answered yet, and the service is about
to be called with the arguments of the request. -/
def Granted (Pub Priv : Type) (verify : String → String → Bool) (v : ProveNode.World)
    (endpoint : ProveNode.Endpoint) (request : ProveNode.Request) : Prop :=
  ∃ v', v.handle verify (.request endpoint request : ProveNode.Label Pub Priv) = some (none, v') ∧
    v'.jobs = v.jobs ++
      [⟨endpoint, request.proof_hash, v.manager.now, request.call, .proving⟩]

/-- A request for a task that can be claimed is taken on. -/
theorem request_granted {Pub Priv : Type} {verify : String → String → Bool} {v : ProveNode.World}
    {pm : ProofManager} (hpm : v.manager.process = some pm) {request : ProveNode.Request}
    {msg : String}
    (hclaim : (pm.claimTask v.manager.now request.proof_hash).1 = (.yes, msg))
    (endpoint : ProveNode.Endpoint) : Granted Pub Priv verify v endpoint request := by
  refine ⟨⟨v.manager.claim pm request.proof_hash, v.jobs ++
    [⟨endpoint, request.proof_hash, v.manager.now, request.call, .proving⟩]⟩, ?_, rfl⟩
  show v.manager.process.map _ = _
  rw [hpm, Option.map_some, ProveNode.World.arrive, hclaim]

variable {ι Ip Net Pub Priv : Type} [DecidableEq ι] {s : Setup Ip Net Pub Priv}

/-- **What a push that succeeded leaves at the node**, in every run: the node has
accepted the hash, and from then on for sixty seconds, while it neither restarts nor
grants a claim of the hash, it takes on any prove request for it.

`_drop_expired` is one step.  In the node its thread first lists the expired keys, and a
key that had expired and is pushed again before they are deleted is deleted with them. -/
theorem handed_out_kept {clocks : List (String × ℚ)} {labels : List (Label ι Pub Priv)}
    {w : World ι Pub Priv} (hrun : run (World.step s) (World.initial clocks) labels = some w)
    {x : Dispatch} {r : PushResult} (hx : x ∈ w.dispatches) (hr : x.phase = .returned r)
    (hsuccess : r.success = true) {v : ProveNode.World}
    (hv : w.nodes.get? x.http_info = some v) :
    ∃ newer t older, v.manager.log = newer ++ .pushed x.proof_hash x.signature t :: older ∧
      ∀ pm, v.manager.process = some pm → (∀ ev ∈ newer, ev.isRestart = false) →
        (∀ t', Event.claimed x.proof_hash t' ∉ newer) → v.manager.now < t + 60 →
        ∀ endpoint request, request.proof_hash = x.proof_hash →
          Granted Pub Priv s.verify v endpoint request := by
  obtain ⟨htruthful, htold⟩ := (run_toldInv hrun).results x hx r hr
  obtain ⟨t, ht⟩ := (htold 200 (htruthful.success_iff.1 hsuccess) v hv).accepted rfl
  obtain ⟨newer, older, hlog⟩ := List.append_of_mem ht
  obtain ⟨t₀, ops, hops⟩ := run_ran hrun hv
  refine ⟨newer, t, older, hlog, ?_⟩
  intro pm hpm hup hclaims hnow endpoint request hhash
  have hkept := pushed_kept hops hpm hlog hup hclaims hnow
  rw [← hhash] at hkept
  exact request_granted hpm hkept endpoint

/-- The task was pushed and is not claimed yet. -/
def pushedLabels : List (Label Nat Unit Unit) := smallLabels.dropLast

theorem run_pushed_isSome :
    (run (World.step smallSetup) smallStart pushedLabels).isSome = true := by
  decide +kernel

def pushedEnd : World Nat Unit Unit :=
  (run (World.step smallSetup) smallStart pushedLabels).get run_pushed_isSome

theorem run_pushed : run (World.step smallSetup) smallStart pushedLabels = some pushedEnd :=
  (Option.some_get run_pushed_isSome).symm

theorem pushedNode_isSome : (pushedEnd.nodes.get? smallAddress).isSome = true := by
  decide +kernel

def pushedNode : ProveNode.World := (pushedEnd.nodes.get? smallAddress).get pushedNode_isSome

/-- The node has started, and nothing came after the push. -/
theorem pushedNode_course :
    pushedNode.manager.log.map (fun ev => (ev.isRestart, ev.time)) = [(false, 0), (true, 0)] ∧
      pushedNode.manager.process.isSome = true ∧ pushedNode.manager.now < 60 := by
  decide +kernel

theorem pushedNode_log {newer older : List Event} {proof_hash signature : String} {t : ℚ}
    (hlog : pushedNode.manager.log = newer ++ .pushed proof_hash signature t :: older) :
    newer = [] ∧ t = 0 := by
  have hcourse := pushedNode_course.1
  rw [hlog, List.map_append, List.map_cons] at hcourse
  cases newer with
  | nil => exact ⟨rfl, (Prod.mk.inj (List.cons.inj hcourse).1).2⟩
  | cons ev rest =>
      have hrest := (List.cons.inj hcourse).2
      cases rest with
      | nil => cases hrest
      | cons ev' rest' => simp at hrest

/-- The node takes on every request for the task that was pushed to it. -/
theorem handed_out_kept_pushed : ∃ x ∈ pushedEnd.dispatches,
    pushedEnd.nodes.get? x.http_info = some pushedNode ∧
      ∀ endpoint request, request.proof_hash = x.proof_hash →
        Granted Unit Unit smallSetup.verify pushedNode endpoint request := by
  have hreturned : pushedEnd.dispatches.any (fun x => x.phase = .returned (answered 0 false 200) ∧
      x.http_info = smallAddress) = true := by
    decide +kernel
  obtain ⟨x, hx, hphase⟩ := List.any_eq_true.1 hreturned
  obtain ⟨hr, haddress⟩ := of_decide_eq_true hphase
  have hv : pushedEnd.nodes.get? x.http_info = some pushedNode := by
    rw [haddress]
    exact (Option.some_get pushedNode_isSome).symm
  obtain ⟨newer, t, older, hlog, hgranted⟩ := handed_out_kept run_pushed hx hr (by decide) hv
  obtain ⟨rfl, rfl⟩ := pushedNode_log hlog
  obtain ⟨-, hprocess, hnow⟩ := pushedNode_course
  obtain ⟨pm, hpm⟩ := Option.isSome_iff_exists.1 hprocess
  rw [← zero_add 60] at hnow
  exact ⟨x, hx, hv, hgranted pm hpm (fun ev hev => absurd hev List.not_mem_nil)
    (fun _ => List.not_mem_nil) hnow⟩

end ProverNetwork.Ports.TaskNetwork
