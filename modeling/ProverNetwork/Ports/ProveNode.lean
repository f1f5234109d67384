import ProverNetwork.Ports.ProofManagerCount
import ProverNetwork.Ports.ProveServiceMethods
import ProverNetwork.Ports.ResultReport
import ProverNetwork.Verified.Base64
import ProverNetwork.Verified.Component

/-!
# The prove handlers of a node

Nine handlers prove: four under HTTP and three under gRPC for the first version of
the service, and one under each for the second.  All of them claim the task first
and refuse the request where the claim fails; only then do they call the prove
service, report the proof to the hub where a project is credited, and answer.
They give way to each other while the service runs and while the report is sent.

A crash takes the requests under way with it, and the task cache comes back from
a file.

## Main results

* `effect_of_node_step` — what a step of a node can do.
* `component_manager` — a run of a node moves its task cache along a run of its
  own.
-/

namespace ProverNetwork.Ports.ProveNode

open ProverNetwork.Verified
open ProverNetwork.Ports
open ProverNetwork.Ports.ProofManagerRun
open ProverNetwork.Ports.ProveService
open ProverNetwork.Ports.ResultReport
open ProverNetwork.Ports.VerifierUpdate

/-! ## Requests and answers -/

def OAUTH_PROVIDER_GOOGLE : String := "google"

/-- The members of a prove request that a handler reads. -/
structure Request where
  proof_hash : String
  method : Option Int
  prover_id : String
  circuit_template_id : String
  input_data : String
  is_encrypted : Bool
  length : Int
  oauth_provider : Option String

/-- The arguments of the service; zero and the empty name count as left out. -/
def Request.call (r : Request) : ProveCall where
  method := (r.method.filter (fun n => n ≠ 0)).getD TASK_TYPE_ZKLOGIN
  prover_id := r.prover_id
  circuit_template_id := r.circuit_template_id
  input_data := r.input_data
  is_encrypted := r.is_encrypted
  length := r.length
  oauth_provider := (r.oauth_provider.filter (fun s => s ≠ "")).getD OAUTH_PROVIDER_GOOGLE

/-- The members of a response; those that its type lacks are `none`. -/
structure Response where
  code : Int
  msg : String
  proof : Option Text := none
  witness : Option String := none
  proof_solidity : Option String := none
  proof_bytes : Option Text := none
  public_witness : Option String := none
  public_witness_bytes : Option Text := none
  deriving DecidableEq

/-- A response, an `HTTPException`, or another exception. -/
inductive Answer
  | response (r : Response)
  | httpException (status_code : Nat) (code : Option Int) (msg : String)
  | raises
  deriving DecidableEq

/-- `base64.b64encode`. -/
def b64encode (bs : List UInt8) : String :=
  String.ofList ((Base64.encode bs).map (fun c =>
    if c = '-' then '+' else if c = '_' then '/' else c))

/-- `base64.b85encode`. -/
def b85encode (bs : List UInt8) : String := String.ofList (Base85.encode bs)

/-- A validator of a response model: bytes become text. -/
def textual (encode : List UInt8 → String) : Text → Text
  | .bytes bs => .str (encode bs)
  | .str s => .str s

/-! ## The handlers -/

/-- A handler: the method it calls, how it refuses an unclaimable task, and the
members of a result that it answers with. -/
structure Handler where
  method : Method
  refuse : Int → String → Answer
  answer : ProofResult → Response

/-- `raise HTTPException(status_code=400, detail=msg)`. -/
def refuseV1 (_ : Int) (msg : String) : Answer := .httpException 400 none msg

/-- `raise HTTPException(code=ok, msg=msg, status_code=500)`. -/
def refuseV2 (ok : Int) (msg : String) : Answer := .httpException 500 (some ok) msg

/-- A response with the status alone. -/
def refuseGrpc (ok : Int) (msg : String) : Answer := .response { code := ok, msg := msg }

/-- HTTP `/prove`. -/
def httpProve : Handler where
  method := ProveService.prove
  refuse := refuseV1
  answer := fun result => { code := result.code, msg := result.msg, proof := result.proof }

/-- HTTP `/prove_nosha256`. -/
def httpProveNosha256 : Handler where
  method := proveNosha256
  refuse := refuseV1
  answer := fun result => { code := result.code, msg := result.msg, proof := result.proof }

/-- HTTP `/prove_nosha256_with_witness`. -/
def httpProveNosha256WithWitness : Handler where
  method := proveNosha256WithWitness
  refuse := refuseV1
  answer := fun result =>
    { code := result.code, msg := result.msg, proof := result.proof, witness := result.witness }

/-- HTTP `/prove_nosha256_offchain`. -/
def httpProveNosha256Offchain : Handler where
  method := proveNosha256Offchain
  refuse := refuseV1
  answer := fun result =>
    { code := result.code, msg := result.msg, proof := result.proof.map (textual b64encode),
      witness := result.witness }

/-- HTTP `/api/v2/prove`. -/
def httpProveV2 : Handler where
  method := proveOfV2
  refuse := refuseV2
  answer := fun result =>
    { code := result.code, msg := result.msg, proof := result.proof,
      proof_solidity := result.proof_solidity,
      proof_bytes := (result.proof_bytes.map .bytes).map (textual b85encode),
      public_witness := result.public_witness,
      public_witness_bytes := (result.public_witness_bytes.map .bytes).map (textual b85encode) }

/-- gRPC `ProveNosha256`. -/
def grpcProveNosha256 : Handler where
  method := proveNosha256
  refuse := refuseGrpc
  answer := fun result => { code := result.code, msg := result.msg, proof := result.proof }

/-- gRPC `ProveNosha256WithWitness`. -/
def grpcProveNosha256WithWitness : Handler where
  method := proveNosha256WithWitness
  refuse := refuseGrpc
  answer := fun result =>
    { code := result.code, msg := result.msg, proof := result.proof, witness := result.witness }

/-- gRPC `ProveNosha256Offchain`. -/
def grpcProveNosha256Offchain : Handler where
  method := proveNosha256Offchain
  refuse := refuseGrpc
  answer := fun result =>
    { code := result.code, msg := result.msg, proof := result.proof, witness := result.witness }

/-- gRPC `Prove` of the second version. -/
def grpcProveV2 : Handler where
  method := proveOfV2
  refuse := refuseGrpc
  answer := fun result =>
    { code := result.code, msg := result.msg, proof := result.proof,
      proof_solidity := result.proof_solidity,
      proof_bytes := result.proof_bytes.map .bytes,
      public_witness := result.public_witness,
      public_witness_bytes := result.public_witness_bytes.map .bytes }

inductive Endpoint
  | httpProve
  | httpProveNosha256
  | httpProveNosha256WithWitness
  | httpProveNosha256Offchain
  | httpProveV2
  | grpcProveNosha256
  | grpcProveNosha256WithWitness
  | grpcProveNosha256Offchain
  | grpcProveV2
  deriving DecidableEq

def Endpoint.handler : Endpoint → Handler
  | .httpProve => ProveNode.httpProve
  | .httpProveNosha256 => ProveNode.httpProveNosha256
  | .httpProveNosha256WithWitness => ProveNode.httpProveNosha256WithWitness
  | .httpProveNosha256Offchain => ProveNode.httpProveNosha256Offchain
  | .httpProveV2 => ProveNode.httpProveV2
  | .grpcProveNosha256 => ProveNode.grpcProveNosha256
  | .grpcProveNosha256WithWitness => ProveNode.grpcProveNosha256WithWitness
  | .grpcProveNosha256Offchain => ProveNode.grpcProveNosha256Offchain
  | .grpcProveV2 => ProveNode.grpcProveV2

/-! ## Requests under way -/

/-- Where a request that claimed its task is: in the service, in `send_result`, or
over; an answered one has posted a report, or none. -/
inductive Phase
  | proving
  | reporting (result : ProofResult)
  | answered (result : ProofResult) (posted : Option (Fields String))
  | raised
  | killed

/-- A request that claimed its task. -/
structure Job where
  endpoint : Endpoint
  proof_hash : String
  claimed_at : ℚ
  call : ProveCall
  phase : Phase

/-- The arguments of `send_result`. -/
def Job.report (job : Job) (result : ProofResult) : Report :=
  ⟨result.project_name, job.proof_hash, result.duration, result.verifiers⟩

/-- A crash, or the cancellation of a call, ends what is under way. -/
def Job.kill (job : Job) : Job :=
  match job.phase with
  | .proving => { job with phase := .killed }
  | .reporting _ => { job with phase := .killed }
  | _ => job

/-- The task cache of the node with its history, and the requests that claimed a
task, in their order. -/
structure World where
  manager : ProofManagerRun.World
  jobs : List Job

def World.initial (now : ℚ) : World := ⟨.initial now, []⟩

/-- A prove request arrives; the service, in the state it is in then, ends; the
report is sent; a request is cancelled; or the task cache does something other than
a claim. -/
inductive Label (Pub Priv : Type)
  | request (endpoint : Endpoint) (r : Request)
  | proved (i : Nat) (node : ProveService.Node Pub Priv) (providers : ProveService.World)
  | reported (i : Nat) (libs : VerifierUpdate.Libs Pub Priv) (sessionKey : FileRead)
      (seeds : Fields (List UInt8))
  | cancel (i : Nat)
  | manager (op : Op)

section Steps

variable {Pub Priv : Type} (verify : String → String → Bool)

/-- `claim_task`, and what follows it up to the call of the service. -/
def World.arrive (w : World) (pm : ProofManager) (endpoint : Endpoint) (r : Request) :
    Option Answer × World :=
  let manager := w.manager.claim pm r.proof_hash
  match (pm.claimTask w.manager.now r.proof_hash).1 with
  | (.yes, _) =>
      (none, ⟨manager, w.jobs ++ [⟨endpoint, r.proof_hash, w.manager.now, r.call, .proving⟩]⟩)
  | (.code ok, msg) => (some (endpoint.handler.refuse ok msg), { w with manager := manager })

/-- What follows the service. -/
def afterService : Except PyError ProofResult → Phase
  | .error _ => .raised
  | .ok result => if result.project_name.truthy then .reporting result else .answered result none

/-- What follows `send_result`. -/
def afterReport (result : ProofResult) : Reply SendEnd (Fields String) → Phase
  | .next body => .answered result (some body)
  | .respond .returns => .answered result none
  | .respond .raises => .raised
  | .halt _ => .raised

/-- The answer with which a request ends. -/
def Job.answer (job : Job) : Option Answer :=
  match job.phase with
  | .answered result _ => some (.response (job.endpoint.handler.answer result))
  | .raised => some .raises
  | _ => none

/-- A request goes on, with its answer if it ends. -/
def World.goOn (w : World) (i : Nat) (job : Job) (phase : Phase) : Option Answer × World :=
  let job := { job with phase := phase }
  (job.answer, { w with jobs := w.jobs.set i job })

/-- One step, with the answer of a request that ends with it. -/
def World.handle (w : World) : Label Pub Priv → Option (Option Answer × World)
  | .request endpoint r => w.manager.process.map (fun pm => w.arrive pm endpoint r)
  | .proved i node providers =>
      match w.jobs[i]? with
      | some job =>
          match job.phase with
          | .proving =>
              some (w.goOn i job (afterService
                (job.endpoint.handler.method.run node job.call providers).1))
          | _ => none
      | none => none
  | .reported i libs sessionKey seeds =>
      match w.jobs[i]? with
      | some job =>
          match job.phase with
          | .reporting result =>
              some (w.goOn i job (afterReport result
                (sendResult libs sessionKey seeds (job.report result))))
          | _ => none
      | none => none
  | .cancel i => w.jobs[i]?.map (fun job => (none, { w with jobs := w.jobs.set i job.kill }))
  | .manager op =>
      match op with
      | .claimTask _ => none
      | .crash => (w.manager.step verify op).map (fun m => (none, ⟨m, w.jobs.map Job.kill⟩))
      | op => (w.manager.step verify op).map (fun m => (none, { w with manager := m }))

def World.step (w : World) (label : Label Pub Priv) : Option World :=
  (w.handle verify label).map Prod.snd

end Steps

/-! ## What a step does -/

/-- The hash and the time of a claim. -/
def claimOf : ProofManagerRun.Event → Option (String × ℚ)
  | .claimed h t => some (h, t)
  | _ => none

/-- The claims of a history, oldest first. -/
def claims (log : List ProofManagerRun.Event) : List (String × ℚ) := (log.filterMap claimOf).reverse

def Job.claim (job : Job) : String × ℚ := (job.proof_hash, job.claimed_at)

section Effects

variable {Pub Priv : Type} {verify : String → String → Bool}

/-- A job that goes on keeps everything but its phase. -/
def Job.With (job : Job) (phase : Phase) : Job := { job with phase := phase }

@[simp] theorem Job.claim_with (job : Job) (phase : Phase) : (job.With phase).claim = job.claim :=
  rfl

/-- What a single step can do: the cache moves without a claim, a claim is refused,
a claim starts a request, or a request goes on. -/
inductive Effect (Pub Priv : Type) (verify : String → String → Bool) (w : World) : World → Prop
  | moved {m : ProofManagerRun.World} {op : Op} (kill : Bool) :
      w.manager.step verify op = some m → claims m.log = claims w.manager.log →
      Effect Pub Priv verify w ⟨m, if kill then w.jobs.map Job.kill else w.jobs⟩
  | claimed {m : ProofManagerRun.World} (endpoint : Endpoint) (r : Request) :
      w.manager.step verify (.claimTask r.proof_hash) = some m →
      m.log = .claimed r.proof_hash w.manager.now :: w.manager.log →
      Effect Pub Priv verify w
        ⟨m, w.jobs ++ [⟨endpoint, r.proof_hash, w.manager.now, r.call, .proving⟩]⟩
  | served (i : Nat) (job : Job) (node : ProveService.Node Pub Priv)
      (providers : ProveService.World) : w.jobs[i]? = some job →
      Effect Pub Priv verify w
        { w with
          jobs := w.jobs.set i (job.With (afterService
            (job.endpoint.handler.method.run node job.call providers).1)) }
  | reported (i : Nat) (job : Job) (result : ProofResult) (libs : VerifierUpdate.Libs Pub Priv)
      (sessionKey : FileRead) (seeds : Fields (List UInt8)) : w.jobs[i]? = some job →
      job.phase = .reporting result →
      Effect Pub Priv verify w
        { w with
          jobs := w.jobs.set i (job.With (afterReport result
            (sendResult libs sessionKey seeds (job.report result)))) }
  | cancelled (i : Nat) (job : Job) : w.jobs[i]? = some job →
      Effect Pub Priv verify w { w with jobs := w.jobs.set i job.kill }

/-- Only a claim logs a claim. -/
theorem claims_of_step {m m' : ProofManagerRun.World} {op : Op}
    (hop : ∀ h, op ≠ .claimTask h) (hstep : m.step verify op = some m') :
    claims m'.log = claims m.log := by
  cases effect_of_step hstep with
  | accepted h s => rfl
  | claimed h e => exact absurd rfl (hop h)
  | shrunk => rfl
  | crashed => rfl
  | restarted choice => rfl
  | advanced d => rfl

theorem effect_request {w : World} {pm : ProofManager} (hpm : w.manager.process = some pm)
    (endpoint : Endpoint) (r : Request) :
    Effect Pub Priv verify w (w.arrive pm endpoint r).2 := by
  have hstep : w.manager.step verify (.claimTask r.proof_hash) =
      some (w.manager.claim pm r.proof_hash) := by
    rw [ProofManagerRun.World.step, hpm]
    rfl
  unfold World.arrive
  rcases hres : pm.claimTask w.manager.now r.proof_hash with ⟨⟨ok, msg⟩, pm'⟩
  cases ok with
  | yes =>
      refine .claimed endpoint r hstep ?_
      rw [ProofManagerRun.World.claim, hres]
  | code n =>
      refine .moved false hstep ?_
      rw [ProofManagerRun.World.claim, hres]

/-- **One step.** -/
theorem effect_of_node_step {w w' : World} {label : Label Pub Priv}
    (hstep : w.step verify label = some w') : Effect Pub Priv verify w w' := by
  obtain ⟨⟨a, v⟩, hhandle, rfl⟩ := Option.map_eq_some_iff.1 hstep
  cases label with
  | request endpoint r =>
      obtain ⟨pm, hpm, hres⟩ := Option.map_eq_some_iff.1 hhandle
      rw [show v = (w.arrive pm endpoint r).2 from by rw [hres]]
      exact effect_request hpm endpoint r
  | proved i node providers =>
      simp only [World.handle] at hhandle
      split at hhandle
      next job hjob =>
        split at hhandle
        next hphase =>
          cases hhandle
          exact .served i job node providers hjob
        next => cases hhandle
      next => cases hhandle
  | reported i libs sessionKey seeds =>
      simp only [World.handle] at hhandle
      split at hhandle
      next job hjob =>
        split at hhandle
        next result hphase =>
          cases hhandle
          exact .reported i job result libs sessionKey seeds hjob hphase
        next => cases hhandle
      next => cases hhandle
  | cancel i =>
      obtain ⟨job, hjob, hres⟩ := Option.map_eq_some_iff.1 hhandle
      cases hres
      exact .cancelled i job hjob
  | manager op =>
      simp only [World.handle] at hhandle
      split at hhandle
      next => cases hhandle
      next =>
        obtain ⟨m, hm, hres⟩ := Option.map_eq_some_iff.1 hhandle
        cases hres
        exact .moved true hm (claims_of_step (fun h heq => by cases heq) hm)
      next hclaim _ =>
        obtain ⟨m, hm, hres⟩ := Option.map_eq_some_iff.1 hhandle
        cases hres
        exact .moved false hm (claims_of_step (fun h heq => hclaim h heq) hm)

/-- **The task cache is a component of the node.** -/
theorem component_manager :
    Component (fun (w : World) (l : Label Pub Priv) => w.step verify l)
      (ProofManagerRun.World.step verify) (fun w => some w.manager) := by
  intro w label w' m hstep hm
  cases hm
  cases effect_of_node_step hstep with
  | moved kill hmove => exact ⟨_, rfl, Or.inr ⟨_, hmove⟩⟩
  | claimed endpoint r hmove => exact ⟨_, rfl, Or.inr ⟨_, hmove⟩⟩
  | served => exact ⟨_, rfl, Or.inl rfl⟩
  | reported => exact ⟨_, rfl, Or.inl rfl⟩
  | cancelled => exact ⟨_, rfl, Or.inl rfl⟩

end Effects

end ProverNetwork.Ports.ProveNode
