import ProverNetwork.Ports.ProjectManager
import ProverNetwork.Ports.ProverClient
import ProverNetwork.Ports.RSAEncryption

/-!
# The methods of the prove service

A method is an entry point with what follows the reply of a prover: the project
that the proof is credited to.  Only `NotImplementedError` is caught on the way,
and only around the call of a prover.

## Main results

* `run_serve` — a method does what its entry point does, and carries on.
-/

namespace ProverNetwork.Ports.ProveService

open ProverNetwork.Verified
open ProverNetwork.Ports.ProjectManager

/-! ## The methods -/

/-- A node: its libraries, its files, its peers and its clock. -/
structure Node (Pub Priv : Type) where
  libs : Libs
  /-- `ujson.loads` of bytes -/
  loadsBytes : List UInt8 → Option PyVal
  crypto : Cryptography Pub Priv
  /-- the private key file, where there is one -/
  privateKey : Option String
  /-- the outcome of a provider's `update_jwks` -/
  refresh : String → Except PyError (List Jwk)
  template_provider_map : PyVal
  projects : PyVal
  circom : CircomStub
  private_ : PrivateRpc → String → String → Rpc ProveResponseV2
  /-- a value in an f-string, or under `str` -/
  format : PyVal → String
  duration : Int

/-- `ProofResult`; the one of V1 lacks the last four members of a reply, the one
of V2 the witness. -/
structure ProofResult extends ProverReply where
  project_name : PyVal := .none
  verifiers : PyVal := .list []
  duration : Option Int := none

/-- What the methods differ in. -/
structure Method where
  entry : EntryPoint
  /-- the text whose last item is the project id -/
  attributed : ProverReply → Option Text
  /-- `verifiers` of a reply without a proof -/
  verifiers : PyVal

/-- `ProveServiceV1.prove`. -/
def prove : Method := ⟨proveV1, fun reply => reply.proof, .none⟩

/-- `ProveServiceV1.prove_nosha256`. -/
def proveNosha256 : Method := ⟨proveNosha256V1, fun reply => reply.proof, .none⟩

/-- `ProveServiceV1.prove_nosha256_with_witness`. -/
def proveNosha256WithWitness : Method :=
  ⟨proveNosha256WithWitnessV1, fun reply => reply.witness.map .str, .none⟩

/-- `ProveServiceV1.prove_nosha256_offchain`. -/
def proveNosha256Offchain : Method :=
  ⟨proveNosha256OffchainV1, fun reply => reply.witness.map .str, .none⟩

/-- `ProveServiceV2.prove`. -/
def proveOfV2 : Method := ⟨proveV2, fun reply => reply.public_witness.map .str, .list []⟩

def methods : List Method :=
  [prove, proveNosha256, proveNosha256WithWitness, proveNosha256Offchain, proveOfV2]

section Methods

variable {Pub Priv : Type}

/-- What the validation sees of a node. -/
def Node.env (node : Node Pub Priv) : Env where
  libs := node.libs
  privateKey := node.privateKey
  decrypt := RSAEncryption.decryptWith node.crypto
  refresh := node.refresh
  template_provider_map := node.template_provider_map
  circom rpc input_data temp length :=
    (node.circom.call rpc input_data temp (length.getD 0)).reply.map (·.toProverResult)
  private_ rpc input_data temp :=
    ((node.private_ rpc input_data temp).map ProveResponseV2.result).reply.map
      (·.toProverResult)
  format := node.format

@[simp] theorem Node.env_libs (node : Node Pub Priv) : node.env.libs = node.libs := rfl

@[simp] theorem Node.env_privateKey (node : Node Pub Priv) :
    node.env.privateKey = node.privateKey := rfl

@[simp] theorem Node.env_decrypt (node : Node Pub Priv) :
    node.env.decrypt = RSAEncryption.decryptWith node.crypto := rfl

@[simp] theorem Node.env_refresh (node : Node Pub Priv) : node.env.refresh = node.refresh := rfl

@[simp] theorem Node.env_template_provider_map (node : Node Pub Priv) :
    node.env.template_provider_map = node.template_provider_map := rfl

def refused (code : Int) (msg : String) : ProofResult := { code := code, msg := msg }

/-- The call of the prover that the request names, and its event; without one, the
code and the message of the answer. -/
def proverCall (m : Method) (node : Node Pub Priv) (call : ProveCall) (input_data : String) :
    Except (Int × String) (Event × Rpc ProverReply) :=
  if call.prover_id = PROVER_CIRCOM then
    .ok (.circomRpc m.entry.rpc input_data call.circuit_template_id,
      node.circom.call m.entry.rpc input_data call.circuit_template_id
        (if m.entry.length then call.length else 0))
  else
    match m.entry.rpcMap with
    | none => .error (STATUS_CODE_UNSUPPORT_PROVER, "Prover not match")
    | some rpc_map =>
        if call.prover_id = PROVER_PRIVATE then
          match rpc_map.lookup call.circuit_template_id with
          | none =>
              .error (STATUS_CODE_UNSUPPORT_TASK_TYPE,
                "Unsupported circuit_template_id: " ++ call.circuit_template_id)
          | some rpc_func =>
              .ok (.privateRpc rpc_func input_data call.circuit_template_id,
                (node.private_ rpc_func input_data call.circuit_template_id).map
                  ProveResponseV2.result)
        else .error (STATUS_CODE_UNSUPPORT_PROVER, "Prover not match")

def orRaise {α : Type} (e : PyError) : Option α → Except PyError α
  | none => .error e
  | some a => .ok a

/-- `ujson.loads`. -/
def loadsText (node : Node Pub Priv) : Option Text → Except PyError PyVal
  | none => .error .typeError
  | some (.str s) => orRaise .valueError (node.libs.loads s)
  | some (.bytes bs) => orRaise .valueError (node.loadsBytes bs)

/-- `v[-1]`. -/
def lastItem : PyVal → Except PyError PyVal
  | .list xs => orRaise .indexError xs.getLast?
  | .str s => orRaise .indexError (s.toList.getLast?.map (fun c => .str (String.singleton c)))
  | .dict _ => .error .keyError
  | _ => .error .typeError

/-- `project[key]`. -/
def member (key : String) : PyVal → Except PyError PyVal
  | .dict members => orRaise .keyError (Dict.lookup key members)
  | _ => .error .typeError

/-- What follows the reply of a prover. -/
def credit (m : Method) (node : Node Pub Priv) (reply : ProverReply) :
    Except PyError ProofResult :=
  if reply.hasProof then do
    let text ← loadsText node (m.attributed reply)
    let project_id ← lastItem text
    let project ← getProject node.projects (node.format project_id)
    let project_name ← member "project_name" project
    let verifiers ← member "verifiers" project
    return { toProverReply := reply, project_name, verifiers, duration := some node.duration }
  else return { toProverReply := reply, verifiers := m.verifiers }

/-- The `try` around the call of a prover, and what follows it. -/
def finish (m : Method) (node : Node Pub Priv) (outcome : Rpc ProverReply) :
    Except PyError ProofResult :=
  match outcome.reply with
  | .ok reply => credit m node reply
  | .error (.notImplemented msg) => .ok (refused STATUS_CODE_ERROR msg)
  | .error e => .error e

/-- A method, from the decrypted payload on. -/
def Method.runDecrypted (m : Method) (node : Node Pub Priv) (call : ProveCall)
    (input_data : String) (w : World) : Except PyError ProofResult × World :=
  match validateTaskTypeAndInput m.entry node.env call input_data w with
  | (.error e, w) => (.error e, w)
  | (.ok (.code ok, msg), w) => (.ok (refused ok msg), w)
  | (.ok (.yes, _), w) =>
      match proverCall m node call input_data with
      | .error (code, msg) => (.ok (refused code msg), w)
      | .ok (event, outcome) =>
          (finish m node outcome, { w with events := w.events ++ [event] })

/-- A method of the prove service. -/
def Method.run (m : Method) (node : Node Pub Priv) (call : ProveCall) (w : World) :
    Except PyError ProofResult × World :=
  match processInput node.env call.input_data call.is_encrypted with
  | .error e => (.error e, w)
  | .ok (.code ok, msg) => (.ok (refused ok msg), w)
  | .ok (.yes, input_data) => m.runDecrypted node call input_data w

/-! ## A method and its entry point -/

variable {m : Method} {node : Node Pub Priv} {call : ProveCall} {input_data : String}
  {w : World}

theorem callProver_eq (m : Method) (node : Node Pub Priv) (call : ProveCall)
    (input_data : String) (w : World) :
    callProver m.entry node.env call input_data w =
      match proverCall m node call input_data with
      | .error (code, msg) => (.ok (.refused code msg), w)
      | .ok (event, outcome) =>
          issue w event (outcome.reply.map (fun reply => reply.toProverResult)) := by
  unfold callProver proverCall
  split
  case isTrue hcircom =>
    cases m.entry.length <;> rfl
  case isFalse hother =>
    cases m.entry.rpcMap with
    | none => rfl
    | some rpc_map =>
        simp only
        split
        case isFalse => rfl
        case isTrue =>
          cases rpc_map.lookup call.circuit_template_id <;> rfl

theorem issue_world (w : World) (event : Event) (reply : Except PyError ProverResult) :
    (issue w event reply).2 = { w with events := w.events ++ [event] } := by
  unfold issue
  simp only
  split <;> rfl

theorem credit_reply {reply : ProverReply} {result : ProofResult}
    (h : credit m node reply = .ok result) : result.toProverReply = reply := by
  unfold credit at h
  split at h
  case isFalse =>
    rw [← Except.ok.inj h]
  case isTrue =>
    simp only [bind, Except.bind, pure, Except.pure] at h
    repeat' split at h
    all_goals cases h
    rfl

/-- What a method answers is what its entry point makes of the reply. -/
theorem issue_of_finish {outcome : Rpc ProverReply} {result : ProofResult} (event : Event)
    (h : finish m node outcome = .ok result) :
    (issue w event (outcome.reply.map (fun reply => reply.toProverResult))).1 =
        .ok (.refused result.code result.msg) ∨
      (issue w event (outcome.reply.map (fun reply => reply.toProverResult))).1 =
        .ok (.replied result.toProverResult) := by
  unfold finish at h
  cases hreply : outcome.reply with
  | ok reply =>
      simp only [hreply] at h
      right
      rw [credit_reply h]
      rfl
  | error e =>
      cases e with
      | notImplemented msg =>
          simp only [hreply, Except.ok.injEq] at h
          left
          rw [← h]
          rfl
      | _ => simp [hreply] at h

/-- **A method does what its entry point does**, and answers with the code and the
message of its reply. -/
theorem run_serve (m : Method) (node : Node Pub Priv) (call : ProveCall) (w : World) :
    (m.run node call w).2 = (serve m.entry node.env call w).2 ∧
      ∀ result, (m.run node call w).1 = .ok result →
        (serve m.entry node.env call w).1 = .ok (.refused result.code result.msg) ∨
          (serve m.entry node.env call w).1 = .ok (.replied result.toProverResult) := by
  unfold Method.run Method.runDecrypted serve
  rcases processInput node.env call.input_data call.is_encrypted with e | ⟨_ | ok, text⟩
  · exact ⟨rfl, fun result h => by cases h⟩
  · simp only
    rcases validateTaskTypeAndInput m.entry node.env call text w with ⟨e | ⟨_ | ok, msg⟩, w'⟩
    · exact ⟨rfl, fun result h => by cases h⟩
    · simp only [callProver_eq]
      rcases proverCall m node call text with ⟨code, msg⟩ | ⟨event, outcome⟩
      · exact ⟨rfl, fun result h => Or.inl (by rw [← Except.ok.inj h]; rfl)⟩
      · exact ⟨(issue_world w' event _).symm, fun result h => issue_of_finish event h⟩
    · exact ⟨rfl, fun result h => Or.inl (by rw [← Except.ok.inj h]; rfl)⟩
  · exact ⟨rfl, fun result h => Or.inl (by rw [← Except.ok.inj h]; rfl)⟩

end Methods

end ProverNetwork.Ports.ProveService
