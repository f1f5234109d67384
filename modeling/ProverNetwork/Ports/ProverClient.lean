import ProverNetwork.Ports.ProveService

/-!
# The provers as the node sees them

A method of `CircomProver` or `PrivateProver` sends a request and makes a result
of the response; a gRPC error that is left after the retries is a result too,
and everything else that the call raises goes on to the caller.

The three result classes are one record here; a member that a class does not
have, or that a method does not set, is `none`.
-/

namespace ProverNetwork.Ports.ProveService

open ProverNetwork.Verified

/-- How a call of a stub ends, after the retries. -/
inductive Rpc (α : Type)
  | response (resp : α)
  | rpcError (code : String) (details : Option String)
  | raised (e : PyError)

def Rpc.map {α β : Type} (f : α → β) : Rpc α → Rpc β
  | .response resp => .response (f resp)
  | .rpcError code details => .rpcError code details
  | .raised e => .raised e

/-! ## The response messages -/

/-- `ProveResponse` and `ProveNosha256Response`. -/
structure ProveResponse where
  code : Int
  msg : String
  proof : String

structure ProveNosha256WithWitnessResponse where
  code : Int
  msg : String
  witness : String
  proof : String

structure ProveNosha256OffchainResponse where
  code : Int
  msg : String
  witness : String
  proof : List UInt8

structure ProveResponseV2 where
  code : Int
  msg : String
  proof : String
  proof_solidity : String
  proof_bytes : List UInt8
  public_witness : String
  public_witness_bytes : List UInt8

/-! ## The results -/

/-- `Union[str, bytes]`. -/
inductive Text
  | str (s : String)
  | bytes (bs : List UInt8)
  deriving DecidableEq

def Text.truthy : Text → Bool
  | .str s => s ≠ ""
  | .bytes bs => !bs.isEmpty

/-- `CircomResultV1`, `CircomResultV2` and `PrivateResult`. -/
structure ProverReply extends ProverResult where
  proof : Option Text := none
  witness : Option String := none
  proof_solidity : Option String := none
  proof_bytes : Option (List UInt8) := none
  public_witness : Option String := none
  public_witness_bytes : Option (List UInt8) := none
  deriving DecidableEq

/-- `if prover_result.proof`. -/
def ProverReply.hasProof (reply : ProverReply) : Bool :=
  match reply.proof with
  | none => false
  | some proof => proof.truthy

def ProveResponse.result (resp : ProveResponse) : ProverReply where
  code := resp.code
  msg := resp.msg
  proof := some (.str resp.proof)

def ProveNosha256WithWitnessResponse.result (resp : ProveNosha256WithWitnessResponse) :
    ProverReply where
  code := resp.code
  msg := resp.msg
  proof := some (.str resp.proof)
  witness := some resp.witness

def ProveNosha256OffchainResponse.result (resp : ProveNosha256OffchainResponse) :
    ProverReply where
  code := resp.code
  msg := resp.msg
  proof := some (.bytes resp.proof)
  witness := some resp.witness

def ProveResponseV2.result (resp : ProveResponseV2) : ProverReply where
  code := resp.code
  msg := resp.msg
  proof := some (.str resp.proof)
  proof_solidity := some resp.proof_solidity
  proof_bytes := some resp.proof_bytes
  public_witness := some resp.public_witness
  public_witness_bytes := some resp.public_witness_bytes

/-! ## The clients -/

structure CircomStub where
  prove : String → String → Rpc ProveResponse
  proveNosha256 : String → String → Int → Rpc ProveResponse
  proveNosha256WithWitness : String → String → Int → Rpc ProveNosha256WithWitnessResponse
  proveNosha256Offchain : String → String → Int → Rpc ProveNosha256OffchainResponse
  proveV2 : String → String → Int → Rpc ProveResponseV2

/-- The call that a method of `CircomProver` makes; `Prove` has no length. -/
def CircomStub.call (stub : CircomStub) (rpc : CircomRpc) (input_data temp : String)
    (length : Int) : Rpc ProverReply :=
  match rpc with
  | .prove => (stub.prove input_data temp).map ProveResponse.result
  | .proveNosha256 => (stub.proveNosha256 input_data temp length).map ProveResponse.result
  | .proveNosha256WithWitness =>
      (stub.proveNosha256WithWitness input_data temp length).map
        ProveNosha256WithWitnessResponse.result
  | .proveNosha256Offchain =>
      (stub.proveNosha256Offchain input_data temp length).map
        ProveNosha256OffchainResponse.result
  | .proveV2 => (stub.proveV2 input_data temp length).map ProveResponseV2.result

/-- What a method returns: `AioRpcError` is caught. -/
def Rpc.reply : Rpc ProverReply → Except PyError ProverReply
  | .response reply => .ok reply
  | .rpcError code details =>
      .ok { code := STATUS_CODE_PROVER_NOT_RESPONSE
            msg := code ++ ": " ++ details.getD "None" }
  | .raised e => .error e

/-- A reply without an error code is a response of the prover. -/
theorem Rpc.response_of_reply {outcome : Rpc ProverReply} {reply : ProverReply}
    (h : outcome.reply = .ok reply) (hcode : reply.code = STATUS_CODE_SUCCESSFULLY) :
    outcome = .response reply := by
  cases outcome with
  | response resp => rw [Except.ok.inj h]
  | rpcError code details =>
      have hne : STATUS_CODE_PROVER_NOT_RESPONSE ≠ STATUS_CODE_SUCCESSFULLY := by decide
      rw [← Except.ok.inj h] at hcode
      exact absurd hcode hne
  | raised e => cases h

end ProverNetwork.Ports.ProveService
