import ProverNetwork.Ports.Constant
import ProverNetwork.Ports.HubResponse
import ProverNetwork.Ports.RSAEncryption
import ProverNetwork.Verified.Reply

/-!
# A verifier update on its way to the explorer

A client asks a node to change the verifiers of a proof.  The node decrypts the
request and PUTs it to the hub under the session key; the hub decrypts it and
PUTs it to the explorer under the explorer's key.  Each of the three clients
maps what it sees to what it answers, and the one of the explorer drops it: the
hub answers 200 whatever the explorer said.

What a network does between two parties, and what the explorer answers, is
arbitrary.

## Main results

* `accept_of_pair` — the hub decrypts what the node encrypted.
* `acknowledged_kept_iff` — when a success of the node means that the explorer
  has the update.
* `lost_update` — a success of which the explorer has nothing.
-/

namespace ProverNetwork.Ports.VerifierUpdate

open ProverNetwork.Verified
open ProverNetwork.Ports
open ProverNetwork.Ports.HubResponse

/-! ## Files, libraries and hops -/

/-- Reading a key file: its text, `FileNotFoundError`, or another exception with
its text. -/
inductive FileRead
  | text (s : String)
  | notFound
  | fails (error : String)
  deriving DecidableEq

/-- The cipher, `ujson.loads`, `none` where it raises, `ujson.dumps`, and the
text of an exception. -/
structure Libs (Pub Priv : Type) where
  crypto : Cryptography Pub Priv
  loads : String → Option PyVal
  dumps : PyVal → Except PyError String
  str : PyError → String

/-- How a PUT ends for the client: a response, or an exception. -/
inductive PutOutcome
  | status (n : Nat)
  | exception
  deriving DecidableEq

/-- What the network does with a PUT: it passes the request and the answer on, or
it delivers the request or not and lets the client see anything. -/
inductive Hop
  | direct
  | other (arrives : Bool) (seen : PutOutcome)

def Hop.arrives : Hop → Bool
  | .direct => true
  | .other arrives _ => arrives

/-- What the client sees of an answer; `none` is no answer. -/
def Hop.seen : Hop → Option Nat → PutOutcome
  | .direct, some n => .status n
  | .direct, none => .exception
  | .other _ seen, _ => seen

/-- A key file that is there and can be read. -/
def readKey {ρ : Type} (missing : ρ) (fails : String → ρ) : FileRead → Reply ρ String
  | .text s => .next s
  | .notFound => .respond missing
  | .fails error => .respond (fails error)

/-! ## The node -/

/-- The two front ends of a node. -/
inductive FrontEnd
  | grpc
  | http
  deriving DecidableEq

/-- The texts of a front end. -/
structure Texts where
  invalid : String
  noVerifiers : String
  updated : String
  failed : String

def FrontEnd.texts : FrontEnd → Texts
  | .grpc =>
      { invalid := "Decryption failed with provided private key: invalid input data"
        noVerifiers := "Decryption failed with provided private key: no verifiers found"
        updated := "Successfully."
        failed := "Update failed." }
  | .http =>
      { invalid := "Decryption failed with provided private key"
        noVerifiers := "Decryption failed with provided private key"
        updated := "Successfully"
        failed := "Update failed" }

section Handlers

variable {Pub Priv : Type} (libs : Libs Pub Priv)

structure Request where
  proof_hash : String
  verifier : String

/-- What the node answers: a status, or the error of an RPC that raised. -/
inductive NodeAnswer
  | status (code : Int) (msg : String)
  | raises
  deriving DecidableEq

def keyNotFound : NodeAnswer :=
  .status STATUS_CODE_PRIVATE_KEY_NOT_FOUND "Private key file not found"

def updated : NodeAnswer := .status STATUS_CODE_SUCCESSFULLY "Successfully."

/-- `UpdateVerifier` or `verifier`, up to its call of the hub.  A proof hash that is no
ciphertext is `False`, and goes on; a verifier text that is none is no JSON. -/
def decodeFor (texts : Texts) (privateKey : FileRead) (request : Request) :
    Reply NodeAnswer (Option String × PyVal) := do
  let invalid := NodeAnswer.status STATUS_CODE_PRIVATE_KEY_INVALID texts.invalid
  let private_key ← readKey keyNotFound (fun _ => .raises) privateKey
  let rsa_encryption ← Reply.ofExcept .raises (RSAEncryption.init libs.crypto "" private_key)
  let proof_hash ← Reply.ofExcept invalid
    (rsa_encryption.decrypt libs.crypto request.proof_hash)
  let text ← Reply.ofExcept invalid (rsa_encryption.decrypt libs.crypto request.verifier)
  let text ← Reply.ofOption invalid text
  let verifiers ← Reply.ofOption invalid (libs.loads text)
  Reply.require (.status STATUS_CODE_PRIVATE_KEY_INVALID texts.noVerifiers)
    (verifiers.truthy = true)
  return (proof_hash, verifiers)

/-- `UpdateVerifier` up to its call of the hub. -/
def decode : FileRead → Request → Reply NodeAnswer (Option String × PyVal) :=
  decodeFor libs FrontEnd.grpc.texts

/-- What `Hub.update_verifier` returns, or that it raises. -/
inductive HubResult
  | none
  | value (b : Bool)
  | raises
  deriving DecidableEq

/-- `Hub.update_verifier` up to the PUT, with the encrypted body. -/
def hubBody (sessionKey : FileRead) (seeds : List UInt8 × List UInt8)
    (proof_hash : Option String) (verifiers : PyVal) : Reply HubResult (String × String) := do
  let session_key ← readKey .none (fun _ => .raises) sessionKey
  let encryptor ← Reply.ofExcept .raises (RSAEncryption.init libs.crypto session_key "")
  let encrypted_proof_hash ← Reply.ofExcept .raises
    (encryptor.encrypt libs.crypto seeds.1 proof_hash)
  let text ← Reply.ofExcept .raises (libs.dumps verifiers)
  let encrypted_verifiers ← Reply.ofExcept .raises
    (encryptor.encrypt libs.crypto seeds.2 (some text))
  return (encrypted_proof_hash, encrypted_verifiers)

/-- `Hub.update_verifier` from the PUT on. -/
def hubResult : PutOutcome → HubResult
  | .status n => .value (n = 200)
  | .exception => .value false

/-- `UpdateVerifier` or `verifier`, from its call of the hub on. -/
def answerFor (texts : Texts) : HubResult → NodeAnswer
  | .value true => .status STATUS_CODE_SUCCESSFULLY texts.updated
  | .value false => .status STATUS_CODE_ERROR texts.failed
  | .none => .status STATUS_CODE_ERROR texts.failed
  | .raises => .raises

/-- `UpdateVerifier` from its call of the hub on. -/
def nodeAnswer : HubResult → NodeAnswer := answerFor FrontEnd.grpc.texts

/-! ## The hub -/

/-- What the hub answers; an exception that nothing catches is a 500. -/
inductive HubAnswer
  | response (r : HttpResponse)
  | raises
  deriving DecidableEq

def HubAnswer.status : HubAnswer → Nat
  | .response r => r.status
  | .raises => SERVER_ERROR

def hubKeyNotExist : HubAnswer := .response (httpResponse SERVER_ERROR private_key_not_exist none)

def hubDecryptionFailed : HubAnswer :=
  .response (httpResponse INVALID_REQUEST decryption_failed none)

def hubRequestError (error : String) : HubAnswer :=
  .response (httpResponse SERVER_ERROR request_error (some error))

def hubSuccessfully : HubAnswer := .response (httpResponse OK successfully none)

/-- `hub_put_verifier` up to `get_explorer`. -/
def accept (privateKey : FileRead) (body : String × String) :
    Reply HubAnswer (String × PyVal) := do
  let private_key ← readKey hubKeyNotExist (fun _ => .raises) privateKey
  let rsa_encryption ← Reply.ofExcept .raises (RSAEncryption.init libs.crypto "" private_key)
  let proof_hash ← Reply.ofExcept hubDecryptionFailed (rsa_encryption.decrypt libs.crypto body.1)
  let text ← Reply.ofExcept hubDecryptionFailed (rsa_encryption.decrypt libs.crypto body.2)
  let text ← Reply.ofOption hubDecryptionFailed text
  let verifiers ← Reply.ofOption hubDecryptionFailed (libs.loads text)
  let proof_hash ← Reply.ofOption hubDecryptionFailed (proof_hash.filter (fun h => h ≠ ""))
  Reply.require hubDecryptionFailed (verifiers.truthy = true)
  return (proof_hash, verifiers)

/-- `get_explorer`; without a key file there is no explorer. -/
def getExplorer : FileRead → Reply HubAnswer (Option (RSAEncryption Pub Priv))
  | .notFound => .next none
  | .fails error => .respond (hubRequestError error)
  | .text key =>
      match RSAEncryption.init libs.crypto key "" with
      | .error e => .respond (hubRequestError (libs.str e))
      | .ok encryptor => .next (some encryptor)

/-- A PUT to `/api/v1/data/verifier`: the update, and the encrypted body. -/
structure Put where
  proof_hash : String
  verifiers : PyVal
  body : String × String

/-- `Explorer.update_verifier` up to the PUT.  An exception reaches
`hub_put_verifier`, which answers with its text. -/
def explorerPut (encryptor : RSAEncryption Pub Priv) (seeds : List UInt8 × List UInt8)
    (proof_hash : String) (verifiers : PyVal) : Reply HubAnswer Put := do
  let raised := fun e => hubRequestError (libs.str e)
  let encrypted_proof_hash ← orRaise raised
    (encryptor.encrypt libs.crypto seeds.1 (some proof_hash))
  let text ← orRaise raised (libs.dumps verifiers)
  let encrypted_verifiers ← orRaise raised (encryptor.encrypt libs.crypto seeds.2 (some text))
  return ⟨proof_hash, verifiers, (encrypted_proof_hash, encrypted_verifiers)⟩
where
  orRaise {α : Type} (raised : PyError → HubAnswer) : Except PyError α → Reply HubAnswer α
    | .ok a => .next a
    | .error e => .respond (raised e)

/-- `hub_put_verifier` up to the PUT to the explorer, if it makes one. -/
def hubForwards (privateKey explorerKey : FileRead) (seeds : List UInt8 × List UInt8)
    (body : String × String) : Reply HubAnswer (Option Put) := do
  let (proof_hash, verifiers) ← accept libs privateKey body
  let explorer ← getExplorer libs explorerKey
  match explorer with
  | none => return none
  | some encryptor => return some (← explorerPut libs encryptor seeds proof_hash verifiers)

/-- `Explorer.update_verifier` from the PUT on, and the answer of the hub after it.
A status other than 200 and an exception are logged, and nothing else. -/
def afterPut : PutOutcome → HubAnswer := fun _ => hubSuccessfully

end Handlers

/-! ## The three parties -/

/-- The key files of the node and of the hub, the seeds of the ciphertexts, what
the network does, and the status with which the explorer answers a PUT. -/
structure Environment (Pub Priv : Type) where
  libs : Libs Pub Priv
  node_private_key : FileRead
  session_key : FileRead
  hub_private_key : FileRead
  explorer_key : FileRead
  node_seeds : List UInt8 × List UInt8
  hub_seeds : List UInt8 × List UInt8
  to_hub : Hop
  to_explorer : Hop
  explorer : Option Nat

/-- What comes of a request: the answer of the node, the PUT the hub made, and
what the explorer answered it. -/
structure Chain where
  answer : NodeAnswer
  put : Option Put
  explorer_answer : Option Nat

namespace Environment

variable {Pub Priv : Type} (env : Environment Pub Priv)

/-- What the hub does with a PUT of the node. -/
def hub (body : String × String) : HubAnswer × Option Put :=
  match hubForwards env.libs env.hub_private_key env.explorer_key env.hub_seeds body with
  | .respond a => (a, none)
  | .halt _ => (.raises, none)
  | .next none => (hubSuccessfully, none)
  | .next (some put) => (afterPut (env.to_explorer.seen env.explorer), some put)

/-- The PUT of the node, and what comes of it. -/
def deliver (body : String × String) : Chain :=
  let (answer, put) := env.hub body
  let put := if env.to_hub.arrives then put else none
  { answer := nodeAnswer (hubResult (env.to_hub.seen (some answer.status)))
    put := put
    explorer_answer :=
      put.bind (fun _ => if env.to_explorer.arrives then env.explorer else none) }

def chain (request : Request) : Chain :=
  match decode env.libs env.node_private_key request with
  | .respond a => ⟨a, none, none⟩
  | .halt _ => ⟨.raises, none, none⟩
  | .next (proof_hash, verifiers) =>
      match hubBody env.libs env.session_key env.node_seeds proof_hash verifiers with
      | .respond result => ⟨nodeAnswer result, none, none⟩
      | .halt _ => ⟨.raises, none, none⟩
      | .next body => env.deliver body

/-- The explorer answered the hub's PUT for the hash and the list with 200. -/
def Kept (c : Chain) (h : String) (v : PyVal) : Prop :=
  (∃ put, c.put = some put ∧ put.proof_hash = h ∧ put.verifiers = v) ∧
    c.explorer_answer = some 200

/-- Where the node answers with success, the explorer has the update. -/
def AcknowledgedKept (request : Request) : Prop :=
  (env.chain request).answer = updated →
    ∃ h v, decode env.libs env.node_private_key request = .next (some h, v) ∧
      Kept (env.chain request) h v

/-! ## When the node answers with success -/

/-- The node decrypts the request to the hash and the list, and encrypts them
into the body. -/
def Sends (request : Request) (h : String) (v : PyVal) (body : String × String) : Prop :=
  decode env.libs env.node_private_key request = .next (some h, v) ∧
    hubBody env.libs env.session_key env.node_seeds (some h) v = .next body

/-- The hub decrypts the body to the hash and the list, and encrypts them for the
explorer. -/
def Forwards (body : String × String) (h : String) (v : PyVal) : Prop :=
  ∃ put, hubForwards env.libs env.hub_private_key env.explorer_key env.hub_seeds body =
    .next (some put) ∧ put.proof_hash = h ∧ put.verifiers = v

/-- The PUT of the node is answered with 200: by a hub that forwards it, or by
something in its place. -/
def Answered (body : String × String) : Prop :=
  match env.to_hub with
  | .direct => ∃ h v, env.Forwards body h v
  | .other _ seen => seen = .status 200

theorem hubBody_eq_next {libs : Libs Pub Priv} {sessionKey : FileRead}
    {seeds : List UInt8 × List UInt8} {proof_hash : Option String} {verifiers : PyVal}
    {body : String × String}
    (h : hubBody libs sessionKey seeds proof_hash verifiers = .next body) :
    ∃ text, proof_hash = some text := by
  simp only [hubBody, Reply.bind_eq_next, Reply.ofExcept_eq_next] at h
  obtain ⟨_, -, e, -, c, hc, -⟩ := h
  cases proof_hash with
  | some text => exact ⟨text, rfl⟩
  | none =>
      unfold RSAEncryption.encrypt at hc
      cases hpublic : e.public_key <;> simp [hpublic] at hc

theorem nodeAnswer_eq_updated {r : HubResult} : nodeAnswer r = updated ↔ r = .value true := by
  cases r with
  | value b => cases b <;> simp [nodeAnswer, answerFor, FrontEnd.texts, updated, STATUS_CODE_SUCCESSFULLY]
  | none => simp [nodeAnswer, answerFor, FrontEnd.texts, updated]
  | raises => simp [nodeAnswer, answerFor, updated]

theorem ends_readKey {ρ : Type} {missing : ρ} {fails : String → ρ} {P : ρ → Prop}
    (file : FileRead) (hmissing : P missing) (hfails : ∀ e, P (fails e)) :
    (readKey missing fails file).Ends P (fun _ => True) := by
  cases file with
  | text s => trivial
  | notFound => exact hmissing
  | fails e => exact hfails e

/-- The front end of the node answers on its own only to refuse. -/
theorem decode_ends (libs : Libs Pub Priv) (privateKey : FileRead) (request : Request) :
    (decode libs privateKey request).Ends (fun a => a ≠ updated) (fun _ => True) := by
  simp only [decode, decodeFor, Reply.ends_bind, Reply.ends_ofOption, Reply.ends_ofExcept,
    Reply.ends_require, Reply.pure_eq, Reply.ends_next]
  refine (ends_readKey privateKey (by decide) (fun _ => by decide)).mono (fun _ _ => ?_)
  refine ⟨fun _ _ => by decide, fun _ _ => ⟨fun _ _ => by decide, fun _ _ =>
    ⟨fun _ _ => by decide, fun _ _ => ⟨fun _ => by decide, fun _ _ =>
      ⟨fun _ => by decide, fun _ _ => ⟨fun _ => by decide, fun _ => trivial⟩⟩⟩⟩⟩⟩

theorem hubBody_ends (libs : Libs Pub Priv) (sessionKey : FileRead)
    (seeds : List UInt8 × List UInt8) (proof_hash : Option String) (verifiers : PyVal) :
    (hubBody libs sessionKey seeds proof_hash verifiers).Ends (fun r => nodeAnswer r ≠ updated)
      (fun _ => True) := by
  simp only [hubBody, Reply.ends_bind, Reply.ends_ofExcept, Reply.pure_eq, Reply.ends_next]
  refine (ends_readKey sessionKey (by decide) (fun _ => by decide)).mono (fun _ _ => ?_)
  exact ⟨fun _ _ => by decide, fun _ _ => ⟨fun _ _ => by decide, fun _ _ =>
    ⟨fun _ _ => by decide, fun _ _ => ⟨fun _ _ => by decide, fun _ _ => trivial⟩⟩⟩⟩

theorem accept_ends (libs : Libs Pub Priv) (privateKey : FileRead) (body : String × String) :
    (accept libs privateKey body).Ends (fun a => a.status ≠ 200) (fun _ => True) := by
  simp only [accept, Reply.ends_bind, Reply.ends_ofOption, Reply.ends_ofExcept,
    Reply.ends_require, Reply.pure_eq, Reply.ends_next]
  refine (ends_readKey privateKey (by decide) (fun _ => by decide)).mono (fun _ _ => ?_)
  exact ⟨fun _ _ => by decide, fun _ _ => ⟨fun _ _ => by decide, fun _ _ =>
    ⟨fun _ _ => by decide, fun _ _ => ⟨fun _ => by decide, fun _ _ =>
      ⟨fun _ => by decide, fun _ _ => ⟨fun _ => by decide, fun _ _ =>
        ⟨fun _ => by decide, fun _ => trivial⟩⟩⟩⟩⟩⟩⟩

theorem requestError_status (error : String) : (hubRequestError error).status ≠ 200 := by
  rw [hubRequestError, HubAnswer.status, httpResponse_status]
  decide

theorem getExplorer_ends (libs : Libs Pub Priv) {explorerKey : FileRead}
    (hkey : explorerKey ≠ .notFound) :
    (getExplorer libs explorerKey).Ends (fun a => a.status ≠ 200)
      (fun explorer => ∃ e, explorer = some e) := by
  cases explorerKey with
  | notFound => exact absurd rfl hkey
  | fails error => exact requestError_status error
  | text key =>
      unfold getExplorer
      dsimp only
      split
      next e _ => exact requestError_status _
      next encryptor _ => exact ⟨encryptor, rfl⟩

theorem orRaise_ends {α : Type} (libs : Libs Pub Priv) (x : Except PyError α) :
    (explorerPut.orRaise (fun e => hubRequestError (libs.str e)) x).Ends
      (fun a => a.status ≠ 200) (fun _ => True) := by
  cases x with
  | ok a => trivial
  | error e => exact requestError_status _

theorem explorerPut_ends (libs : Libs Pub Priv) (encryptor : RSAEncryption Pub Priv)
    (seeds : List UInt8 × List UInt8) (h : String) (v : PyVal) :
    (explorerPut libs encryptor seeds h v).Ends (fun a => a.status ≠ 200)
      (fun put => put.proof_hash = h ∧ put.verifiers = v) := by
  simp only [explorerPut, Reply.ends_bind, Reply.pure_eq, Reply.ends_next]
  exact (orRaise_ends libs _).mono (fun _ _ => (orRaise_ends libs _).mono (fun _ _ =>
    (orRaise_ends libs _).mono (fun _ _ => ⟨trivial, trivial⟩)))

/-- The hub answers 200 on its own only where it has no explorer. -/
theorem hubForwards_ends (libs : Libs Pub Priv) (privateKey : FileRead) {explorerKey : FileRead}
    (hkey : explorerKey ≠ .notFound) (seeds : List UInt8 × List UInt8) (body : String × String) :
    (hubForwards libs privateKey explorerKey seeds body).Ends (fun a => a.status ≠ 200)
      (fun put => ∃ p, put = some p) := by
  simp only [hubForwards, Reply.ends_bind]
  refine (accept_ends libs privateKey body).mono (fun accepted _ => ?_)
  obtain ⟨h, v⟩ := accepted
  refine (getExplorer_ends libs hkey).mono ?_
  rintro _ ⟨e, rfl⟩
  rw [Reply.ends_bind]
  exact (explorerPut_ends libs e seeds h v).mono (fun put _ => ⟨put, rfl⟩)

/-! ## The two hops -/

/-- The hub answers 200 where it forwards the update, whatever comes of it. -/
theorem hub_status {body : String × String} (hkey : env.explorer_key ≠ .notFound) :
    (env.hub body).1.status = 200 ↔ ∃ h v, env.Forwards body h v := by
  have hends := hubForwards_ends env.libs env.hub_private_key hkey env.hub_seeds body
  unfold hub Forwards
  cases hforwards : hubForwards env.libs env.hub_private_key env.explorer_key env.hub_seeds body with
  | respond a =>
      rw [hforwards] at hends
      simpa using hends
  | halt e =>
      rw [hforwards] at hends
      exact absurd hends (Reply.ends_halt e)
  | next put =>
      rw [hforwards] at hends
      obtain ⟨p, rfl⟩ := hends
      refine ⟨fun _ => ⟨p.proof_hash, p.verifiers, p, rfl, rfl, rfl⟩, fun _ => rfl⟩

theorem hub_put {body : String × String} {h : String} {v : PyVal} :
    env.Forwards body h v ↔
      ∃ put, (env.hub body).2 = some put ∧ put.proof_hash = h ∧ put.verifiers = v := by
  unfold hub Forwards
  cases hubForwards env.libs env.hub_private_key env.explorer_key env.hub_seeds body with
  | respond a => simp
  | halt e => simp
  | next put =>
      cases put with
      | none => simp
      | some p => simp

/-- The node sees a 200 for its PUT. -/
theorem answered_iff {body : String × String} (hkey : env.explorer_key ≠ .notFound) :
    env.to_hub.seen (some (env.hub body).1.status) = .status 200 ↔ env.Answered body := by
  unfold Answered
  cases env.to_hub with
  | direct =>
      rw [← env.hub_status hkey, Hop.seen, PutOutcome.status.injEq]
  | other arrives seen => exact Iff.rfl

theorem hubResult_eq_true {seen : PutOutcome} : hubResult seen = .value true ↔ seen = .status 200 := by
  cases seen with
  | status n => simp [hubResult]
  | exception => simp [hubResult]

theorem deliver_updated {body : String × String} (hkey : env.explorer_key ≠ .notFound) :
    (env.deliver body).answer = updated ↔ env.Answered body := by
  rw [← env.answered_iff hkey, ← hubResult_eq_true, ← nodeAnswer_eq_updated]
  rfl

theorem deliver_kept {body : String × String} {h : String} {v : PyVal} :
    Kept (env.deliver body) h v ↔ env.to_hub.arrives = true ∧ env.Forwards body h v ∧
      env.to_explorer.arrives = true ∧ env.explorer = some 200 := by
  rw [env.hub_put]
  unfold Kept deliver
  dsimp only
  cases env.to_hub.arrives with
  | false => simp
  | true =>
      cases (env.hub body).2 with
      | none => simp
      | some put =>
          cases env.to_explorer.arrives <;> simp [and_assoc]

theorem chain_of_sends {request : Request} {h : String} {v : PyVal} {body : String × String}
    (hsends : env.Sends request h v body) : env.chain request = env.deliver body := by
  rw [chain, hsends.1]
  dsimp only
  rw [hsends.2]

/-- Where the node answers with success it has sent the update. -/
theorem sends_of_updated {request : Request} (h : (env.chain request).answer = updated) :
    ∃ h v body, env.Sends request h v body ∧ (env.deliver body).answer = updated := by
  unfold chain at h
  have hdecode := decode_ends env.libs env.node_private_key request
  cases hfront : decode env.libs env.node_private_key request with
  | respond a =>
      rw [hfront] at hdecode h
      exact absurd h hdecode
  | halt e =>
      rw [hfront] at hdecode
      exact absurd hdecode (Reply.ends_halt e)
  | next decoded =>
      obtain ⟨proof_hash, v⟩ := decoded
      rw [hfront] at h
      dsimp only at h
      have hbody := hubBody_ends env.libs env.session_key env.node_seeds proof_hash v
      cases hencrypt : hubBody env.libs env.session_key env.node_seeds proof_hash v with
      | respond r =>
          rw [hencrypt] at hbody h
          exact absurd h hbody
      | halt e =>
          rw [hencrypt] at hbody
          exact absurd hbody (Reply.ends_halt e)
      | next body =>
          rw [hencrypt] at h
          obtain ⟨text, rfl⟩ := hubBody_eq_next hencrypt
          exact ⟨text, v, body, ⟨hfront, hencrypt⟩, h⟩

/-- What the node decrypted is what is to be kept. -/
theorem acknowledgedKept_iff_deliver {request : Request} (hkey : env.explorer_key ≠ .notFound) :
    env.AcknowledgedKept request ↔
      ∀ h v body, env.Sends request h v body → env.Answered body → Kept (env.deliver body) h v := by
  constructor
  · intro hkept h v body hsends hanswered
    have hupdated : (env.chain request).answer = updated := by
      rw [env.chain_of_sends hsends]
      exact (env.deliver_updated hkey).2 hanswered
    obtain ⟨h', v', hdecode, hkept'⟩ := hkept hupdated
    cases hsends.1.symm.trans hdecode
    rwa [env.chain_of_sends hsends] at hkept'
  · intro hcondition hupdated
    obtain ⟨h, v, body, hsends, hdelivered⟩ := env.sends_of_updated hupdated
    refine ⟨h, v, hsends.1, ?_⟩
    rw [env.chain_of_sends hsends]
    exact hcondition h v body hsends ((env.deliver_updated hkey).1 hdelivered)

/-- **When an acknowledged update is kept.** -/
theorem acknowledged_kept_iff {request : Request} (hkey : env.explorer_key ≠ .notFound) :
    env.AcknowledgedKept request ↔
      ∀ h v body, env.Sends request h v body → env.Answered body →
        env.to_hub.arrives = true ∧ env.Forwards body h v ∧
          env.to_explorer.arrives = true ∧ env.explorer = some 200 := by
  rw [env.acknowledgedKept_iff_deliver hkey]
  simp only [env.deliver_kept]

/-! ## Matching keys -/

/-- The session key of the node and the private key of the hub are a pair, and
JSON text gives its value back. -/
structure Matched : Prop where
  keys : ∃ session_key private_key e e' pub priv, env.session_key = .text session_key ∧
    env.hub_private_key = .text private_key ∧
    RSAEncryption.init env.libs.crypto session_key "" = .ok e ∧ e.public_key = some pub ∧
    RSAEncryption.init env.libs.crypto "" private_key = .ok e' ∧ e'.private_key = some priv ∧
    RSAEncryption.KeyPair env.libs.crypto pub priv
  json : ∀ v text, env.libs.dumps v = .ok text → env.libs.loads text = some v

/-- **The hub decrypts what the node encrypted**, and refuses the empty hash. -/
theorem accept_of_pair {request : Request} {h : String} {v : PyVal} {body : String × String}
    (hmatched : env.Matched) (hsends : env.Sends request h v body) :
    accept env.libs env.hub_private_key body =
      if h = "" then .respond hubDecryptionFailed else .next (h, v) := by
  obtain ⟨session_key, private_key, e, e', pub, priv, hsession, hprivate, hinit, hpub, hinit',
    hpriv, hpair⟩ := hmatched.keys
  obtain ⟨hdecode, hbody⟩ := hsends
  have htruthy : v.truthy = true := by
    simp only [decode, decodeFor, Reply.bind_eq_next, Reply.require_eq_next, Reply.pure_eq,
      Reply.next.injEq, Prod.mk.injEq] at hdecode
    obtain ⟨_, -, _, -, _, -, _, -, _, -, _, -, _, htruthy, -, rfl⟩ := hdecode
    exact htruthy
  simp only [hubBody, hsession, readKey, Reply.next_bind, hinit, Reply.bind_eq_next,
    Reply.ofExcept_eq_next, Reply.pure_eq, Reply.next.injEq] at hbody
  obtain ⟨_, he, c, hc, text, htext, d, hd, rfl⟩ := hbody
  cases he
  have hdecrypt := RSAEncryption.decrypt_encrypt hpub hpriv hpair hc
  have hdecrypt' := RSAEncryption.decrypt_encrypt hpub hpriv hpair hd
  simp only [accept, hprivate, readKey, hinit', Reply.ofExcept, Reply.ofOption, hdecrypt,
    hdecrypt', hmatched.json v text htext, Reply.next_bind, Reply.pure_eq]
  by_cases hempty : h = ""
  · rw [if_pos hempty, Option.filter_some_neg (by simpa using hempty), Reply.respond_bind]
  · rw [if_neg hempty, Option.filter_some_pos (by simpa using hempty)]
    simp only [Reply.require, htruthy, if_pos, Reply.next_bind]

theorem accept_of_forwards {body : String × String} {h : String} {v : PyVal}
    (hforwards : env.Forwards body h v) :
    accept env.libs env.hub_private_key body = .next (h, v) := by
  obtain ⟨put, hnext, rfl, rfl⟩ := hforwards
  simp only [hubForwards, Reply.bind_eq_next] at hnext
  obtain ⟨⟨h, v⟩, haccept, explorer, -, hput⟩ := hnext
  cases explorer with
  | none => simp at hput
  | some e =>
      simp only [Reply.bind_eq_next, Reply.pure_eq, Reply.next.injEq, Option.some.injEq] at hput
      obtain ⟨p, hp, rfl⟩ := hput
      have hends := explorerPut_ends env.libs e env.hub_seeds h v
      rw [hp] at hends
      rw [haccept, hends.1, hends.2]

/-- On a network that passes everything on, between parties whose keys match, an
acknowledged update is kept where the explorer answers 200. -/
theorem direct_kept_iff {request : Request} (hkey : env.explorer_key ≠ .notFound)
    (hmatched : env.Matched) (hhub : env.to_hub = .direct)
    (hexplorer : env.to_explorer = .direct) :
    env.AcknowledgedKept request ↔
      ∀ h v body, env.Sends request h v body → env.Forwards body h v → env.explorer = some 200 := by
  rw [env.acknowledgedKept_iff_deliver hkey]
  simp only [env.deliver_kept]
  unfold Answered
  rw [hhub, hexplorer]
  constructor
  · intro hcondition h v body hsends hforwards
    exact (hcondition h v body hsends ⟨h, v, hforwards⟩).2.2.2
  · rintro hcondition h v body hsends ⟨h', v', hforwards⟩
    have haccept := env.accept_of_forwards hforwards
    rw [env.accept_of_pair hmatched hsends] at haccept
    split at haccept
    next => cases haccept
    next =>
      cases haccept
      exact ⟨rfl, hforwards, rfl, hcondition h v body hsends hforwards⟩

end Environment

/-! ## One request -/

/-- JSON of a list of one string, and a cipher that changes nothing. -/
def smallLibs : Libs Unit Unit where
  crypto := RSAEncryption.plain
  loads := fun text => if text = "[\"alice\"]" then some (.list [.str "alice"]) else none
  dumps := fun _ => .ok "[\"alice\"]"
  str := fun _ => ""

/-- Every key is there, nothing is lost on the way, and the explorer answers. -/
def answering (explorer : Nat) : Environment Unit Unit where
  libs := smallLibs
  node_private_key := .text "node private"
  session_key := .text "session public"
  hub_private_key := .text "session private"
  explorer_key := .text "explorer public"
  node_seeds := ([], [])
  hub_seeds := ([], [])
  to_hub := .direct
  to_explorer := .direct
  explorer := some explorer

def smallRequest : Request := ⟨RSAEncryption.cipher "hash", RSAEncryption.cipher "[\"alice\"]"⟩

def smallBody : String × String :=
  (RSAEncryption.cipher "hash", RSAEncryption.cipher "[\"alice\"]")

theorem sends_small (explorer : Nat) :
    (answering explorer).Sends smallRequest "hash" (.list [.str "alice"]) smallBody := by
  have hdecrypt : ∀ text, RSAEncryption.decrypt smallLibs.crypto
      ⟨"", "node private", none, some ()⟩ (RSAEncryption.cipher text) = .ok (some text) :=
    fun text => RSAEncryption.decrypt_plain rfl text
  have hencrypt : ∀ text, RSAEncryption.encrypt smallLibs.crypto
      ⟨"session public", "", some (), none⟩ [] (some text) = .ok (RSAEncryption.cipher text) :=
    fun text => RSAEncryption.encrypt_plain rfl [] text
  refine ⟨?_, ?_⟩
  · simp only [decode, decodeFor, Reply.bind_eq_next, Reply.ofOption_eq_next, Reply.ofExcept_eq_next,
      Reply.require_eq_next, Reply.pure_eq]
    exact ⟨_, rfl, _, rfl, _, hdecrypt _, _, hdecrypt _, _, rfl, _, rfl, (), rfl, rfl⟩
  · simp only [hubBody, Reply.bind_eq_next, Reply.ofExcept_eq_next, Reply.pure_eq]
    exact ⟨_, rfl, _, rfl, _, hencrypt _, _, rfl, _, hencrypt _, rfl⟩

theorem forwards_small (explorer : Nat) :
    (answering explorer).Forwards smallBody "hash" (.list [.str "alice"]) := by
  have hdecrypt : ∀ text, RSAEncryption.decrypt smallLibs.crypto
      ⟨"", "session private", none, some ()⟩ (RSAEncryption.cipher text) = .ok (some text) :=
    fun text => RSAEncryption.decrypt_plain rfl text
  have hencrypt : ∀ text, RSAEncryption.encrypt smallLibs.crypto
      ⟨"explorer public", "", some (), none⟩ [] (some text) = .ok (RSAEncryption.cipher text) :=
    fun text => RSAEncryption.encrypt_plain rfl [] text
  have haccept : accept smallLibs (.text "session private") smallBody =
      .next ("hash", .list [.str "alice"]) := by
    simp only [accept, Reply.bind_eq_next, Reply.ofOption_eq_next, Reply.ofExcept_eq_next,
      Reply.require_eq_next, Reply.pure_eq]
    exact ⟨_, rfl, _, rfl, _, hdecrypt _, _, hdecrypt _, _, rfl, _, rfl, _, rfl, (), rfl, rfl⟩
  have hput : explorerPut smallLibs ⟨"explorer public", "", some (), none⟩ ([], []) "hash"
      (.list [.str "alice"]) = .next ⟨"hash", .list [.str "alice"], smallBody⟩ := by
    simp only [explorerPut, hencrypt, explorerPut.orRaise, Reply.next_bind]
    rfl
  refine ⟨⟨"hash", .list [.str "alice"], smallBody⟩, ?_, rfl, rfl⟩
  show hubForwards smallLibs (.text "session private") (.text "explorer public") ([], [])
    smallBody = _
  simp only [hubForwards, Reply.bind_eq_next]
  exact ⟨_, haccept, _, rfl, (Reply.bind_eq_next _ _ _).2 ⟨_, hput, rfl⟩⟩

theorem updated_small (explorer : Nat) :
    ((answering explorer).chain smallRequest).answer = updated := by
  rw [(answering explorer).chain_of_sends (sends_small explorer)]
  exact ((answering explorer).deliver_updated (fun h => by cases h)).2
    ⟨"hash", .list [.str "alice"], forwards_small explorer⟩

/-- An acknowledged update that is kept: the explorer answers 200. -/
theorem kept_update :
    ((answering 200).chain smallRequest).answer = updated ∧
      (answering 200).AcknowledgedKept smallRequest := by
  refine ⟨updated_small 200, ?_⟩
  refine ((answering 200).acknowledged_kept_iff (fun h => by cases h)).2 ?_
  intro h v body hsends _
  have hdecode := hsends.1.symm.trans (sends_small 200).1
  cases hdecode
  have hbody := hsends.2.symm.trans (sends_small 200).2
  cases hbody
  exact ⟨rfl, forwards_small 200, rfl, rfl⟩

/-- **An acknowledged update is lost**: the node answers with success, and the
explorer answered the PUT with an error. -/
theorem lost_update :
    ((answering 500).chain smallRequest).answer = updated ∧
      ((answering 500).chain smallRequest).explorer_answer = some 500 ∧
      ¬(answering 500).AcknowledgedKept smallRequest := by
  have hanswer : ((answering 500).chain smallRequest).explorer_answer = some 500 := by
    obtain ⟨put, hput, -⟩ := (answering 500).hub_put.1 (forwards_small 500)
    rw [(answering 500).chain_of_sends (sends_small 500)]
    simp only [Environment.deliver, hput]
    rfl
  refine ⟨updated_small 500, hanswer, ?_⟩
  intro hkept
  obtain ⟨h, v, -, -, hok⟩ := hkept (updated_small 500)
  rw [hanswer] at hok
  cases hok

end ProverNetwork.Ports.VerifierUpdate
