import ProverNetwork.Ports.PyVal
import ProverNetwork.Verified.Base85
import ProverNetwork.Ports.RSAEncryption

/-!
# Pushing a task to a node

The hub signs the hash of a task and posts both to a node.  A post that times
out is made a second time, whether or not the first one arrived; whatever else
goes wrong in the second one is raised inside the handler of the timeout, where
nothing catches it.

## Main results

* `verify_sign` — what one key signs the other verifies.
* `settles_spec` — what a push reports, in terms of its two posts.
-/

namespace ProverNetwork.Ports

open ProverNetwork.Verified
open ProverNetwork.Verified.PyText

/-! ## Signatures -/

/-- PSS, whose signing draws a salt; `none` stands for `ValueError`. -/
structure Signing (Pub Priv : Type) where
  sign : Priv → List UInt8 → List UInt8 → Option (List UInt8)
  verify : Pub → List UInt8 → List UInt8 → Bool

namespace RSAEncryption

variable {Pub Priv : Type} (pss : Signing Pub Priv)

/-- `sign`. -/
def sign (e : RSAEncryption Pub Priv) (salt : List UInt8) (message : String) :
    Except PyError String :=
  match e.private_key with
  | none => .error .attributeError
  | some key =>
      match pss.sign key (utf8 message) salt with
      | none => .error .valueError
      | some signature => .ok (String.ofList (Base85.encode signature))

/-- `verify`; every exception counts as an invalid signature. -/
def verify (e : RSAEncryption Pub Priv) (message signature : String) : Bool :=
  match Base85.decode signature.toList, e.public_key with
  | some bytes, some key => pss.verify key bytes (utf8 message)
  | _, _ => false

/-- What one key signs the other verifies. -/
def SigningPair (pub : Pub) (priv : Priv) : Prop :=
  ∀ message salt signature, pss.sign priv message salt = some signature →
    pss.verify pub signature message = true

variable {pss}

/-- **A pair of keys verifies what it signs.** -/
theorem verify_sign {e e' : RSAEncryption Pub Priv} {pub : Pub} {priv : Priv}
    (hpriv : e.private_key = some priv) (hpub : e'.public_key = some pub)
    (hpair : SigningPair pss pub priv) {salt : List UInt8} {message signature : String}
    (h : e.sign pss salt message = .ok signature) : e'.verify pss message signature = true := by
  simp only [sign, hpriv] at h
  cases hbytes : pss.sign priv (utf8 message) salt with
  | none => simp [hbytes] at h
  | some bytes =>
      simp only [hbytes, Except.ok.injEq] at h
      subst h
      simp only [verify, String.toList_ofList, Base85.decode_encode, hpub]
      exact hpair _ _ _ hbytes

end RSAEncryption

namespace PushTask

/-! ## The two posts -/

/-- What the classes of an exception say about it. -/
inductive ErrorKind
  /-- an `AioRpcError`, with the name of its code in lower case -/
  | rpc (code_name : String)
  /-- an `aiohttp.ClientConnectorError` -/
  | connector
  /-- another `aiohttp.ClientError` -/
  | client
  /-- an `asyncio.TimeoutError`, which may be an `aiohttp.ClientError` too -/
  | timeout (client : Bool)
  | other
  deriving DecidableEq

structure Error where
  kind : ErrorKind
  text : String
  deriving DecidableEq

def Error.timedOut (e : Error) : Bool :=
  match e.kind with
  | .timeout _ => true
  | _ => false

/-- `needle in text`. -/
def within (needle text : String) : Bool := text.toList.tails.any needle.toList.isPrefixOf

/-- The tests of `classify_error` on the text alone. -/
def classifyText (lowered : String) : String :=
  if within "timeout" lowered || within "timed out" lowered ||
      within "deadline exceeded" lowered then "network_timeout"
  else if within "connection refused" lowered then "connection_refused"
  else if within "invalid task status" lowered then "invalid_task_status"
  else if within "flush" lowered then "flush_error"
  else if within "unclosed connection" lowered then "aiohttp_unclosed_connection"
  else if within "reentrant" lowered && within "logging" lowered then "logging_reentrant_error"
  else if within "unavailable" lowered && within "grpc" lowered then "grpc_unavailable"
  else "unknown_error"

/-- `classify_error`; `lower` is `str.lower`. -/
def classifyError (lower : String → String) (e : Error) : String :=
  let lowered := lower e.text
  match e.kind with
  | .rpc code_name =>
      if code_name = "unavailable" then
        if within "connection refused" lowered then "connection_refused" else "grpc_unavailable"
      else if code_name = "deadline_exceeded" then "network_timeout"
      else classifyText lowered
  | .connector =>
      if within "connection refused" lowered then "connection_refused"
      else if within "grpc" lowered then "grpc_unavailable"
      else "unknown_error"
  | .client =>
      if within "unclosed connection" lowered then "aiohttp_unclosed_connection"
      else classifyText lowered
  | .timeout client =>
      if client && within "unclosed connection" lowered then "aiohttp_unclosed_connection"
      else "network_timeout"
  | .other => classifyText lowered

/-- How a POST ends for the hub. -/
inductive PostOutcome
  | status (n : Nat)
  | error (e : Error)
  deriving DecidableEq

/-- The members of the dictionary that `push_task_details` returns, but for the
duration. -/
structure PushResult where
  success : Bool
  status : Option Nat
  retries : Nat
  timeout : Bool
  error_type : Option String
  error_msg : Option String
  deriving DecidableEq

/-- A post that was answered. -/
def answered (retries : Nat) (timeout : Bool) (n : Nat) : PushResult where
  success := n = 200
  status := some n
  retries := retries
  timeout := timeout
  error_type := if n = 200 then none else some "http_status_error"
  error_msg := if n = 200 then none else some ("unexpected_http_status:" ++ toString n)

/-- A post that ended in an exception. -/
def failed (lower : String → String) (retries : Nat) (timeout : Bool) (e : Error) :
    PushResult where
  success := false
  status := none
  retries := retries
  timeout := timeout
  error_type := some (classifyError lower e)
  error_msg := some e.text

/-- How far a push has come: its task waits to be run, its first or its second
post waits for an answer, or it is over. -/
inductive Phase
  | queued
  | posted
  | reposted
  | returned (r : PushResult)
  | raised (e : Error)
  deriving DecidableEq

/-- `push_task_details`, from the end of a post on. -/
def Phase.settles (lower : String → String) : Phase → PostOutcome → Phase
  | .posted, .status n => .returned (answered 0 false n)
  | .posted, .error e => if e.timedOut then .reposted else .returned (failed lower 0 false e)
  | .reposted, .status n => .returned (answered 1 true n)
  | .reposted, .error e => if e.timedOut then .returned (failed lower 1 true e) else .raised e
  | phase, _ => phase

/-- The posts a push can still make. -/
def Phase.left : Phase → Nat
  | .queued => 2
  | .posted => 1
  | _ => 0

/-- A push waits for the answer to its post with this number. -/
def Phase.awaits : Phase → Nat → Bool
  | .posted, 0 => true
  | .reposted, 1 => true
  | _, _ => false

/-- The end of a post uses up no post, and the end of a push all of them. -/
theorem Phase.left_settles (lower : String → String) (phase : Phase) (o : PostOutcome) :
    (phase.settles lower o).left ≤ phase.left := by
  cases phase with
  | posted =>
      cases o with
      | status n => exact Nat.zero_le 1
      | error e =>
          rw [settles]
          split <;> exact Nat.zero_le 1
  | reposted =>
      cases o with
      | status n => exact le_rfl
      | error e =>
          rw [settles]
          split <;> exact le_rfl
  | queued => cases o <;> exact le_rfl
  | returned r => cases o <;> exact le_rfl
  | raised e => cases o <;> exact le_rfl

/-! ## What a push reports -/

/-- A result says truly what became of the last post. -/
structure Truthful (r : PushResult) : Prop where
  success_iff : r.success = true ↔ r.status = some 200
  error_type_iff : r.error_type = none ↔ r.success = true
  error_msg_iff : r.error_msg = none ↔ r.success = true
  retries_iff : r.retries = 1 ↔ r.timeout = true
  retries_le : r.retries ≤ 1

theorem truthful_answered {retries : Nat} {timeout : Bool} (hle : retries ≤ 1)
    (h : retries = 1 ↔ timeout = true) (n : Nat) : Truthful (answered retries timeout n) where
  success_iff := by simp [answered]
  error_type_iff := by
    unfold answered
    split <;> simp_all
  error_msg_iff := by
    unfold answered
    split <;> simp_all
  retries_iff := h
  retries_le := hle

theorem truthful_failed (lower : String → String) {retries : Nat} {timeout : Bool}
    (hle : retries ≤ 1) (h : retries = 1 ↔ timeout = true) (e : Error) :
    Truthful (failed lower retries timeout e) where
  success_iff := by simp [failed]
  error_type_iff := by simp [failed]
  error_msg_iff := by simp [failed]
  retries_iff := h
  retries_le := hle

/-- **The end of a post** leaves a push that has not returned to its second post,
and makes every result it returns a true one. -/
theorem settles_spec (lower : String → String) {phase : Phase} {o : PostOutcome}
    {r : PushResult} (hopen : ∀ r', phase ≠ .returned r')
    (h : phase.settles lower o = .returned r) :
    Truthful r ∧ (∀ n, r.status = some n ↔ o = .status n) ∧
      (r.retries = 1 ↔ phase = .reposted) := by
  cases phase with
  | queued => cases o <;> cases h
  | raised e => cases o <;> cases h
  | returned r' => exact absurd rfl (hopen r')
  | posted =>
      cases o with
      | status n =>
          cases h
          exact ⟨truthful_answered (by decide) (by decide) n, fun n' => by simp [answered],
            by simp [answered]⟩
      | error e =>
          rw [Phase.settles] at h
          split at h
          next => cases h
          next =>
            cases h
            exact ⟨truthful_failed lower (by decide) (by decide) e, fun n' => by simp [failed],
              by simp [failed]⟩
  | reposted =>
      cases o with
      | status n =>
          cases h
          exact ⟨truthful_answered (by decide) (by decide) n, fun n' => by simp [answered],
            by simp [answered]⟩
      | error e =>
          rw [Phase.settles] at h
          split at h
          next =>
            cases h
            exact ⟨truthful_failed lower (by decide) (by decide) e, fun n' => by simp [failed],
              by simp [failed]⟩
          next => cases h

end PushTask

end ProverNetwork.Ports
