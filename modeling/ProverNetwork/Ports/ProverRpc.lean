import Mathlib.Algebra.Order.Ring.Rat
import Mathlib.Data.Nat.Find
import Mathlib.Tactic.Linarith
import ProverNetwork.Ports.ConnectionPool
import ProverNetwork.Ports.PyVal

/-!
# The retry loop of the prover clients

`_rpc` takes a channel out of the pool, calls the prover and gives the channel
back, and does so again after a while where the call ended with a transient
error.  `CircomProver` and the two copies of `PrivateProver` have a copy each.

The wait doubles with each attempt.  Its factor is an integer that becomes a
float before the wait is capped, and the integer of attempt 1025 is too large for
one.

What the pool supplies and how the calls end is arbitrary.

## Main results

* `rpcLoop_retried` — what a stretch of transient failures does.
* `LastAttempt.unique` — the attempt that the loop should end with.
* `attemptsRight_iff` — when the loop makes exactly the allowed attempts.
-/

namespace ProverNetwork.Ports.ProverRpc

open ProverNetwork.Ports

/-- `grpc.StatusCode`. -/
inductive StatusCode
  | OK
  | CANCELLED
  | UNKNOWN
  | INVALID_ARGUMENT
  | DEADLINE_EXCEEDED
  | NOT_FOUND
  | ALREADY_EXISTS
  | PERMISSION_DENIED
  | RESOURCE_EXHAUSTED
  | FAILED_PRECONDITION
  | ABORTED
  | OUT_OF_RANGE
  | UNIMPLEMENTED
  | INTERNAL
  | UNAVAILABLE
  | DATA_LOSS
  | UNAUTHENTICATED
  deriving DecidableEq

/-- How an attempt ends: a response, an `AioRpcError`, or another exception. -/
inductive Outcome (α : Type)
  | value (resp : α)
  | rpcError (code : StatusCode) (details : Option String)
  | raised (e : PyError)

/-- What an `_rpc` does to the pool, and how long it sleeps, in seconds. -/
inductive RpcEvent
  | acquire (channel : Channel)
  | release (channel : Channel)
  | sleep (seconds : ℚ)
  deriving DecidableEq

/-- The codes that are retried. -/
def retried (code : StatusCode) : Bool :=
  [StatusCode.UNAVAILABLE, .DEADLINE_EXCEEDED, .INTERNAL].contains code

def Outcome.transient {α : Type} : Outcome α → Bool
  | .rpcError code _ => retried code
  | _ => false

/-- The settings of a client; `base_backoff` is the float
`base_backoff_ms / 1000.0`. -/
structure Settings where
  rpc_timeout_sec : ℚ
  max_retries : Int
  base_backoff : ℚ

/-- What an `_rpc` meets, by the number of the attempt: what the pool answers, and
how the call with a timeout ends. -/
structure Meets (α : Type) where
  acquire : Nat → Except PyError Channel
  call : Nat → ℚ → Outcome α

/-- `2 ** n` as a float. -/
def floatPow2 (n : Nat) : Except PyError ℚ :=
  if n < 1024 then .ok (2 ^ n) else .error (.other "OverflowError")

/-- How long `CircomProver._rpc` sleeps after an attempt. -/
def circomBackoff (base_backoff : ℚ) (attempt : Nat) : Except PyError ℚ := do
  let backoff := base_backoff * (← floatPow2 (attempt - 1))
  return min backoff 2

/-- How long `PrivateProver._rpc` sleeps after an attempt. -/
def privateBackoff (base_backoff : ℚ) (attempt : Nat) : Except PyError ℚ := do
  let backoff := min (base_backoff * (← floatPow2 (attempt - 1))) 2
  return backoff

section Loop

variable {α : Type}

/-- `async with self._acquire_stub()` around the call: the channel goes back
however the call ends. -/
def acquireStub (meets : Meets α) (timeout : ℚ) (attempt : Nat) : List RpcEvent × Outcome α :=
  match meets.acquire attempt with
  | .error e => ([], .raised e)
  | .ok channel => ([.acquire channel, .release channel], meets.call attempt timeout)

/-- The loop of `_rpc`, after `attempt` turns. -/
def rpcLoop (backoff : Nat → Except PyError ℚ) (meets : Meets α) (timeout : ℚ) (retries : Int)
    (attempt : Nat) : List RpcEvent × Outcome α :=
  let (events, outcome) := acquireStub meets timeout (attempt + 1)
  if _h : (attempt + 1 : Int) ≤ retries ∧ outcome.transient = true then
    match backoff (attempt + 1) with
    | .error e => (events, .raised e)
    | .ok seconds =>
        let (later, result) := rpcLoop backoff meets timeout retries (attempt + 1)
        (events ++ .sleep seconds :: later, result)
  else (events, outcome)
termination_by (retries - attempt).toNat

/-- `CircomProver._rpc`. -/
def circomRpc (self : Settings) (meets : Meets α) (timeout : Option ℚ) (retries : Option Int) :
    List RpcEvent × Outcome α :=
  rpcLoop (circomBackoff self.base_backoff) meets (timeout.getD self.rpc_timeout_sec)
    (retries.getD self.max_retries) 0

/-- `PrivateProver._rpc` of the gnark client. -/
def gnarkRpc (self : Settings) (meets : Meets α) (timeout : Option ℚ) (retries : Option Int) :
    List RpcEvent × Outcome α :=
  rpcLoop (privateBackoff self.base_backoff) meets (timeout.getD self.rpc_timeout_sec)
    (retries.getD self.max_retries) 0

/-- `PrivateProver._rpc` of the private client. -/
def privateRpc (self : Settings) (meets : Meets α) (timeout : Option ℚ) (retries : Option Int) :
    List RpcEvent × Outcome α :=
  rpcLoop (privateBackoff self.base_backoff) meets (timeout.getD self.rpc_timeout_sec)
    (retries.getD self.max_retries) 0

/-! ## What the loop should do -/

/-- Attempt `k` is the first that does not end with a transient error, or it is the
last allowed one. -/
structure LastAttempt (outcome : Nat → Outcome α) (retries : Int) (k : Nat) : Prop where
  pos : 1 ≤ k
  before : ∀ i, 1 ≤ i → i < k → (outcome i).transient = true ∧ (i : Int) < max 1 (retries + 1)
  last : (outcome k).transient = false ∨ (k : Int) = max 1 (retries + 1)

/-- What `n` attempts do that are each followed by another one. -/
def retriedEvents (base_backoff : ℚ) (channel : Nat → Channel) : Nat → List RpcEvent
  | 0 => []
  | n + 1 => retriedEvents base_backoff channel n ++
      [.acquire (channel (n + 1)), .release (channel (n + 1)),
        .sleep (min (base_backoff * 2 ^ n) 2)]

/-- What `k` attempts do. -/
def attemptEvents (base_backoff : ℚ) (channel : Nat → Channel) (k : Nat) : List RpcEvent :=
  retriedEvents base_backoff channel (k - 1) ++ [.acquire (channel k), .release (channel k)]

theorem LastAttempt.unique {outcome : Nat → Outcome α} {retries : Int} {k k' : Nat}
    (h : LastAttempt outcome retries k) (h' : LastAttempt outcome retries k') : k = k' := by
  have hle : ∀ {m n : Nat}, LastAttempt outcome retries m → LastAttempt outcome retries n →
      ¬m < n := by
    intro m n hm hn hlt
    obtain ⟨htransient, hless⟩ := hn.before m hm.pos hlt
    rcases hm.last with hend | hlast
    · rw [htransient] at hend
      cases hend
    · omega
  have h1 := hle h h'
  have h2 := hle h' h
  omega

theorem LastAttempt.exists (outcome : Nat → Outcome α) (retries : Int) :
    ∃ k, LastAttempt outcome retries k := by
  have hsome : ∃ k : Nat, 1 ≤ k ∧
      ((outcome k).transient = false ∨ max 1 (retries + 1) ≤ (k : Int)) :=
    ⟨(max 1 (retries + 1)).toNat, by omega, Or.inr (by omega)⟩
  obtain ⟨hpos, hlast⟩ := Nat.find_spec hsome
  have hbefore : ∀ i, 1 ≤ i → i < Nat.find hsome →
      (outcome i).transient = true ∧ (i : Int) < max 1 (retries + 1) := by
    intro i hi hlt
    have hnot := Nat.find_min hsome hlt
    rw [not_and, not_or] at hnot
    obtain ⟨htransient, hless⟩ := hnot hi
    exact ⟨by simpa using htransient, by omega⟩
  refine ⟨Nat.find hsome, hpos, hbefore, hlast.imp_right (fun hmax => ?_)⟩
  by_cases hone : Nat.find hsome = 1
  · omega
  · have hprev := (hbefore (Nat.find hsome - 1) (by omega) (by omega)).2
    omega

/-! ## The loop, attempt by attempt -/

section Run

variable {base_backoff : ℚ} {meets : Meets α} {channel : Nat → Channel} {timeout : ℚ}
  {retries : Int}

theorem circomBackoff_ok {attempt : Nat} (h : attempt - 1 < 1024) :
    circomBackoff base_backoff attempt = .ok (min (base_backoff * 2 ^ (attempt - 1)) 2) := by
  rw [circomBackoff, floatPow2, if_pos h]
  rfl

/-- The two orders of the cap are one. -/
theorem privateBackoff_eq (base_backoff : ℚ) (attempt : Nat) :
    privateBackoff base_backoff attempt = circomBackoff base_backoff attempt := by
  unfold privateBackoff circomBackoff
  cases floatPow2 (attempt - 1) <;> rfl

/-- The outcome of each attempt. -/
def outcomeOf (meets : Meets α) (timeout : ℚ) (attempt : Nat) : Outcome α :=
  meets.call attempt timeout

theorem acquireStub_ok (hsupply : ∀ i, meets.acquire i = .ok (channel i)) (attempt : Nat) :
    acquireStub meets timeout attempt =
      ([.acquire (channel attempt), .release (channel attempt)],
        outcomeOf meets timeout attempt) := by
  rw [acquireStub, hsupply]
  rfl

/-- An attempt that is not followed by another one. -/
theorem rpcLoop_ends (hsupply : ∀ i, meets.acquire i = .ok (channel i))
    (backoff : Nat → Except PyError ℚ) {attempt : Nat}
    (hend : (outcomeOf meets timeout (attempt + 1)).transient = false ∨
      retries < (attempt + 1 : Int)) :
    rpcLoop backoff meets timeout retries attempt =
      ([.acquire (channel (attempt + 1)), .release (channel (attempt + 1))],
        outcomeOf meets timeout (attempt + 1)) := by
  have hstop : ¬((attempt + 1 : Int) ≤ retries ∧
      (outcomeOf meets timeout (attempt + 1)).transient = true) := by
    rintro ⟨hle, htransient⟩
    rcases hend with hend | hend
    · rw [htransient] at hend
      cases hend
    · omega
  rw [rpcLoop, acquireStub_ok hsupply]
  dsimp only
  rw [dif_neg hstop]

/-- An attempt that is followed by another one. -/
theorem rpcLoop_goes_on (hsupply : ∀ i, meets.acquire i = .ok (channel i))
    {attempt : Nat} (hfloat : attempt < 1024) (hle : (attempt + 1 : Int) ≤ retries)
    (htransient : (outcomeOf meets timeout (attempt + 1)).transient = true) :
    rpcLoop (circomBackoff base_backoff) meets timeout retries attempt =
      ([.acquire (channel (attempt + 1)), .release (channel (attempt + 1)),
          .sleep (min (base_backoff * 2 ^ attempt) 2)] ++
        (rpcLoop (circomBackoff base_backoff) meets timeout retries (attempt + 1)).1,
        (rpcLoop (circomBackoff base_backoff) meets timeout retries (attempt + 1)).2) := by
  rw [rpcLoop, acquireStub_ok hsupply]
  dsimp only
  rw [dif_pos ⟨hle, htransient⟩, circomBackoff_ok (by omega)]
  rfl

/-- The wait after attempt 1025 is not computed. -/
theorem rpcLoop_overflows (hsupply : ∀ i, meets.acquire i = .ok (channel i))
    {attempt : Nat} (hfloat : 1024 ≤ attempt) (hle : (attempt + 1 : Int) ≤ retries)
    (htransient : (outcomeOf meets timeout (attempt + 1)).transient = true) :
    rpcLoop (circomBackoff base_backoff) meets timeout retries attempt =
      ([.acquire (channel (attempt + 1)), .release (channel (attempt + 1))],
        .raised (.other "OverflowError")) := by
  have hlarge : circomBackoff base_backoff (attempt + 1) = .error (.other "OverflowError") := by
    rw [circomBackoff, floatPow2, if_neg (by omega)]
    rfl
  rw [rpcLoop, acquireStub_ok hsupply]
  dsimp only
  rw [dif_pos ⟨hle, htransient⟩, hlarge]

/-- **A stretch of transient failures**, each followed by another attempt. -/
theorem rpcLoop_retried (hsupply : ∀ i, meets.acquire i = .ok (channel i)) {n : Nat}
    (hfloat : n ≤ 1024) (htransient : ∀ i, 1 ≤ i → i ≤ n →
      (outcomeOf meets timeout i).transient = true ∧ (i : Int) ≤ retries) :
    rpcLoop (circomBackoff base_backoff) meets timeout retries 0 =
      (retriedEvents base_backoff channel n ++
        (rpcLoop (circomBackoff base_backoff) meets timeout retries n).1,
        (rpcLoop (circomBackoff base_backoff) meets timeout retries n).2) := by
  induction n with
  | zero => rfl
  | succ n ih =>
      obtain ⟨hlast, hle⟩ := htransient (n + 1) (by omega) (by omega)
      have hallowed : (n + 1 : Int) ≤ retries := by omega
      have hgo : rpcLoop (circomBackoff base_backoff) meets timeout retries n = _ :=
        rpcLoop_goes_on hsupply (by omega) hallowed hlast
      rw [ih (by omega) (fun i hi hin => htransient i hi (by omega)), hgo, retriedEvents,
        List.append_assoc]

theorem length_retriedEvents (base_backoff : ℚ) (channel : Nat → Channel) (n : Nat) :
    (retriedEvents base_backoff channel n).length = 3 * n := by
  induction n with
  | zero => rfl
  | succ n ih =>
      rw [retriedEvents, List.length_append, ih]
      show 3 * n + 3 = 3 * (n + 1)
      omega

/-- Every channel that was taken is given back as often. -/
theorem attemptEvents_balanced (base_backoff : ℚ) (channel : Nat → Channel) (k : Nat)
    (c : Channel) :
    (attemptEvents base_backoff channel k).count (.acquire c) =
      (attemptEvents base_backoff channel k).count (.release c) := by
  have hattempt : ∀ d : Channel, ([.acquire d, .release d] : List RpcEvent).count (.acquire c) =
      ([.acquire d, .release d] : List RpcEvent).count (.release c) := by
    intro d
    by_cases hd : d = c <;> simp [hd]
  have hturn : ∀ (d : Channel) (seconds : ℚ),
      ([.acquire d, .release d, .sleep seconds] : List RpcEvent).count (.acquire c) =
        ([.acquire d, .release d, .sleep seconds] : List RpcEvent).count (.release c) := by
    intro d seconds
    by_cases hd : d = c <;> simp [hd]
  have hretried : ∀ n, (retriedEvents base_backoff channel n).count (.acquire c) =
      (retriedEvents base_backoff channel n).count (.release c) := by
    intro n
    induction n with
    | zero => rfl
    | succ n ih => rw [retriedEvents, List.count_append, List.count_append, ih, hturn]
  rw [attemptEvents, List.count_append, List.count_append, hretried, hattempt]

end Run

/-! ## The allowed attempts -/

/-- `_rpc` ends with attempt `k`, whose value it returns or whose error it raises,
after the waits in between; every channel was given back as often as it was taken;
and the three copies do the same. -/
def AttemptsRight (self : Settings) (meets : Meets α) (timeout : Option ℚ)
    (retries : Option Int) (channel : Nat → Channel) : Prop :=
  (∃ k, LastAttempt (outcomeOf meets (timeout.getD self.rpc_timeout_sec))
      (retries.getD self.max_retries) k ∧
    circomRpc self meets timeout retries =
      (attemptEvents self.base_backoff channel k,
        outcomeOf meets (timeout.getD self.rpc_timeout_sec) k)) ∧
  (∀ c, (circomRpc self meets timeout retries).1.count (.acquire c) =
    (circomRpc self meets timeout retries).1.count (.release c)) ∧
  gnarkRpc self meets timeout retries = circomRpc self meets timeout retries ∧
  privateRpc self meets timeout retries = circomRpc self meets timeout retries

theorem copies_agree (self : Settings) (meets : Meets α) (timeout : Option ℚ)
    (retries : Option Int) :
    gnarkRpc self meets timeout retries = circomRpc self meets timeout retries ∧
      privateRpc self meets timeout retries = circomRpc self meets timeout retries := by
  have hbackoff : privateBackoff self.base_backoff = circomBackoff self.base_backoff :=
    funext (privateBackoff_eq self.base_backoff)
  rw [gnarkRpc, privateRpc, circomRpc, hbackoff]
  exact ⟨rfl, rfl⟩

section Attempts

variable {base_backoff timeout : ℚ} {meets : Meets α} {channel : Nat → Channel}
  {retries : Int} {k : Nat}

/-- Up to 1025 attempts the loop makes exactly those it should. -/
theorem rpcLoop_eq (hsupply : ∀ i, meets.acquire i = .ok (channel i))
    (hk : LastAttempt (outcomeOf meets timeout) retries k) (hle : k ≤ 1025) :
    rpcLoop (circomBackoff base_backoff) meets timeout retries 0 =
      (attemptEvents base_backoff channel k, outcomeOf meets timeout k) := by
  have hpos := hk.pos
  have hretried : ∀ i, 1 ≤ i → i ≤ k - 1 →
      (outcomeOf meets timeout i).transient = true ∧ (i : Int) ≤ retries := by
    intro i hi hik
    obtain ⟨htransient, hless⟩ := hk.before i hi (by omega)
    exact ⟨htransient, by omega⟩
  obtain ⟨n, rfl⟩ : ∃ n, k = n + 1 := ⟨k - 1, by omega⟩
  have hend : (outcomeOf meets timeout (n + 1)).transient = false ∨ retries < (n + 1 : Int) :=
    hk.last.imp_right (fun hmax => by omega)
  rw [rpcLoop_retried hsupply (by omega) hretried, Nat.add_sub_cancel,
    rpcLoop_ends hsupply (circomBackoff base_backoff) hend, attemptEvents, Nat.add_sub_cancel]

/-- Where it should make more, it stops with attempt 1025 and an error of its own. -/
theorem rpcLoop_eq_overflow (hsupply : ∀ i, meets.acquire i = .ok (channel i))
    (hk : LastAttempt (outcomeOf meets timeout) retries k) (hlt : 1025 < k) :
    rpcLoop (circomBackoff base_backoff) meets timeout retries 0 =
      (attemptEvents base_backoff channel 1025, .raised (.other "OverflowError")) := by
  have hretried : ∀ i, 1 ≤ i → i ≤ 1025 →
      (outcomeOf meets timeout i).transient = true ∧ (i : Int) ≤ retries := by
    intro i hi hik
    obtain ⟨htransient, hless⟩ := hk.before i hi (by omega)
    exact ⟨htransient, by omega⟩
  obtain ⟨htransient, hallowed⟩ := hretried 1025 (by omega) (by omega)
  have hlast : rpcLoop (circomBackoff base_backoff) meets timeout retries 1024 = _ :=
    rpcLoop_overflows hsupply (by omega) hallowed htransient
  rw [rpcLoop_retried hsupply (Nat.le_refl 1024)
    (fun i hi hin => hretried i hi (by omega)), hlast, attemptEvents]

/-- The attempt that should be the last is within the first 1025, unless these all
fail transiently and more are allowed. -/
theorem LastAttempt.le_iff (hk : LastAttempt (outcomeOf meets timeout) retries k) :
    k ≤ 1025 ↔ ¬(1025 ≤ retries ∧
      ∀ i, 1 ≤ i → i ≤ 1025 → (outcomeOf meets timeout i).transient = true) := by
  constructor
  · rintro hle ⟨hretries, htransient⟩
    rcases hk.last with hend | hmax
    · rw [htransient k hk.pos hle] at hend
      cases hend
    · omega
  · intro hnot
    by_contra hlt
    apply hnot
    have hlast := (hk.before 1025 (by omega) (by omega)).2
    refine ⟨by omega, ?_⟩
    intro i hi hle
    exact (hk.before i hi (by omega)).1

end Attempts

section Right

variable {meets : Meets α} {channel : Nat → Channel} {self : Settings} {timeout : Option ℚ}
  {retries : Option Int} {k : Nat}

/-- A loop that stops short does not make the allowed attempts. -/
theorem not_attemptsRight (hsupply : ∀ i, meets.acquire i = .ok (channel i))
    (hk : LastAttempt (outcomeOf meets (timeout.getD self.rpc_timeout_sec))
      (retries.getD self.max_retries) k) (hlt : 1025 < k) :
    circomRpc self meets timeout retries =
        (attemptEvents self.base_backoff channel 1025, .raised (.other "OverflowError")) ∧
      ¬AttemptsRight self meets timeout retries channel := by
  have hrun : circomRpc self meets timeout retries = _ := rpcLoop_eq_overflow hsupply hk hlt
  refine ⟨hrun, ?_⟩
  rintro ⟨⟨k', hk', hright⟩, -⟩
  rw [hk'.unique hk] at hright
  -- the two runs differ in length
  have hlength := congrArg (fun r => r.1.length) (hrun.symm.trans hright)
  simp only [attemptEvents, List.length_append, length_retriedEvents, List.length_cons,
    List.length_nil] at hlength
  omega

end Right

/-- **When the loop makes exactly the allowed attempts**: unless more than 1025 are
allowed and the first 1025 all fail transiently. -/
theorem attemptsRight_iff {meets : Meets α} {channel : Nat → Channel}
    (hsupply : ∀ i, meets.acquire i = .ok (channel i)) (self : Settings) (timeout : Option ℚ)
    (retries : Option Int) :
    AttemptsRight self meets timeout retries channel ↔
      ¬(1025 ≤ retries.getD self.max_retries ∧ ∀ i, 1 ≤ i → i ≤ 1025 →
        (meets.call i (timeout.getD self.rpc_timeout_sec)).transient = true) := by
  obtain ⟨k, hk⟩ := LastAttempt.exists (outcomeOf meets (timeout.getD self.rpc_timeout_sec))
    (retries.getD self.max_retries)
  refine Iff.trans ?_ hk.le_iff
  constructor
  · intro hright
    by_contra hgt
    exact (not_attemptsRight hsupply hk (by omega)).2 hright
  · intro hle
    have hrun : circomRpc self meets timeout retries = _ := rpcLoop_eq hsupply hk hle
    refine ⟨⟨k, hk, hrun⟩, ?_, copies_agree self meets timeout retries⟩
    intro c
    rw [hrun]
    exact attemptEvents_balanced self.base_backoff channel k c

end Loop

/-! ## A prover that is away -/

/-- The pool has one channel, and the prover does not answer for `n` attempts. -/
def awayFor (n : Nat) : Meets Unit where
  acquire := fun _ => .ok 0
  call := fun attempt _ =>
    if attempt ≤ n then .rpcError .UNAVAILABLE (some "connection refused") else .value ()

/-- The settings that a client has by default. -/
def defaults : Settings := ⟨30, 2, 15 / 100⟩

theorem awayFor_lastAttempt {n : Nat} {retries : Int} (timeout : ℚ) (h : n ≤ retries) :
    LastAttempt (outcomeOf (awayFor n) timeout) retries (n + 1) := by
  refine ⟨by omega, ?_, Or.inl ?_⟩
  · intro i hi hlt
    have hle : i ≤ n := by omega
    refine ⟨?_, by omega⟩
    simp only [outcomeOf, awayFor, if_pos hle]
    rfl
  · have hgt : ¬n + 1 ≤ n := by omega
    simp only [outcomeOf, awayFor, if_neg hgt]
    rfl

/-- The third attempt succeeds. -/
theorem awayFor_two : AttemptsRight defaults (awayFor 2) none none (fun _ => 0) := by
  refine (attemptsRight_iff (fun _ => rfl) defaults none none).2 ?_
  rintro ⟨hretries, -⟩
  exact absurd hretries (by decide)

/-- **Two thousand retries are not made**: the prover is back at attempt 1501, and
the loop has failed after attempt 1025. -/
theorem awayFor_long :
    circomRpc defaults (awayFor 1500) none (some 2000) =
        (attemptEvents defaults.base_backoff (fun _ => 0) 1025,
          .raised (.other "OverflowError")) ∧
      ¬AttemptsRight defaults (awayFor 1500) none (some 2000) (fun _ => 0) := by
  have hk : LastAttempt (outcomeOf (awayFor 1500) (none.getD defaults.rpc_timeout_sec))
      ((some 2000).getD defaults.max_retries) (1500 + 1) :=
    awayFor_lastAttempt _ (by decide)
  exact not_attemptsRight (fun _ => rfl) hk (by omega)

end ProverNetwork.Ports.ProverRpc
