import ProverNetwork.Ports.ConnectionPoolPlaces
import ProverNetwork.Ports.ProverRpc
import ProverNetwork.Verified.Component

/-!
# Calls that share a client

Any number of `_rpc` calls are under way on one client.  Each of them makes its
attempts with channels of the client's pool: it acquires one, waits for it where
there is none, calls the prover, gives the channel back, and sleeps before the
next attempt.  Calls arrive, are cancelled and find the pool closed at any
moment; the event loop takes one of them from `await` to `await` at a time.

What a call did, and how its attempts ended, is kept with it.  No step reads
either.

## Main results

* `component_pool` — the calls move the pool along a run of its own.
* `Fits.step` — the pool and the calls agree on who holds and waits for what.
* `calls_refine` — a call that ended did what the retry loop does by itself.
-/

namespace ProverNetwork.Ports.ProverCalls

open ProverNetwork.Verified
open ProverNetwork.Ports
open ProverNetwork.Ports.ConnectionPoolRun
open ProverNetwork.Ports.ProverRpc

deriving instance DecidableEq for Outcome

/-- How an attempt ended: `acquire` raised, or the call on a channel ended. -/
abbrev Met (α : Type) := Except PyError (Channel × Outcome α)

/-- Where a call is: before an attempt, which it may sleep for; suspended in
`acquire`; with the prover; over. -/
inductive Phase (α : Type)
  | between
  | acquiring
  | calling (channel : Channel)
  | ended (result : Outcome α)
  | cancelled
  deriving DecidableEq

/-- A call of `_rpc`: its arguments, the variable `attempt`, what it did, and how
its attempts ended. -/
structure Call (α : Type) where
  timeout : Option ℚ
  retries : Option Int
  attempt : Nat
  phase : Phase α
  events : List RpcEvent
  met : List (Met α)

/-- The pool of the client, whose borrowers are the calls by their numbers. -/
structure World (α : Type) where
  pool : ConnectionPoolRun.World Nat
  calls : List (Call α)

/-- `refusal` is what the creation of a channel would raise. -/
inductive Label (α : Type)
  | rpc (timeout : Option ℚ) (retries : Option Int)
  | attempt (i : Nat) (refusal : Option PyError)
  | resume (i : Nat)
  | respond (i : Nat) (outcome : Outcome α)
  | cancel (i : Nat)
  | close

variable {α : Type}

/-- A client that was just made. -/
def World.init (address : String) (max_connections initial_size : Int) (verify_tls : Bool)
    (tls_certfile : String) : World α :=
  ⟨.init address max_connections initial_size verify_tls tls_certfile, []⟩

/-! ## One call -/

namespace Call

/-- A call that has done nothing. -/
def new (timeout : Option ℚ) (retries : Option Int) : Call α :=
  ⟨timeout, retries, 0, .between, [], []⟩

/-- `acquire` has returned the channel. -/
def holds (x : Call α) (channel : Channel) : Call α :=
  { x with phase := .calling channel, events := x.events ++ [.acquire channel] }

/-- `acquire` has raised. -/
def fails (x : Call α) (e : PyError) : Call α :=
  { x with phase := .ended (.raised e), met := x.met ++ [.error e] }

/-- `attempt += 1`, and what follows of the answer of `acquire`. -/
def tries (x : Call α) (refusal : Option PyError) : Acquired → Call α
  | .closed => fails { x with attempt := x.attempt + 1 } (.other "RuntimeError")
  | .failed => fails { x with attempt := x.attempt + 1 } (refusal.getD (.other "RuntimeError"))
  | .pair channel => holds { x with attempt := x.attempt + 1 } channel
  | .waits => { x with attempt := x.attempt + 1, phase := .acquiring }

/-- The queue has resumed the call. -/
def resumed (x : Call α) : Option Channel → Call α
  | some channel => x.holds channel
  | none => x

/-- The channel goes back; the attempt ended with `outcome`. -/
def released (x : Call α) (channel : Channel) (outcome : Outcome α) : Call α :=
  { x with
    events := x.events ++ [.release channel]
    met := x.met ++ [.ok (channel, outcome)] }

def allowed (self : Settings) (x : Call α) : Int := x.retries.getD self.max_retries

/-- What follows the call of the prover. -/
def responds (self : Settings) (x : Call α) (channel : Channel) (outcome : Outcome α) : Call α :=
  let x := x.released channel outcome
  if (x.attempt : Int) ≤ x.allowed self ∧ outcome.transient = true then
    match circomBackoff self.base_backoff x.attempt with
    | .error e => { x with phase := .ended (.raised e) }
    | .ok seconds => { x with phase := .between, events := x.events ++ [.sleep seconds] }
  else { x with phase := .ended outcome }

/-- A cancellation gives back the channel that is held. -/
def cancelled (x : Call α) : Call α :=
  match x.phase with
  | .calling channel => { x with phase := .cancelled, events := x.events ++ [.release channel] }
  | _ => { x with phase := .cancelled }

end Call

/-! ## The calls together -/

section Steps

variable (self : Settings)

/-- What a cancellation does to the pool. -/
def World.withdraw (w : World α) (i : Nat) : Phase α → Option (ConnectionPoolRun.World Nat)
  | .between => some w.pool
  | .acquiring => w.pool.step (.cancel i)
  | .calling _ => w.pool.step (.release i)
  | _ => none

/-- One step of one call, from `await` to `await`. -/
def World.stepOf (w : World α) (i : Nat) (x : Call α) :
    Label α → Option (ConnectionPoolRun.World Nat × Call α)
  | .attempt _ refusal =>
      match x.phase with
      | .between =>
          (w.pool.step (.acquire i refusal.isNone)).map (fun pool =>
            (pool, x.tries refusal (w.pool.pool.acquire i refusal.isNone).1))
      | _ => none
  | .resume _ =>
      match x.phase with
      | .acquiring =>
          (w.pool.step (.resume i)).map (fun pool =>
            (pool, x.resumed (w.pool.pool.queue.resume i).1))
      | _ => none
  | .respond _ outcome =>
      match x.phase with
      | .calling channel =>
          (w.pool.step (.release i)).map (fun pool => (pool, x.responds self channel outcome))
      | _ => none
  | .cancel _ => (w.withdraw i x.phase).map (fun pool => (pool, x.cancelled))
  | _ => none

/-- Whose step it is. -/
def Label.call : Label α → Option Nat
  | .attempt i _ => some i
  | .resume i => some i
  | .respond i _ => some i
  | .cancel i => some i
  | _ => none

/-- One step. -/
def World.step (w : World α) (label : Label α) : Option (World α) :=
  match label.call with
  | some i =>
      w.calls[i]?.bind (fun x =>
        (w.stepOf self i x label).map (fun r => ⟨r.1, w.calls.set i r.2⟩))
  | none =>
      match label with
      | .rpc timeout retries => some { w with calls := w.calls ++ [.new timeout retries] }
      | .close => (w.pool.step .close).map (fun pool => { w with pool := pool })
      | _ => none

end Steps

section Effects

variable {self : Settings}

/-- What a step of a call is made of: a step of the pool, or none, and a change of
the call. -/
inductive Move (self : Settings) (w : World α) (i : Nat) (x : Call α) :
    Label α → ConnectionPoolRun.World Nat → Call α → Prop
  | tried (refusal : Option PyError) (pool : ConnectionPoolRun.World Nat) :
      x.phase = .between → w.pool.step (.acquire i refusal.isNone) = some pool →
      Move self w i x (.attempt i refusal) pool
        (x.tries refusal (w.pool.pool.acquire i refusal.isNone).1)
  | resumed (pool : ConnectionPoolRun.World Nat) :
      x.phase = .acquiring → w.pool.step (.resume i) = some pool →
      Move self w i x (.resume i) pool (x.resumed (w.pool.pool.queue.resume i).1)
  | responded (channel : Channel) (outcome : Outcome α) (pool : ConnectionPoolRun.World Nat) :
      x.phase = .calling channel → w.pool.step (.release i) = some pool →
      Move self w i x (.respond i outcome) pool (x.responds self channel outcome)
  | dropped : x.phase = .between → Move self w i x (.cancel i) w.pool x.cancelled
  | abandoned (pool : ConnectionPoolRun.World Nat) :
      x.phase = .acquiring → w.pool.step (.cancel i) = some pool →
      Move self w i x (.cancel i) pool x.cancelled
  | interrupted (channel : Channel) (pool : ConnectionPoolRun.World Nat) :
      x.phase = .calling channel → w.pool.step (.release i) = some pool →
      Move self w i x (.cancel i) pool x.cancelled

/-- What a single step can do: a call arrives, a call moves, or the pool is
closed. -/
inductive Effect (self : Settings) (w : World α) : Label α → World α → Prop
  | arrived (timeout : Option ℚ) (retries : Option Int) :
      Effect self w (.rpc timeout retries)
        { w with calls := w.calls ++ [.new timeout retries] }
  | moved (i : Nat) (x x' : Call α) (label : Label α) (pool : ConnectionPoolRun.World Nat) :
      w.calls[i]? = some x → Move self w i x label pool x' →
      Effect self w label ⟨pool, w.calls.set i x'⟩
  | closed : Effect self w .close { w with pool := w.pool.closed }

theorem move_of_stepOf {w : World α} {i : Nat} {x x' : Call α} {label : Label α}
    {pool : ConnectionPoolRun.World Nat} (hi : label.call = some i)
    (hstep : w.stepOf self i x label = some (pool, x')) : Move self w i x label pool x' := by
  cases label with
  | rpc timeout retries => cases hi
  | close => cases hi
  | attempt j refusal =>
      cases hi
      cases hphase : x.phase with
      | between =>
          simp only [World.stepOf, hphase] at hstep
          obtain ⟨pool', hpool, heq⟩ := Option.map_eq_some_iff.1 hstep
          cases heq
          exact .tried refusal _ hphase hpool
      | _ => simp [World.stepOf, hphase] at hstep
  | resume j =>
      cases hi
      cases hphase : x.phase with
      | acquiring =>
          simp only [World.stepOf, hphase] at hstep
          obtain ⟨pool', hpool, heq⟩ := Option.map_eq_some_iff.1 hstep
          cases heq
          exact .resumed _ hphase hpool
      | _ => simp [World.stepOf, hphase] at hstep
  | respond j outcome =>
      cases hi
      cases hphase : x.phase with
      | calling channel =>
          simp only [World.stepOf, hphase] at hstep
          obtain ⟨pool', hpool, heq⟩ := Option.map_eq_some_iff.1 hstep
          cases heq
          exact .responded channel outcome _ hphase hpool
      | _ => simp [World.stepOf, hphase] at hstep
  | cancel j =>
      cases hi
      obtain ⟨pool', hpool, heq⟩ := Option.map_eq_some_iff.1 hstep
      cases heq
      cases hphase : x.phase with
      | between =>
          rw [hphase] at hpool
          cases hpool
          exact .dropped hphase
      | acquiring =>
          rw [hphase] at hpool
          exact .abandoned _ hphase hpool
      | calling channel =>
          rw [hphase] at hpool
          exact .interrupted channel _ hphase hpool
      | ended result =>
          rw [hphase] at hpool
          cases hpool
      | cancelled =>
          rw [hphase] at hpool
          cases hpool

/-- **One step.** -/
theorem effect_of_step {w w' : World α} {label : Label α} (hstep : w.step self label = some w') :
    Effect self w label w' := by
  unfold World.step at hstep
  split at hstep
  next i hi =>
    obtain ⟨x, hx, hmap⟩ := Option.bind_eq_some_iff.1 hstep
    obtain ⟨⟨pool, x'⟩, hmove, rfl⟩ := Option.map_eq_some_iff.1 hmap
    exact .moved i x x' label pool hx (move_of_stepOf hi hmove)
  next hi =>
    split at hstep
    next timeout retries =>
      cases hstep
      exact .arrived timeout retries
    next =>
      cases hstep
      exact .closed
    next => cases hstep

/-- A move takes the pool one step, or leaves it alone. -/
theorem Move.pool_step {w : World α} {i : Nat} {x x' : Call α} {label : Label α}
    {pool : ConnectionPoolRun.World Nat} (h : Move self w i x label pool x') :
    pool = w.pool ∨ ∃ l : ConnectionPoolRun.Label Nat, l.borrower = some i ∧
      w.pool.step l = some pool := by
  cases h with
  | tried refusal _ _ hpool => exact Or.inr ⟨_, rfl, hpool⟩
  | resumed _ _ hpool => exact Or.inr ⟨_, rfl, hpool⟩
  | responded channel outcome _ _ hpool => exact Or.inr ⟨_, rfl, hpool⟩
  | dropped _ => exact Or.inl rfl
  | abandoned _ _ hpool => exact Or.inr ⟨_, rfl, hpool⟩
  | interrupted channel _ _ hpool => exact Or.inr ⟨_, rfl, hpool⟩

/-- **The pool is a component of the client.** -/
theorem component_pool :
    Component (World.step self) ConnectionPoolRun.World.step
      (fun w : World α => some w.pool) := by
  intro w label w' pool hstep hpool
  cases hpool
  cases effect_of_step hstep with
  | arrived timeout retries => exact ⟨_, rfl, Or.inl rfl⟩
  | moved i x x' label pool' hx hmove =>
      refine ⟨pool', rfl, ?_⟩
      cases hmove.pool_step with
      | inl hsame => exact Or.inl hsame
      | inr hmoved =>
          obtain ⟨l, -, hl⟩ := hmoved
          exact Or.inr ⟨l, hl⟩
  | closed => exact ⟨_, rfl, Or.inr ⟨.close, rfl⟩⟩

/-! ## The pool and the calls agree -/

/-- Where a phase has the call in the pool. -/
def Phase.place : Phase α → Place
  | .acquiring => .waits
  | .calling channel => .holds channel
  | _ => .free

/-- Where the call with number `i` is in the pool; there may be none. -/
def World.placed (w : World α) (i : Nat) : Place :=
  (w.calls[i]?.map (fun x => x.phase.place)).getD .free

/-- The pool is in a good state, and the calls know what they hold. -/
structure Fits (limit : Int) (w : World α) : Prop where
  pool : PoolInv limit w.pool
  supply : SupplyInv w.pool
  place : ∀ i, w.pool.place i = w.placed i

theorem Fits.init {max_connections : Int} (hmax : 1 ≤ max_connections) (address : String)
    (initial_size : Int) (verify_tls : Bool) (tls_certfile : String) :
    Fits max_connections
      (World.init address max_connections initial_size verify_tls tls_certfile : World α) := by
  have hpool := PoolInv.init (ι := Nat) hmax address initial_size verify_tls tls_certfile
  have hwaiting : (ConnectionPoolRun.World.init (ι := Nat) address max_connections initial_size
      verify_tls tls_certfile).waiting = [] :=
    (ConnectionPool.init_spec address max_connections initial_size verify_tls tls_certfile).waiting
  refine ⟨hpool, .init _ _ _ _ _, fun i => place_eq_free.2 ⟨rfl, fun hi => ?_⟩⟩
  exact absurd (hwaiting ▸ hi) List.not_mem_nil

/-- Where an attempt leaves the call. -/
theorem place_tries (x : Call α) (refusal : Option PyError) (answer : Acquired) :
    (x.tries refusal answer).phase.place = placeOf answer := by
  cases answer <;> rfl

theorem place_responds (x : Call α) (channel : Channel) (outcome : Outcome α) :
    (x.responds self channel outcome).phase.place = .free := by
  unfold Call.responds
  dsimp only
  split
  · split <;> rfl
  · rfl

theorem phase_cancelled (x : Call α) : x.cancelled.phase = .cancelled := by
  unfold Call.cancelled
  split <;> rfl

section Move

variable {limit : Int} {w : World α} {i : Nat} {x x' : Call α} {label : Label α}
  {pool : ConnectionPoolRun.World Nat}

theorem Fits.place_eq (hfits : Fits limit w) (hx : w.calls[i]? = some x) :
    w.pool.place i = x.phase.place := by
  rw [hfits.place, World.placed, hx]
  rfl

/-- A move leaves the call where its new phase has it. -/
theorem Move.place_self (hfits : Fits limit w) (hx : w.calls[i]? = some x)
    (hmove : Move self w i x label pool x') : pool.place i = x'.phase.place := by
  have hplace := hfits.place_eq hx
  cases hmove with
  | tried refusal _ hphase hpool =>
      rw [hphase] at hplace
      simp only [ConnectionPoolRun.World.step] at hpool
      split at hpool
      next => cases hpool
      next =>
        cases hpool
        rw [place_acquired _ hplace, place_tries]
  | resumed _ hphase hpool =>
      rw [hphase] at hplace
      simp only [ConnectionPoolRun.World.step] at hpool
      split at hpool
      next hwoken =>
        cases hpool
        rw [place_resumed hfits.pool hwoken]
        cases (w.pool.pool.queue.resume i).1 with
        | some channel => rfl
        | none =>
            show Place.waits = x.phase.place
            rw [hphase]
            rfl
      next => cases hpool
  | responded channel outcome _ hphase hpool =>
      obtain ⟨c, hheld, rfl⟩ := Option.map_eq_some_iff.1 hpool
      rw [place_released hfits.pool hheld, place_responds]
  | dropped hphase =>
      rw [hplace, hphase, phase_cancelled]
      rfl
  | abandoned _ hphase hpool =>
      simp only [ConnectionPoolRun.World.step] at hpool
      split at hpool
      next hwaiting =>
        cases hpool
        rw [place_cancelled hfits.pool hwaiting, phase_cancelled]
        rfl
      next => cases hpool
  | interrupted channel _ hphase hpool =>
      obtain ⟨c, hheld, rfl⟩ := Option.map_eq_some_iff.1 hpool
      rw [place_released hfits.pool hheld, phase_cancelled]
      rfl

/-- A move leaves the other calls where they are. -/
theorem Move.place_other (hmove : Move self w i x label pool x') {j : Nat} (hj : j ≠ i) :
    pool.place j = w.pool.place j := by
  cases hmove.pool_step with
  | inl hsame => rw [hsame]
  | inr hmoved =>
      obtain ⟨l, hl, hstep⟩ := hmoved
      refine place_of_ne (ConnectionPoolRun.effect_of_step hstep) ?_
      rw [hl]
      exact fun heq => hj (Option.some.inj heq).symm

theorem Move.pool_inv (hfits : Fits limit w) (hmove : Move self w i x label pool x') :
    PoolInv limit pool ∧ SupplyInv pool := by
  cases hmove.pool_step with
  | inl hsame => exact hsame ▸ ⟨hfits.pool, hfits.supply⟩
  | inr hmoved =>
      obtain ⟨l, -, hstep⟩ := hmoved
      exact ⟨hfits.pool.step (ConnectionPoolRun.effect_of_step hstep), hfits.supply.step hstep⟩

end Move

/-- **Step lemma.** -/
theorem Fits.step {limit : Int} {w w' : World α} {label : Label α} (hfits : Fits limit w)
    (hstep : w.step self label = some w') : Fits limit w' := by
  cases effect_of_step hstep with
  | arrived timeout retries =>
      refine ⟨hfits.pool, hfits.supply, fun i => ?_⟩
      rw [hfits.place, World.placed, World.placed, List.getElem?_append]
      split
      next => rfl
      next hlt =>
        have hnone : w.calls[i]? = none := List.getElem?_eq_none (Nat.le_of_not_lt hlt)
        rw [hnone]
        cases i - w.calls.length <;> rfl
  | moved i x x' _ pool hx hmove =>
      obtain ⟨hpool, hsupply⟩ := hmove.pool_inv hfits
      refine ⟨hpool, hsupply, fun j => ?_⟩
      by_cases hj : j = i
      · subst hj
        have hlt := (List.getElem?_eq_some_iff.1 hx).1
        rw [hmove.place_self hfits hx, World.placed, List.getElem?_set_self hlt]
        rfl
      · rw [hmove.place_other hj, hfits.place, World.placed, World.placed,
          List.getElem?_set_ne (Ne.symm hj)]
  | closed =>
      have hclosed : w.pool.step .close = some w.pool.closed := rfl
      refine ⟨hfits.pool.step (ConnectionPoolRun.effect_of_step hclosed),
        hfits.supply.step hclosed, fun i => ?_⟩
      have heff : ConnectionPoolRun.Effect w.pool .close w.pool.closed := .closed
      rw [place_of_ne heff (fun heq => by cases heq)]
      exact hfits.place i

theorem Fits.run {limit : Int} {w w' : World α} {labels : List (Label α)} (hfits : Fits limit w)
    (hrun : run (World.step self) w labels = some w') : Fits limit w' :=
  run_invariant (Fits limit) (fun _ => True) (fun _ _ _ _ hfits hstep => hfits.step hstep)
    (fun _ _ => trivial) hfits hrun

/-! ## What a call does -/

/-- The loop meets, attempt by attempt, what the call met. -/
def Agrees (meets : Meets α) (met : List (Met α)) : Prop :=
  ∀ n, (∀ e, met[n]? = some (.error e) → meets.acquire (n + 1) = .error e) ∧
    ∀ channel outcome, met[n]? = some (.ok (channel, outcome)) →
      meets.acquire (n + 1) = .ok channel ∧ ∀ timeout, meets.call (n + 1) timeout = outcome

/-- The loop of the call, after `n` attempts. -/
def Call.loop (self : Settings) (x : Call α) (meets : Meets α) (n : Nat) :
    List RpcEvent × Outcome α :=
  rpcLoop (circomBackoff self.base_backoff) meets (x.timeout.getD self.rpc_timeout_sec)
    (x.allowed self) n

/-- After its attempts so far the loop has done `events`, and goes on from there. -/
def Call.Follows (self : Settings) (x : Call α) (events : List RpcEvent) : Prop :=
  ∀ meets, Agrees meets x.met →
    x.loop self meets 0 =
      (events ++ (x.loop self meets x.met.length).1, (x.loop self meets x.met.length).2)

/-- The call did what its loop does. -/
def Call.Traced (self : Settings) (x : Call α) : Prop :=
  match x.phase with
  | .between => x.met.length = x.attempt ∧ x.Follows self x.events
  | .acquiring => x.met.length + 1 = x.attempt ∧ x.Follows self x.events
  | .calling channel => x.met.length + 1 = x.attempt ∧
      ∃ before, x.events = before ++ [.acquire channel] ∧ x.Follows self before
  | .ended result => ∀ meets, Agrees meets x.met → x.loop self meets 0 = (x.events, result)
  | .cancelled => True

theorem Agrees.of_append {meets : Meets α} {met : List (Met α)} {m : Met α}
    (h : Agrees meets (met ++ [m])) : Agrees meets met := by
  intro n
  refine ⟨fun e he => (h n).1 e ?_, fun channel outcome ho => (h n).2 channel outcome ?_⟩
  · rw [List.getElem?_append_left (List.getElem?_eq_some_iff.1 he).1, he]
  · rw [List.getElem?_append_left (List.getElem?_eq_some_iff.1 ho).1, ho]

theorem getElem?_append_self {met : List (Met α)} {m : Met α} :
    (met ++ [m])[met.length]? = some m := by
  rw [List.getElem?_append_right (Nat.le_refl _), Nat.sub_self]
  rfl

theorem Agrees.error {meets : Meets α} {met : List (Met α)} {e : PyError}
    (h : Agrees meets (met ++ [.error e])) : meets.acquire (met.length + 1) = .error e :=
  (h met.length).1 e getElem?_append_self

theorem Agrees.ok {meets : Meets α} {met : List (Met α)} {channel : Channel}
    {outcome : Outcome α} (h : Agrees meets (met ++ [.ok (channel, outcome)])) (timeout : ℚ) :
    acquireStub meets timeout (met.length + 1) =
      ([.acquire channel, .release channel], outcome) := by
  obtain ⟨hacquire, hcall⟩ := (h met.length).2 channel outcome getElem?_append_self
  rw [acquireStub, hacquire]
  dsimp only
  rw [hcall]

/-- An attempt whose `acquire` raises is the last. -/
theorem rpcLoop_raised {meets : Meets α} {backoff : Nat → Except PyError ℚ} {timeout : ℚ}
    {retries : Int} {n : Nat} {e : PyError} (h : meets.acquire (n + 1) = .error e) :
    rpcLoop backoff meets timeout retries n = ([], .raised e) := by
  have hstop : ¬((n + 1 : Int) ≤ retries ∧ (Outcome.raised e : Outcome α).transient = true) :=
    fun hcond => by cases hcond.2
  rw [rpcLoop, acquireStub, h]
  dsimp only
  rw [dif_neg hstop]

theorem Call.Follows.fails {x : Call α} (hfollows : x.Follows self x.events) (e : PyError) :
    (x.fails e).Traced self := by
  show ∀ meets, Agrees meets (x.met ++ [.error e]) → _
  intro meets hagrees
  have hloop := hfollows meets hagrees.of_append
  have hlast : x.loop self meets x.met.length = ([], .raised e) := rpcLoop_raised hagrees.error
  rw [hlast, List.append_nil] at hloop
  exact hloop

theorem traced_tries {x : Call α} (hphase : x.phase = .between) (hx : x.Traced self)
    (refusal : Option PyError) (answer : Acquired) : (x.tries refusal answer).Traced self := by
  unfold Call.Traced at hx
  rw [hphase] at hx
  obtain ⟨hlength, hfollows⟩ := hx
  have hnext : x.met.length + 1 = x.attempt + 1 := by rw [hlength]
  cases answer with
  | closed => exact Call.Follows.fails hfollows _
  | failed => exact Call.Follows.fails hfollows _
  | pair channel => exact ⟨hnext, x.events, rfl, hfollows⟩
  | waits => exact ⟨hnext, hfollows⟩

theorem traced_resumed {x : Call α} (hphase : x.phase = .acquiring) (hx : x.Traced self)
    (answer : Option Channel) : (x.resumed answer).Traced self := by
  cases answer with
  | none => exact hx
  | some channel =>
      unfold Call.Traced at hx
      rw [hphase] at hx
      exact ⟨hx.1, x.events, rfl, hx.2⟩

/-- The end of an attempt, and what the loop makes of it. -/
theorem traced_responds {x : Call α} {channel : Channel} (hphase : x.phase = .calling channel)
    (hx : x.Traced self) (outcome : Outcome α) :
    (x.responds self channel outcome).Traced self := by
  unfold Call.Traced at hx
  rw [hphase] at hx
  obtain ⟨hlength, before, hevents, hfollows⟩ := hx
  have hattempt : ((x.met.length : Int) + 1) = x.attempt := by omega
  have hboth : x.events ++ [.release channel] = before ++ [.acquire channel, .release channel] := by
    rw [hevents, List.append_assoc]
    rfl
  unfold Call.responds Call.released
  dsimp only
  split
  next hagain =>
    cases hbackoff : circomBackoff self.base_backoff x.attempt with
    | error e =>
        dsimp only
        show ∀ meets, Agrees meets (x.met ++ [.ok (channel, outcome)]) → _
        intro meets hagrees
        have hloop := hfollows meets hagrees.of_append
        have hlast : x.loop self meets x.met.length =
            ([.acquire channel, .release channel], .raised e) := by
          unfold Call.loop
          rw [rpcLoop, hagrees.ok]
          dsimp only
          rw [dif_pos ⟨hattempt ▸ hagain.1, hagain.2⟩, hlength, hbackoff]
        rw [hlast] at hloop
        rw [hboth]
        exact hloop
    | ok seconds =>
        dsimp only
        refine ⟨by simpa using hlength, ?_⟩
        intro meets hagrees
        have hloop := hfollows meets hagrees.of_append
        have hgo : x.loop self meets x.met.length =
            ([.acquire channel, .release channel] ++
                .sleep seconds :: (x.loop self meets (x.met.length + 1)).1,
              (x.loop self meets (x.met.length + 1)).2) := by
          unfold Call.loop
          rw [rpcLoop, hagrees.ok]
          dsimp only
          rw [dif_pos ⟨hattempt ▸ hagain.1, hagain.2⟩, hlength, hbackoff]
        rw [hgo] at hloop
        dsimp only
        rw [List.length_append, hboth]
        simpa [Call.loop, Call.allowed] using hloop
  next hstop =>
    show ∀ meets, Agrees meets (x.met ++ [.ok (channel, outcome)]) → _
    intro meets hagrees
    have hloop := hfollows meets hagrees.of_append
    have hlast : x.loop self meets x.met.length =
        ([.acquire channel, .release channel], outcome) := by
      unfold Call.loop
      rw [rpcLoop, hagrees.ok]
      dsimp only
      rw [dif_neg (fun hcond => hstop ⟨hattempt ▸ hcond.1, hcond.2⟩)]
    rw [hlast] at hloop
    rw [hboth]
    exact hloop

theorem traced_new (timeout : Option ℚ) (retries : Option Int) :
    (Call.new timeout retries : Call α).Traced self :=
  ⟨rfl, fun _ _ => rfl⟩

theorem Move.traced {w : World α} {i : Nat} {x x' : Call α} {label : Label α}
    {pool : ConnectionPoolRun.World Nat} (hmove : Move self w i x label pool x')
    (hx : x.Traced self) : x'.Traced self := by
  have hcancelled : x.cancelled.Traced self := by
    unfold Call.Traced
    rw [phase_cancelled]
    trivial
  cases hmove with
  | tried refusal _ hphase _ => exact traced_tries hphase hx refusal _
  | resumed _ hphase _ => exact traced_resumed hphase hx _
  | responded channel outcome _ hphase _ => exact traced_responds hphase hx outcome
  | dropped _ => exact hcancelled
  | abandoned _ _ _ => exact hcancelled
  | interrupted channel _ _ _ => exact hcancelled

theorem traced_step {w w' : World α} {label : Label α} (hall : ∀ x ∈ w.calls, x.Traced self)
    (hstep : w.step self label = some w') : ∀ x ∈ w'.calls, x.Traced self := by
  cases effect_of_step hstep with
  | arrived timeout retries =>
      intro x hx
      cases List.mem_append.1 hx with
      | inl hold => exact hall x hold
      | inr hnew =>
          rw [List.mem_singleton.1 hnew]
          exact traced_new timeout retries
  | moved i x x' _ pool hx hmove =>
      intro y hy
      cases List.mem_or_eq_of_mem_set hy with
      | inl hold => exact hall y hold
      | inr heq =>
          rw [heq]
          exact hmove.traced (hall x (List.mem_of_getElem? hx))
  | closed => exact hall

theorem run_traced {w w' : World α} {labels : List (Label α)} (hall : ∀ x ∈ w.calls, x.Traced self)
    (hrun : run (World.step self) w labels = some w') : ∀ x ∈ w'.calls, x.Traced self :=
  run_invariant (fun w => ∀ x ∈ w.calls, Call.Traced self x) (fun _ => True)
    (fun _ _ _ _ hall hstep => traced_step hall hstep) (fun _ _ => trivial) hall hrun

/-- What the pool and the prover gave a call, by the number of the attempt. -/
def meetsOf (met : List (Met α)) : Meets α where
  acquire := fun attempt =>
    match met[attempt - 1]? with
    | some (.ok (channel, _)) => .ok channel
    | some (.error e) => .error e
    | none => .error (.other "RuntimeError")
  call := fun attempt _ =>
    match met[attempt - 1]? with
    | some (.ok (_, outcome)) => outcome
    | _ => .raised (.other "RuntimeError")

theorem agrees_meetsOf (met : List (Met α)) : Agrees (meetsOf met) met := by
  intro n
  refine ⟨fun e he => ?_, fun channel outcome ho => ⟨?_, fun timeout => ?_⟩⟩
  · simp only [meetsOf, Nat.add_sub_cancel, he]
  · simp only [meetsOf, Nat.add_sub_cancel, ho]
  · simp only [meetsOf, Nat.add_sub_cancel, ho]

/-- **A call among others does what the retry loop does by itself**, in every run,
given what the pool and the prover gave it; for all three clients. -/
theorem calls_refine {address : String} {max_connections initial_size : Int} {verify_tls : Bool}
    {tls_certfile : String} {labels : List (Label α)} {w : World α}
    (hrun : run (World.step self)
      (World.init address max_connections initial_size verify_tls tls_certfile) labels = some w)
    {x : Call α} (hx : x ∈ w.calls) {result : Outcome α} (hend : x.phase = .ended result) :
    circomRpc self (meetsOf x.met) x.timeout x.retries = (x.events, result) ∧
      gnarkRpc self (meetsOf x.met) x.timeout x.retries = (x.events, result) ∧
      privateRpc self (meetsOf x.met) x.timeout x.retries = (x.events, result) := by
  have htraced := run_traced (fun x hx => absurd hx List.not_mem_nil) hrun x hx
  unfold Call.Traced at htraced
  rw [hend] at htraced
  have hcircom : circomRpc self (meetsOf x.met) x.timeout x.retries = (x.events, result) :=
    htraced (meetsOf x.met) (agrees_meetsOf x.met)
  obtain ⟨hgnark, hprivate⟩ := copies_agree self (meetsOf x.met) x.timeout x.retries
  exact ⟨hcircom, hgnark.trans hcircom, hprivate.trans hcircom⟩

end Effects

/-! ## Two calls and one channel -/

/-- The second call gets the channel while the first sleeps. -/
def smallLabels : List (Label Unit) :=
  [.rpc none none, .rpc none (some 0), .attempt 0 none, .attempt 1 none,
    .respond 0 (.rpcError .UNAVAILABLE none), .resume 1, .attempt 0 none,
    .respond 1 (.value ()), .resume 0, .respond 0 (.value ())]

def smallStart : World Unit := .init "prover:50051" 1 0 false ""

theorem run_small_isSome : (run (World.step defaults) smallStart smallLabels).isSome = true := by
  decide +kernel

def smallEnd : World Unit := (run (World.step defaults) smallStart smallLabels).get run_small_isSome

theorem run_small : run (World.step defaults) smallStart smallLabels = some smallEnd :=
  (Option.some_get run_small_isSome).symm

theorem smallCall_isSome : (smallEnd.calls[0]?).isSome = true := by decide +kernel

def smallCall : Call Unit := (smallEnd.calls[0]?).get smallCall_isSome

theorem smallCall_mem : smallCall ∈ smallEnd.calls :=
  List.mem_of_getElem? (Option.some_get smallCall_isSome).symm

theorem smallCall_ended : smallCall.phase = .ended (.value ()) := by decide +kernel

theorem calls_refine_small :
    circomRpc defaults (meetsOf smallCall.met) none none = (smallCall.events, .value ()) ∧
      gnarkRpc defaults (meetsOf smallCall.met) none none = (smallCall.events, .value ()) ∧
      privateRpc defaults (meetsOf smallCall.met) none none = (smallCall.events, .value ()) := by
  have hargs : smallCall.timeout = none ∧ smallCall.retries = none := by decide +kernel
  have hrefine := calls_refine run_small smallCall_mem smallCall_ended
  rw [hargs.1, hargs.2] at hrefine
  exact hrefine

end ProverNetwork.Ports.ProverCalls
