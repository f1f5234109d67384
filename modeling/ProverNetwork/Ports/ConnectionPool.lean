import ProverNetwork.Verified.AsyncQueue
import ProverNetwork.Verified.Dict

/-!
# The channel pool of a prover client

`ConnectionPool` creates gRPC channels up to a limit, hands them out and takes
them back through a queue.  The circom, gnark and private clients have a copy
each; the copies differ in the stub that goes with a channel and in names.

A channel is named by the number of channels created before it, and stands for
the pair of the channel and its stub.  Every method runs to its end or to the
`await` of the queue without another task in between: `put` on an unbounded
queue does not suspend.

## Main results

* `init_spec` — the warmed-up pool.
* `acquires` — what a call of `acquire` can do.
-/

namespace ProverNetwork.Ports

open ProverNetwork.Verified

/-- The number of channels that were created before it. -/
abbrev Channel := Nat

/-- The pool, with the calls of `acquire` that wait in its queue. -/
structure ConnectionPool (ι : Type*) where
  address : String
  max_connections : Int
  verify_tls : Bool
  tls_certfile : String
  queue : AsyncQueue Channel ι
  created : Nat
  closed : Bool

/-- How a call of `acquire` ends, or that it waits. -/
inductive Acquired
  | closed
  | pair (channel : Channel)
  | failed
  | waits
  deriving DecidableEq

namespace ConnectionPool

variable {ι : Type*}

/-- `_new_channel_and_stub`, `_new_pair` in two of the copies. -/
def newChannelAndStub (p : ConnectionPool ι) : Channel × ConnectionPool ι :=
  (p.created, { p with created := p.created + 1 })

/-- The warm-up loop of the constructor. -/
def warmup : Nat → ConnectionPool ι → ConnectionPool ι
  | 0, p => p
  | n + 1, p =>
      let (channel, p) := p.newChannelAndStub
      warmup n { p with queue := p.queue.putNowait channel }

/-- `__init__`. -/
def init (address : String) (max_connections initial_size : Int) (verify_tls : Bool)
    (tls_certfile : String) : ConnectionPool ι :=
  warmup (max 0 (min initial_size max_connections)).toNat
    { address := address
      max_connections := max_connections
      verify_tls := verify_tls
      tls_certfile := tls_certfile
      queue := AsyncQueue.empty
      created := 0
      closed := false }

/-- `acquire`, up to its end or to the `await` of the queue; `opens` tells
whether a channel can be created. -/
def acquire (p : ConnectionPool ι) (b : ι) (opens : Bool) : Acquired × ConnectionPool ι :=
  if p.closed then (.closed, p)
  else
    match p.queue.getNowait with
    | some (channel, queue) => (.pair channel, { p with queue := queue })
    | none =>
        if (p.created : Int) < p.max_connections then
          if opens then
            let (channel, p) := p.newChannelAndStub
            (.pair channel, p)
          else (.failed, p)
        else (.waits, { p with queue := p.queue.suspend b })

/-- `release`; `true` where the channel is closed instead of put back. -/
def release (p : ConnectionPool ι) (channel : Channel) : Bool × ConnectionPool ι :=
  if p.closed then (true, p)
  else (false, { p with queue := p.queue.putNowait channel })

/-- `close`, with the channels it closes. -/
def close (p : ConnectionPool ι) : List Channel × ConnectionPool ι :=
  let (closing, queue) := p.queue.drain
  (closing, { p with closed := true, queue := queue })

/-! ## Outcomes -/

theorem warmup_spec (n : Nat) (p : ConnectionPool ι) (hwaiting : p.queue.waiting = []) :
    (warmup n p).queue.items = p.queue.items ++ List.range' p.created n ∧
      (warmup n p).queue.waiting = [] ∧ (warmup n p).created = p.created + n ∧
      (warmup n p).closed = p.closed ∧ (warmup n p).max_connections = p.max_connections ∧
      (warmup n p).address = p.address ∧ (warmup n p).verify_tls = p.verify_tls ∧
      (warmup n p).tls_certfile = p.tls_certfile := by
  induction n generalizing p with
  | zero => simp [warmup, hwaiting]
  | succ n ih =>
      have hput : (p.queue.putNowait p.created).waiting = [] := by
        have hperm := p.queue.waiting_putNowait p.created
        rw [hwaiting] at hperm
        exact hperm.eq_nil
      obtain ⟨hitems, hwait, hcreated, hclosed, hmax, haddress, htls, hcert⟩ :=
        ih { p with queue := p.queue.putNowait p.created, created := p.created + 1 } hput
      refine ⟨?_, hwait, ?_, hclosed, hmax, haddress, htls, hcert⟩
      · rw [warmup, newChannelAndStub]
        dsimp only
        rw [hitems, AsyncQueue.items_putNowait, List.append_assoc, List.range'_succ]
        rfl
      · rw [warmup, newChannelAndStub]
        dsimp only
        rw [hcreated]
        dsimp only
        omega

/-- The warmed-up pool of size `size`. -/
structure Warm (p : ConnectionPool ι) (size : Int) : Prop where
  items : p.queue.items = List.range p.created
  waiting : p.queue.waiting = []
  max_connections : p.max_connections = size
  created : (p.created : Int) ≤ max 0 size
  closed : p.closed = false

theorem init_spec (address : String) (max_connections initial_size : Int) (verify_tls : Bool)
    (tls_certfile : String) :
    Warm (init (ι := ι) address max_connections initial_size verify_tls tls_certfile)
      max_connections := by
  obtain ⟨hitems, hwaiting, hcreated, hclosed, hmax, -⟩ := warmup_spec
    (max 0 (min initial_size max_connections)).toNat
    (⟨address, max_connections, verify_tls, tls_certfile, AsyncQueue.empty, 0, false⟩ :
      ConnectionPool ι) rfl
  refine ⟨?_, hwaiting, hmax, ?_, hclosed⟩
  · rw [init, hitems, hcreated, List.range_eq_range']
    simp [AsyncQueue.empty]
  · rw [init, hcreated]
    dsimp only
    omega

/-- The constructor keeps the settings. -/
theorem init_settings (address : String) (max_connections initial_size : Int)
    (verify_tls : Bool) (tls_certfile : String) :
    (init (ι := ι) address max_connections initial_size verify_tls tls_certfile).address =
        address ∧
      (init (ι := ι) address max_connections initial_size verify_tls tls_certfile).verify_tls =
        verify_tls ∧
      (init (ι := ι) address max_connections initial_size verify_tls tls_certfile).tls_certfile =
        tls_certfile := by
  obtain ⟨-, -, -, -, -, haddress, htls, hcert⟩ := warmup_spec
    (max 0 (min initial_size max_connections)).toNat
    (⟨address, max_connections, verify_tls, tls_certfile, AsyncQueue.empty, 0, false⟩ :
      ConnectionPool ι) rfl
  exact ⟨haddress, htls, hcert⟩

/-- What a call of `acquire` can do. -/
inductive Acquires (p : ConnectionPool ι) (b : ι) : Acquired → ConnectionPool ι → Prop
  | closed : p.closed = true → Acquires p b .closed p
  | failed : p.closed = false → Acquires p b .failed p
  | idle (channel : Channel) (queue : AsyncQueue Channel ι) : p.closed = false →
      p.queue.items = channel :: queue.items → queue.waiting = p.queue.waiting →
      Acquires p b (.pair channel) { p with queue := queue }
  | created : p.closed = false → (p.created : Int) < p.max_connections →
      Acquires p b (.pair p.created) { p with created := p.created + 1 }
  | waits : p.closed = false → p.queue.items = [] → p.max_connections ≤ p.created →
      Acquires p b .waits { p with queue := p.queue.suspend b }

theorem acquires (p : ConnectionPool ι) (b : ι) (opens : Bool) :
    Acquires p b (p.acquire b opens).1 (p.acquire b opens).2 := by
  unfold acquire
  by_cases hclosed : p.closed = true
  · rw [if_pos hclosed]
    exact .closed hclosed
  · rw [if_neg hclosed]
    rw [Bool.not_eq_true] at hclosed
    cases hget : p.queue.getNowait with
    | some r =>
        obtain ⟨channel, queue⟩ := r
        obtain ⟨hitems, hgetters, hwoken⟩ := AsyncQueue.getNowait_eq_some hget
        refine .idle channel queue hclosed hitems ?_
        rw [AsyncQueue.waiting, hgetters, hwoken]
        rfl
    | none =>
        dsimp only
        split
        next hroom =>
          cases opens with
          | false => exact .failed hclosed
          | true => exact .created hclosed hroom
        next hfull =>
          exact .waits hclosed (AsyncQueue.getNowait_eq_none.1 hget) (Int.not_lt.1 hfull)

end ConnectionPool

end ProverNetwork.Ports
