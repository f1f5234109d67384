import Mathlib.Data.List.Range
import ProverNetwork.Ports.ConnectionPool
import ProverNetwork.Verified.Run

/-!
# Tasks that share a channel pool

Any number of tasks acquire channels, wait for them, are cancelled while they
wait, give back what they hold, and close the pool, in any order.  A borrower
is one use of the pool, from `acquire` to `release`.

A pool that is closed wakes nobody: a call that waits when the pool is closed
waits until it is cancelled.

## Main results

* `channels_conserved` — every channel is in one place, and no more than the limit
  exist.
* `closed_pool_strands_nobody` — where the pool is closed only while nobody
  waits, nobody waits for a closed pool.
* `waiting_iff_not_cancelled` — who waits for a closed pool.
-/

namespace ProverNetwork.Ports.ConnectionPoolRun

open ProverNetwork.Verified
open ProverNetwork.Ports

variable {ι : Type*} [DecidableEq ι]

/-- The pool, the channel each borrower holds, and the channels that were
closed. -/
structure World (ι : Type*) where
  pool : ConnectionPool ι
  held : Dict ι Channel
  shut : List Channel

def World.waiting (w : World ι) : List ι := w.pool.queue.waiting

/-- A new pool. -/
def World.init (address : String) (max_connections initial_size : Int) (verify_tls : Bool)
    (tls_certfile : String) : World ι :=
  ⟨.init address max_connections initial_size verify_tls tls_certfile, Dict.empty, []⟩

inductive Label (ι : Type*)
  | acquire (b : ι) (opens : Bool)
  | resume (b : ι)
  | cancel (b : ι)
  | release (b : ι)
  | close

/-- `acquire` has answered the borrower. -/
def World.answered (w : World ι) (b : ι) : Acquired × ConnectionPool ι → World ι
  | (.pair channel, pool) => { w with pool := pool, held := w.held.set b channel }
  | (_, pool) => { w with pool := pool }

/-- A woken call goes on. -/
def World.resumed (w : World ι) (b : ι) : World ι :=
  match w.pool.queue.resume b with
  | (some channel, queue) =>
      { w with pool := { w.pool with queue := queue }, held := w.held.set b channel }
  | (none, queue) => { w with pool := { w.pool with queue := queue } }

/-- The borrower gives its channel back. -/
def World.released (w : World ι) (b : ι) (channel : Channel) : World ι :=
  match w.pool.release channel with
  | (true, pool) => { pool := pool, held := w.held.del b, shut := w.shut ++ [channel] }
  | (false, pool) => { w with pool := pool, held := w.held.del b }

def World.closed (w : World ι) : World ι :=
  { w with pool := w.pool.close.2, shut := w.shut ++ w.pool.close.1 }

/-- One step.  A borrower acquires while it neither holds a channel nor waits,
goes on when it was woken, is cancelled while it waits, and releases the
channel it holds. -/
def World.step (w : World ι) : Label ι → Option (World ι)
  | .acquire b opens =>
      if (w.held.get? b).isSome ∨ b ∈ w.waiting then none
      else some (w.answered b (w.pool.acquire b opens))
  | .resume b => if b ∈ w.pool.queue.woken then some (w.resumed b) else none
  | .cancel b =>
      if b ∈ w.waiting then
        some { w with pool := { w.pool with queue := w.pool.queue.cancel b } }
      else none
  | .release b => (w.held.get? b).map (w.released b)
  | .close => some w.closed

/-! ## One step -/

/-- What a single step can do, guards included. -/
inductive Effect (w : World ι) : Label ι → World ι → Prop
  | refused (b : ι) (opens : Bool) : Effect w (.acquire b opens) w
  | idle (b : ι) (opens : Bool) (channel : Channel) (queue : AsyncQueue Channel ι) :
      w.pool.closed = false → w.held.get? b = none → b ∉ w.waiting →
      w.pool.queue.items = channel :: queue.items → queue.waiting = w.waiting →
      Effect w (.acquire b opens) { w with
        pool := { w.pool with queue := queue }
        held := w.held.set b channel }
  | created (b : ι) (opens : Bool) :
      w.pool.closed = false → w.held.get? b = none → b ∉ w.waiting →
      (w.pool.created : Int) < w.pool.max_connections →
      Effect w (.acquire b opens) { w with
        pool := { w.pool with created := w.pool.created + 1 }
        held := w.held.set b w.pool.created }
  | waits (b : ι) (opens : Bool) :
      w.pool.closed = false → w.held.get? b = none → b ∉ w.waiting →
      Effect w (.acquire b opens) { w with
        pool := { w.pool with queue := w.pool.queue.suspend b } }
  | resumed (b : ι) (channel : Channel) (queue : AsyncQueue Channel ι) :
      w.pool.queue.items = channel :: queue.items →
      w.waiting.Perm (b :: queue.waiting) →
      Effect w (.resume b) { w with
        pool := { w.pool with queue := queue }
        held := w.held.set b channel }
  | again (b : ι) (queue : AsyncQueue Channel ι) :
      b ∈ w.waiting → queue.items = w.pool.queue.items → queue.waiting.Perm w.waiting →
      Effect w (.resume b) { w with pool := { w.pool with queue := queue } }
  | cancelled (b : ι) (queue : AsyncQueue Channel ι) :
      queue.items = w.pool.queue.items → w.waiting.Perm (b :: queue.waiting) →
      Effect w (.cancel b) { w with pool := { w.pool with queue := queue } }
  | returned (b : ι) (channel : Channel) (queue : AsyncQueue Channel ι) :
      w.pool.closed = false → w.held.get? b = some channel →
      queue.items = w.pool.queue.items ++ [channel] → queue.waiting.Perm w.waiting →
      Effect w (.release b) { w with
        pool := { w.pool with queue := queue }
        held := w.held.del b }
  | shut (b : ι) (channel : Channel) :
      w.pool.closed = true → w.held.get? b = some channel →
      Effect w (.release b) { w with held := w.held.del b, shut := w.shut ++ [channel] }
  | closed : Effect w .close w.closed

theorem effect_acquire {w : World ι} {b : ι} (opens : Bool) (hheld : w.held.get? b = none)
    (hwaiting : b ∉ w.waiting) :
    Effect w (.acquire b opens) (w.answered b (w.pool.acquire b opens)) := by
  have hacquires := w.pool.acquires b opens
  revert hacquires
  generalize w.pool.acquire b opens = r
  obtain ⟨answer, pool⟩ := r
  intro hacquires
  cases hacquires with
  | closed _ => exact .refused b opens
  | failed _ => exact .refused b opens
  | idle channel queue hopen hitems hsame =>
      exact .idle b opens channel queue hopen hheld hwaiting hitems hsame
  | created hopen hroom => exact .created b opens hopen hheld hwaiting hroom
  | waits hopen _ _ => exact .waits b opens hopen hheld hwaiting

theorem effect_resume {w : World ι} {b : ι} (hwoken : b ∈ w.pool.queue.woken) :
    Effect w (.resume b) (w.resumed b) := by
  unfold World.resumed
  obtain ⟨channel, queue, heq, hitems, hperm⟩ | ⟨queue, heq, hempty, hitems, hperm⟩ :=
    AsyncQueue.resume_cases hwoken
  · rw [heq]
    exact .resumed b channel queue hitems hperm
  · rw [heq]
    exact .again b queue (List.mem_append_right _ hwoken) (hitems.trans hempty.symm) hperm

theorem effect_release {w : World ι} {b : ι} {channel : Channel}
    (hheld : w.held.get? b = some channel) :
    Effect w (.release b) (w.released b channel) := by
  unfold World.released ConnectionPool.release
  by_cases hclosed : w.pool.closed = true
  · rw [if_pos hclosed]
    exact .shut b channel hclosed hheld
  · rw [if_neg hclosed]
    exact .returned b channel _ (by simpa using hclosed) hheld
      (AsyncQueue.items_putNowait _ _) (AsyncQueue.waiting_putNowait _ _)

/-- **One step.**  Every enabled step is one of the effects. -/
theorem effect_of_step {w w' : World ι} {label : Label ι} (hstep : w.step label = some w') :
    Effect w label w' := by
  cases label with
  | acquire b opens =>
      simp only [World.step] at hstep
      split at hstep
      next => cases hstep
      next hfree =>
        cases hstep
        obtain ⟨hheld, hwaiting⟩ := not_or.1 hfree
        exact effect_acquire opens (by simpa using hheld) hwaiting
  | resume b =>
      simp only [World.step] at hstep
      split at hstep
      next hwoken =>
        cases hstep
        exact effect_resume hwoken
      next => cases hstep
  | cancel b =>
      simp only [World.step] at hstep
      split at hstep
      next hwaiting =>
        cases hstep
        exact .cancelled b _ (AsyncQueue.items_cancel _ b) (AsyncQueue.waiting_cancel hwaiting)
      next => cases hstep
  | release b =>
      obtain ⟨channel, hheld, rfl⟩ := Option.map_eq_some_iff.1 hstep
      exact effect_release hheld
  | close =>
      cases hstep
      exact .closed

/-- A step keeps the settings of the pool, and only `close` closes it. -/
theorem effect_settings {w w' : World ι} {label : Label ι} (heff : Effect w label w') :
    w'.pool.address = w.pool.address ∧ w'.pool.max_connections = w.pool.max_connections ∧
      w'.pool.verify_tls = w.pool.verify_tls ∧ w'.pool.tls_certfile = w.pool.tls_certfile ∧
      (w'.pool.closed = true → w.pool.closed = true ∨ label = .close) := by
  cases heff with
  | closed => exact ⟨rfl, rfl, rfl, rfl, fun _ => Or.inr rfl⟩
  | _ => exact ⟨rfl, rfl, rfl, rfl, Or.inl⟩

/-! ## Conservation -/

/-- The number of places a channel is in: idle, with a borrower, closed. -/
def World.places (w : World ι) (c : Channel) : Nat :=
  w.pool.queue.items.count c + w.held.values.count c + w.shut.count c

/-- Every created channel is in one place, no more than `limit` were created, a
closed pool has no idle channel, and a waiting borrower waits once and holds
nothing. -/
structure PoolInv (limit : Int) (w : World ι) : Prop where
  limit_eq : w.pool.max_connections = limit
  created_le : (w.pool.created : Int) ≤ limit
  one_place : ∀ c, w.places c = (List.range w.pool.created).count c
  closed_empty : w.pool.closed = true → w.pool.queue.items = []
  waiting_nodup : w.waiting.Nodup
  waiting_free : ∀ b ∈ w.waiting, w.held.get? b = none

theorem PoolInv.init {max_connections : Int} (hmax : 1 ≤ max_connections)
    (address : String) (initial_size : Int) (verify_tls : Bool) (tls_certfile : String) :
    PoolInv max_connections
      (World.init (ι := ι) address max_connections initial_size verify_tls tls_certfile) := by
  have hwarm := ConnectionPool.init_spec (ι := ι) address max_connections initial_size
    verify_tls tls_certfile
  have hwaiting : (World.init (ι := ι) address max_connections initial_size verify_tls
      tls_certfile).waiting = [] := hwarm.waiting
  refine ⟨hwarm.max_connections, ?_, ?_, ?_, ?_, ?_⟩
  · have hcreated := hwarm.created
    show ((ConnectionPool.init address max_connections initial_size verify_tls
      tls_certfile : ConnectionPool ι).created : Int) ≤ max_connections
    omega
  · intro c
    simp only [World.places, World.init, hwarm.items, Dict.values, Dict.empty, List.map_nil,
      List.count_nil, Nat.add_zero]
  · intro hclosed
    exact absurd hclosed (by simp [World.init, hwarm.closed])
  · rw [hwaiting]
    exact List.nodup_nil
  · rw [hwaiting]
    simp

theorem count_values_set {d : Dict ι Channel} {b : ι} (h : d.get? b = none) (c channel : Channel) :
    (d.set b channel).values.count c = d.values.count c + [channel].count c := by
  rw [Dict.values_set h, List.count_append]

theorem count_values_del {d : Dict ι Channel} {b : ι} {channel : Channel}
    (h : d.get? b = some channel) (c : Channel) :
    d.values.count c = (d.del b).values.count c + [channel].count c := by
  rw [(Dict.values_del h).count_eq, ← List.singleton_append, List.count_append, Nat.add_comm]

/-- What a borrower that holds a channel may leave of the waiting calls. -/
theorem waiting_free_set {w : World ι} {limit : Int} (hinv : PoolInv limit w) {b : ι}
    {channel : Channel} {l : List ι} (hsub : ∀ a ∈ l, a ∈ w.waiting) (hb : b ∉ l) :
    ∀ a ∈ l, (w.held.set b channel).get? a = none := by
  intro a ha
  have hne : a ≠ b := fun heq => hb (heq ▸ ha)
  rw [Dict.get?_set, if_neg hne]
  exact hinv.waiting_free a (hsub a ha)

/-- A borrower that gives its channel back leaves the others as they are. -/
theorem waiting_free_del {w : World ι} {limit : Int} (hinv : PoolInv limit w) (b : ι) :
    ∀ a ∈ w.waiting, (w.held.del b).get? a = none := by
  intro a ha
  rw [Dict.get?_del]
  split
  · rfl
  · exact hinv.waiting_free a ha

/-- A step moves a channel from one place to another, or creates one in its place. -/
theorem PoolInv.one_place_step {limit : Int} {w w' : World ι} {label : Label ι}
    (hinv : PoolInv limit w) (heff : Effect w label w') (c : Channel) :
    w'.places c = (List.range w'.pool.created).count c := by
  have hc := hinv.one_place c
  cases heff with
  | refused b opens => exact hc
  | idle b opens channel queue hopen hheld hnot hitems hsame =>
      simp only [World.places, hitems, count_values_set hheld, List.count_cons,
        List.count_nil] at hc ⊢
      omega
  | created b opens hopen hheld hnot hroom =>
      simp only [World.places, count_values_set hheld, List.range_succ,
        List.count_append] at hc ⊢
      omega
  | waits b opens hopen hheld hnot => exact hc
  | resumed b channel queue hitems hperm =>
      have hheld := hinv.waiting_free b (hperm.mem_iff.2 List.mem_cons_self)
      simp only [World.places, hitems, count_values_set hheld, List.count_cons,
        List.count_nil] at hc ⊢
      omega
  | again b queue hwaiting hitems hperm =>
      simp only [World.places, hitems] at hc ⊢
      exact hc
  | cancelled b queue hitems hperm =>
      simp only [World.places, hitems] at hc ⊢
      exact hc
  | returned b channel queue hopen hheld hitems hperm =>
      simp only [World.places, hitems, count_values_del hheld, List.count_append,
        List.count_cons, List.count_nil] at hc ⊢
      omega
  | shut b channel hclosed hheld =>
      simp only [World.places, count_values_del hheld, List.count_append, List.count_cons,
        List.count_nil] at hc ⊢
      omega
  | closed =>
      simp only [World.places, World.closed, ConnectionPool.close, AsyncQueue.drain,
        List.count_append, List.count_nil] at hc ⊢
      omega

/-- A step keeps the waiting calls apart from each other and from the borrowers. -/
theorem PoolInv.waiting_step {limit : Int} {w w' : World ι} {label : Label ι}
    (hinv : PoolInv limit w) (heff : Effect w label w') :
    w'.waiting.Nodup ∧ ∀ b ∈ w'.waiting, w'.held.get? b = none := by
  have hnodup := hinv.waiting_nodup
  have hfree := hinv.waiting_free
  cases heff with
  | idle b opens channel queue hopen hheld hnot hitems hsame =>
      show queue.waiting.Nodup ∧ ∀ a ∈ queue.waiting, _
      rw [hsame]
      exact ⟨hnodup, waiting_free_set hinv (fun _ ha => ha) hnot⟩
  | created b opens hopen hheld hnot hroom =>
      exact ⟨hnodup, waiting_free_set hinv (fun _ ha => ha) hnot⟩
  | waits b opens hopen hheld hnot =>
      have hperm := w.pool.queue.waiting_suspend b
      refine ⟨hperm.nodup_iff.2 (List.nodup_cons.2 ⟨hnot, hnodup⟩), fun a ha => ?_⟩
      rcases List.mem_cons.1 (hperm.mem_iff.1 ha) with rfl | hold
      · exact hheld
      · exact hfree a hold
  | resumed b channel queue hitems hperm =>
      have hcons := List.nodup_cons.1 (hperm.nodup_iff.1 hnodup)
      exact ⟨hcons.2, waiting_free_set hinv
        (fun a ha => hperm.mem_iff.2 (List.mem_cons_of_mem b ha)) hcons.1⟩
  | again b queue hwaiting hitems hperm =>
      exact ⟨hperm.nodup_iff.2 hnodup, fun a ha => hfree a (hperm.mem_iff.1 ha)⟩
  | cancelled b queue hitems hperm =>
      exact ⟨(List.nodup_cons.1 (hperm.nodup_iff.1 hnodup)).2,
        fun a ha => hfree a (hperm.mem_iff.2 (List.mem_cons_of_mem b ha))⟩
  | returned b channel queue hopen hheld hitems hperm =>
      exact ⟨hperm.nodup_iff.2 hnodup,
        fun a ha => waiting_free_del hinv b a (hperm.mem_iff.1 ha)⟩
  | shut b channel hclosed hheld => exact ⟨hnodup, waiting_free_del hinv b⟩
  | _ => exact ⟨hnodup, hfree⟩

/-- A step leaves the queue of a closed pool empty. -/
theorem PoolInv.closed_empty_step {limit : Int} {w w' : World ι} {label : Label ι}
    (hinv : PoolInv limit w) (heff : Effect w label w') (hclosed : w'.pool.closed = true) :
    w'.pool.queue.items = [] := by
  cases heff with
  | idle b opens channel queue hopen _ _ _ _ => cases hopen.symm.trans hclosed
  | resumed b channel queue hitems hperm =>
      rw [hinv.closed_empty hclosed] at hitems
      cases hitems
  | again b queue hwaiting hitems hperm => exact hitems.trans (hinv.closed_empty hclosed)
  | cancelled b queue hitems hperm => exact hitems.trans (hinv.closed_empty hclosed)
  | returned b channel queue hopen _ _ _ => cases hopen.symm.trans hclosed
  | closed => rfl
  | _ => exact hinv.closed_empty hclosed

/-- A channel is created only below the limit. -/
theorem PoolInv.created_step {limit : Int} {w w' : World ι} {label : Label ι}
    (hinv : PoolInv limit w) (heff : Effect w label w') : (w'.pool.created : Int) ≤ limit := by
  have hlimit := hinv.limit_eq
  have hcreated := hinv.created_le
  cases heff with
  | created b opens hopen hheld hnot hroom =>
      dsimp only
      omega
  | _ => exact hcreated

/-- **Step lemma** for conservation. -/
theorem PoolInv.step {limit : Int} {w w' : World ι} {label : Label ι} (hinv : PoolInv limit w)
    (heff : Effect w label w') : PoolInv limit w' where
  limit_eq := (effect_settings heff).2.1.trans hinv.limit_eq
  created_le := hinv.created_step heff
  one_place := hinv.one_place_step heff
  closed_empty := hinv.closed_empty_step heff
  waiting_nodup := (hinv.waiting_step heff).1
  waiting_free := (hinv.waiting_step heff).2

/-- What conservation says of a state. -/
structure Conserved (limit : Int) (w : World ι) : Prop where
  created_le : (w.pool.created : Int) ≤ limit
  one_place : ∀ c : Nat, w.places c = if c < w.pool.created then 1 else 0
  one_borrower : ∀ b b' c, w.held.get? b = some c → w.held.get? b' = some c → b = b'
  not_shut : ∀ b c, w.held.get? b = some c → c ∉ w.shut

theorem PoolInv.places_eq {limit : Int} {w : World ι} (hinv : PoolInv limit w) (c : Nat) :
    w.places c = if c < w.pool.created then 1 else 0 := by
  rw [hinv.one_place, List.count_range]

theorem PoolInv.conserved {limit : Int} {w : World ι} (hinv : PoolInv limit w) :
    Conserved limit w := by
  refine ⟨hinv.created_le, hinv.places_eq, ?_, ?_⟩
  · intro b b' c hb hb'
    by_contra hne
    have hdel : (w.held.del b).get? b' = some c := by
      rw [Dict.get?_del, if_neg (fun heq => hne heq.symm)]
      exact hb'
    have hcount := count_values_del hb c
    have hpos : 0 < (w.held.del b).values.count c :=
      List.count_pos_iff.2 (Dict.mem_values.2 ⟨b', hdel⟩)
    have hplace := hinv.places_eq c
    simp only [World.places, hcount, List.count_cons, List.count_nil, beq_self_eq_true,
      if_true] at hplace
    split_ifs at hplace <;> omega
  · intro b c hb hshut
    have hheld : 0 < w.held.values.count c := List.count_pos_iff.2 (Dict.mem_values.2 ⟨b, hb⟩)
    have hclosed : 0 < w.shut.count c := List.count_pos_iff.2 hshut
    have hplace := hinv.places_eq c
    unfold World.places at hplace
    split_ifs at hplace <;> omega

/-- A closed channel stays closed. -/
theorem shut_mono {w w' : World ι} {label : Label ι} (heff : Effect w label w') :
    ∀ c ∈ w.shut, c ∈ w'.shut := by
  intro c hc
  cases heff with
  | shut b channel _ _ => exact List.mem_append_left _ hc
  | closed => exact List.mem_append_left _ hc
  | _ => exact hc

/-- **Run lemma** for conservation. -/
theorem PoolInv.run {limit : Int} {w w' : World ι} {labels : List (Label ι)}
    (hinv : PoolInv limit w) (hrun : run World.step w labels = some w') : PoolInv limit w' :=
  run_invariant (PoolInv limit) (fun _ => True)
    (fun _ _ _ _ hinv hstep => hinv.step (effect_of_step hstep)) (fun _ _ => trivial) hinv hrun

theorem shut_of_run {w w' : World ι} {labels : List (Label ι)} {c : Channel} (hc : c ∈ w.shut)
    (hrun : run World.step w labels = some w') : c ∈ w'.shut :=
  run_invariant (fun v => c ∈ v.shut) (fun _ => True)
    (fun _ _ _ _ hv hstep => shut_mono (effect_of_step hstep) c hv) (fun _ _ => trivial) hc hrun

/-- **Conservation.**  In every run of a pool, of any size and warm-up: no more
channels exist than the limit allows, each of them is idle, closed or with one
borrower, and a channel that was closed is never held again. -/
theorem channels_conserved {address : String} {max_connections initial_size : Int}
    {verify_tls : Bool} {tls_certfile : String} (hmax : 1 ≤ max_connections)
    {labels : List (Label ι)} {w : World ι}
    (hrun : run World.step
      (World.init address max_connections initial_size verify_tls tls_certfile) labels = some w) :
    Conserved max_connections w ∧
      ∀ later w', run World.step w later = some w' →
        ∀ c ∈ w.shut, ∀ b, w'.held.get? b ≠ some c := by
  have hinv := (PoolInv.init hmax address initial_size verify_tls tls_certfile).run hrun
  refine ⟨hinv.conserved, ?_⟩
  intro later w' hlater c hc b hheld
  exact (hinv.run hlater).conserved.not_shut b c hheld (shut_of_run hc hlater)

/-- Two borrowers share one channel, which is closed when it comes back last. -/
def sharedLabels : List (Label Nat) :=
  [.acquire 0 true, .acquire 1 true, .release 0, .resume 1, .close, .release 1]

theorem channels_conserved_shared :
    ∃ w, run World.step (World.init "prover:50051" 1 5 false "") sharedLabels = some w ∧
      Conserved 1 w ∧
      ∀ later w', run World.step w later = some w' →
        ∀ c ∈ w.shut, ∀ b, w'.held.get? b ≠ some c :=
  ⟨_, rfl, @channels_conserved Nat _ "prover:50051" 1 5 false "" (by decide) sharedLabels _ rfl⟩

/-! ## Who waits for a closed pool -/

/-- The pool is closed and every borrower has given its channel back only where
nobody waits. -/
def NobodyStranded (w : World ι) : Prop :=
  w.pool.closed = true → (∀ b, w.held.get? b = none) → w.waiting = []

/-- `close` is called only while nobody waits. -/
def ClosesIdle (w : World ι) (label : Label ι) : Prop := label = .close → w.waiting = []

/-- A closed pool takes in nobody, so nobody waits for it who did not when it
was closed. -/
theorem waiting_of_closed {w w' : World ι} {label : Label ι} (hidle : ClosesIdle w label)
    (hinv : w.pool.closed = true → w.waiting = []) (heff : Effect w label w') :
    w'.pool.closed = true → w'.waiting = [] := by
  intro hclosed
  cases heff with
  | refused b opens => exact hinv hclosed
  | idle b opens channel queue hopen _ _ _ _ => cases hopen.symm.trans hclosed
  | created b opens hopen _ _ _ => cases hopen.symm.trans hclosed
  | waits b opens hopen _ _ => cases hopen.symm.trans hclosed
  | resumed b channel queue _ hperm =>
      rw [hinv hclosed] at hperm
      exact absurd hperm.symm.eq_nil (List.cons_ne_nil b queue.waiting)
  | again b queue _ _ hperm =>
      rw [hinv hclosed] at hperm
      exact hperm.eq_nil
  | cancelled b queue _ hperm =>
      rw [hinv hclosed] at hperm
      exact absurd hperm.symm.eq_nil (List.cons_ne_nil b queue.waiting)
  | returned b channel queue hopen _ _ _ => cases hopen.symm.trans hclosed
  | shut b channel _ _ => exact hinv hclosed
  | closed => exact hidle rfl

/-- **A closed pool strands nobody**, in every state of every run in which
`close` is called only while nobody waits. -/
theorem closed_pool_strands_nobody {address : String} {max_connections initial_size : Int}
    {verify_tls : Bool} {tls_certfile : String} {labels : List (Label ι)} {w : World ι}
    (hidle : Along World.step ClosesIdle
      (World.init address max_connections initial_size verify_tls tls_certfile) labels)
    (hrun : run World.step
      (World.init address max_connections initial_size verify_tls tls_certfile) labels = some w) :
    NobodyStranded w := by
  have hopen := (ConnectionPool.init_spec (ι := ι) address max_connections initial_size
    verify_tls tls_certfile).closed
  have hwaiting : w.pool.closed = true → w.waiting = [] :=
    run_invariant_along (fun v => v.pool.closed = true → v.waiting = []) ClosesIdle
      (fun _ _ _ hidle hv hstep => waiting_of_closed hidle hv (effect_of_step hstep))
      hidle (fun hclosed => by cases hopen.symm.trans hclosed) hrun
  exact fun hclosed _ => hwaiting hclosed

theorem sharedLabels_idle :
    Along World.step ClosesIdle (World.init "prover:50051" 1 5 false "") sharedLabels := by
  refine ⟨by rintro ⟨⟩, ?_⟩
  rintro _ ⟨⟩
  refine ⟨by rintro ⟨⟩, ?_⟩
  rintro _ ⟨⟩
  refine ⟨by rintro ⟨⟩, ?_⟩
  rintro _ ⟨⟩
  refine ⟨by rintro ⟨⟩, ?_⟩
  rintro _ ⟨⟩
  refine ⟨fun _ => rfl, ?_⟩
  rintro _ ⟨⟩
  exact ⟨by rintro ⟨⟩, fun _ _ => trivial⟩

theorem closed_pool_strands_nobody_shared :
    ∃ w, run World.step (World.init "prover:50051" 1 5 false "") sharedLabels = some w ∧
      NobodyStranded w :=
  ⟨_, rfl, @closed_pool_strands_nobody Nat _ "prover:50051" 1 5 false "" sharedLabels _
    sharedLabels_idle rfl⟩

/-- The pool is closed while the second borrower waits. -/
def strandingLabels : List (Label Nat) :=
  [.acquire 0 true, .acquire 1 true, .close, .release 0]

/-- **A waiting call is stranded**: the pool is closed, the only channel was
given back and closed, and the second borrower waits with nobody to wake it. -/
theorem waiter_stranded :
    ∃ w, run World.step (World.init "prover:50051" 1 0 false "") strandingLabels = some w ∧
      w.pool.closed = true ∧ (∀ b, w.held.get? b = none) ∧ w.waiting = [1] ∧
      w.pool.queue.woken = [] ∧ ¬NobodyStranded w := by
  refine ⟨_, rfl, rfl, fun b => rfl, rfl, rfl, ?_⟩
  intro hnobody
  exact absurd (hnobody rfl (fun b => rfl)) (List.cons_ne_nil 1 [])

/-- One step of a closed pool: a call that waits goes on waiting until it is
cancelled. -/
theorem waiting_step_closed {limit : Int} {w w' : World ι} {label : Label ι}
    (hinv : PoolInv limit w) (hclosed : w.pool.closed = true) (heff : Effect w label w') :
    w'.pool.closed = true ∧
      ∀ a, a ∈ w'.waiting ↔ a ∈ w.waiting ∧ label ≠ .cancel a := by
  cases heff with
  | refused b opens => exact ⟨hclosed, by simp⟩
  | idle b opens channel queue hopen _ _ _ _ => cases hopen.symm.trans hclosed
  | created b opens hopen _ _ _ => cases hopen.symm.trans hclosed
  | waits b opens hopen _ _ => cases hopen.symm.trans hclosed
  | resumed b channel queue hitems _ =>
      rw [hinv.closed_empty hclosed] at hitems
      cases hitems
  | again b queue _ _ hperm =>
      refine ⟨hclosed, fun a => ?_⟩
      have hmem : a ∈ queue.waiting ↔ a ∈ w.waiting := hperm.mem_iff
      exact ⟨fun ha => ⟨hmem.1 ha, by rintro ⟨⟩⟩, fun ha => hmem.2 ha.1⟩
  | cancelled b queue _ hperm =>
      refine ⟨hclosed, fun a => ?_⟩
      show a ∈ queue.waiting ↔ a ∈ w.waiting ∧ _
      have hnot := (List.nodup_cons.1 (hperm.nodup_iff.1 hinv.waiting_nodup)).1
      rw [hperm.mem_iff, List.mem_cons]
      constructor
      · intro ha
        refine ⟨Or.inr ha, ?_⟩
        rintro ⟨⟩
        exact hnot ha
      · rintro ⟨rfl | ha, hne⟩
        · exact absurd rfl hne
        · exact ha
  | returned b channel queue hopen _ _ _ => cases hopen.symm.trans hclosed
  | shut b channel _ _ => exact ⟨hclosed, by simp [World.waiting]⟩
  | closed => exact ⟨rfl, by simp [World.waiting, World.closed, ConnectionPool.close,
      AsyncQueue.drain, AsyncQueue.waiting]⟩

/-- **Who waits for a closed pool**: the calls that waited when it was closed and
were not cancelled since. -/
theorem waiting_iff_not_cancelled {limit : Int} {w w' : World ι} {labels : List (Label ι)}
    (hinv : PoolInv limit w) (hclosed : w.pool.closed = true)
    (hrun : run World.step w labels = some w') (a : ι) :
    a ∈ w'.waiting ↔ a ∈ w.waiting ∧ .cancel a ∉ labels := by
  induction labels generalizing w with
  | nil =>
      rw [run_nil, Option.some.injEq] at hrun
      simp [hrun]
  | cons label rest ih =>
      obtain ⟨v, hfirst, hrest⟩ := run_cons_eq_some.1 hrun
      have heff := effect_of_step hfirst
      obtain ⟨hclosed', hmem⟩ := waiting_step_closed hinv hclosed heff
      rw [ih (hinv.step heff) hclosed' hrest, hmem, List.mem_cons, not_or, and_assoc,
        ne_comm (a := label)]

end ProverNetwork.Ports.ConnectionPoolRun
