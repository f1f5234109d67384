import ProverNetwork.Ports.ConnectionPoolRun

/-!
# Where the borrowers of a channel pool are

A borrower holds a channel, waits for one, or does neither; a step of the pool
moves the borrower it is about and no other.

Nobody waits in an open pool for nothing: either a call that waits was woken, or
somebody holds a channel that will come back and wake one.

## Main results

* `place_of_ne` — the other borrowers stay where they are.
* `place_acquired`, `place_resumed`, `place_cancelled`, `place_released` — where
  the borrower of a step goes.
* `SupplyInv.step` — no wake-up is lost, and only a full pool is waited for.
* `someone_moves` — who keeps an open pool going.
-/

namespace ProverNetwork.Ports.ConnectionPoolRun

open ProverNetwork.Verified
open ProverNetwork.Ports

variable {ι : Type*} [DecidableEq ι]

/-- Where a borrower is. -/
inductive Place
  | free
  | waits
  | holds (channel : Channel)
  deriving DecidableEq

def World.place (w : World ι) (b : ι) : Place :=
  match w.held.get? b with
  | some channel => .holds channel
  | none => if b ∈ w.waiting then .waits else .free

theorem place_eq_holds {w : World ι} {b : ι} {channel : Channel} :
    w.place b = .holds channel ↔ w.held.get? b = some channel := by
  unfold World.place
  cases w.held.get? b with
  | some c => simp
  | none =>
      dsimp only
      split <;> simp

theorem place_eq_waits {w : World ι} {b : ι} :
    w.place b = .waits ↔ w.held.get? b = none ∧ b ∈ w.waiting := by
  unfold World.place
  cases w.held.get? b with
  | some c => simp
  | none =>
      dsimp only
      split <;> simp_all

theorem place_eq_free {w : World ι} {b : ι} :
    w.place b = .free ↔ w.held.get? b = none ∧ b ∉ w.waiting := by
  unfold World.place
  cases w.held.get? b with
  | some c => simp
  | none =>
      dsimp only
      split <;> simp_all

/-- Who waits is told by the places. -/
theorem PoolInv.waits_iff {limit : Int} {w : World ι} (hinv : PoolInv limit w) {b : ι} :
    b ∈ w.waiting ↔ w.place b = .waits :=
  ⟨fun hb => place_eq_waits.2 ⟨hinv.waiting_free b hb, hb⟩, fun h => (place_eq_waits.1 h).2⟩

theorem place_congr {w w' : World ι} {b : ι} (hheld : w'.held.get? b = w.held.get? b)
    (hwaiting : b ∈ w'.waiting ↔ b ∈ w.waiting) : w'.place b = w.place b := by
  unfold World.place
  rw [hheld]
  simp only [hwaiting]

/-! ## The other borrowers -/

/-- Whom a step is about. -/
def Label.borrower : Label ι → Option ι
  | .acquire b _ => some b
  | .resume b => some b
  | .cancel b => some b
  | .release b => some b
  | .close => none

omit [DecidableEq ι] in
/-- A list without one of its items has every other item. -/
theorem mem_of_perm_cons {l m : List ι} {a b : ι} (hperm : l.Perm (b :: m)) (hne : b ≠ a) :
    a ∈ m ↔ a ∈ l := by
  rw [hperm.mem_iff, List.mem_cons, or_iff_right (Ne.symm hne)]

/-- A step leaves every borrower it is not about where it is. -/
theorem place_of_ne {w w' : World ι} {label : Label ι} (heff : Effect w label w') {a : ι}
    (ha : label.borrower ≠ some a) : w'.place a = w.place a := by
  have hset : ∀ {b : ι} {c : Channel}, some b ≠ some a →
      (w.held.set b c).get? a = w.held.get? a := by
    intro b c hne
    rw [Dict.get?_set, if_neg (fun heq => hne (by rw [heq]))]
  have hdel : ∀ {b : ι}, some b ≠ some a → (w.held.del b).get? a = w.held.get? a := by
    intro b hne
    rw [Dict.get?_del, if_neg (fun heq => hne (by rw [heq]))]
  cases heff with
  | refused b opens => rfl
  | idle b opens channel queue hopen hheld hnot hitems hsame =>
      exact place_congr (hset ha) (by
        show a ∈ queue.waiting ↔ a ∈ w.waiting
        rw [hsame])
  | created b opens hopen hheld hnot hroom => exact place_congr (hset ha) Iff.rfl
  | waits b opens hopen hheld hnot =>
      have hperm := w.pool.queue.waiting_suspend b
      exact place_congr rfl
        (mem_of_perm_cons hperm (fun heq => ha (by rw [Label.borrower, heq]))).symm
  | resumed b channel queue hitems hperm =>
      exact place_congr (hset ha)
        (mem_of_perm_cons hperm (fun heq => ha (by rw [Label.borrower, heq])))
  | again b queue hwaiting hitems hperm => exact place_congr rfl hperm.mem_iff
  | cancelled b queue hitems hperm =>
      exact place_congr rfl
        (mem_of_perm_cons hperm (fun heq => ha (by rw [Label.borrower, heq])))
  | returned b channel queue hopen hheld hitems hperm =>
      exact place_congr (hdel ha) hperm.mem_iff
  | shut b channel hclosed hheld => exact place_congr (hdel ha) Iff.rfl
  | closed => rfl

/-! ## The borrower of a step -/

/-- Where an answer of `acquire` leaves the borrower. -/
def placeOf : Acquired → Place
  | .pair channel => .holds channel
  | .waits => .waits
  | .closed => .free
  | .failed => .free

theorem place_set_self {w : World ι} {b : ι} {channel : Channel} {pool : ConnectionPool ι}
    {shut : List Channel} :
    (World.mk pool (w.held.set b channel) shut).place b = .holds channel :=
  place_eq_holds.2 (by rw [Dict.get?_set, if_pos rfl])

theorem place_acquired {w : World ι} {b : ι} (opens : Bool) (hfree : w.place b = .free) :
    (w.answered b (w.pool.acquire b opens)).place b = placeOf (w.pool.acquire b opens).1 := by
  have hacquires := w.pool.acquires b opens
  revert hacquires
  generalize w.pool.acquire b opens = r
  obtain ⟨answer, pool⟩ := r
  intro hacquires
  cases hacquires with
  | closed _ => exact hfree
  | failed _ => exact hfree
  | idle channel queue _ _ _ => exact place_set_self
  | created _ _ => exact place_set_self
  | waits _ _ _ =>
      refine place_eq_waits.2 ⟨(place_eq_free.1 hfree).1, ?_⟩
      exact (w.pool.queue.waiting_suspend b).mem_iff.2 List.mem_cons_self

theorem answered_pool (w : World ι) (b : ι) (r : Acquired × ConnectionPool ι) :
    (w.answered b r).pool = r.2 := by
  obtain ⟨answer, pool⟩ := r
  cases answer <;> rfl

theorem resumed_pool (w : World ι) (b : ι) :
    (w.resumed b).pool = { w.pool with queue := (w.pool.queue.resume b).2 } := by
  unfold World.resumed
  rcases w.pool.queue.resume b with ⟨_ | channel, queue⟩ <;> rfl

/-- A woken call has the channel it found, or waits on. -/
theorem place_resumed {limit : Int} {w : World ι} (hinv : PoolInv limit w) {b : ι}
    (hb : b ∈ w.pool.queue.woken) :
    (w.resumed b).place b =
      match (w.pool.queue.resume b).1 with
      | some channel => .holds channel
      | none => .waits := by
  have hwaiting : b ∈ w.waiting := List.mem_append_right _ hb
  unfold World.resumed
  obtain ⟨channel, queue, heq, -, -⟩ | ⟨queue, heq, -, -, hperm⟩ := AsyncQueue.resume_cases hb
  · rw [heq]
    exact place_set_self
  · rw [heq]
    exact place_eq_waits.2 ⟨hinv.waiting_free b hwaiting, hperm.mem_iff.2 hwaiting⟩

theorem place_cancelled {limit : Int} {w : World ι} (hinv : PoolInv limit w) {b : ι}
    (hb : b ∈ w.waiting) :
    World.place { w with pool := { w.pool with queue := w.pool.queue.cancel b } } b = .free := by
  have hperm := AsyncQueue.waiting_cancel hb
  have hnot := (List.nodup_cons.1 (hperm.nodup_iff.1 hinv.waiting_nodup)).1
  exact place_eq_free.2 ⟨hinv.waiting_free b hb, hnot⟩

theorem place_released {limit : Int} {w : World ι} (hinv : PoolInv limit w) {b : ι}
    {channel : Channel} (hheld : w.held.get? b = some channel) :
    (w.released b channel).place b = .free := by
  have hnot : b ∉ w.waiting := fun hb => by
    rw [hinv.waiting_free b hb] at hheld
    cases hheld
  have hgone : (w.held.del b).get? b = none := by rw [Dict.get?_del, if_pos rfl]
  unfold World.released ConnectionPool.release
  split
  next hclosed =>
    split at hclosed
    next =>
      cases hclosed
      exact place_eq_free.2 ⟨hgone, hnot⟩
    next => cases hclosed
  next hopen =>
    split at hopen
    next => cases hopen
    next =>
      cases hopen
      refine place_eq_free.2 ⟨hgone, fun hb => hnot ?_⟩
      exact (AsyncQueue.waiting_putNowait w.pool.queue channel).mem_iff.1 hb

/-! ## What keeps a pool going -/

/-- No wake-up is lost, only a full pool is waited for, and no channel of an open
pool is closed. -/
structure SupplyInv (w : World ι) : Prop where
  prompt : w.pool.queue.Prompt
  full : w.waiting ≠ [] → w.pool.max_connections ≤ w.pool.created
  unshut : w.pool.closed = false → w.shut = []

omit [DecidableEq ι] in
theorem SupplyInv.init (address : String) (max_connections initial_size : Int)
    (verify_tls : Bool) (tls_certfile : String) :
    SupplyInv (World.init (ι := ι) address max_connections initial_size verify_tls
      tls_certfile) := by
  have hwarm := ConnectionPool.init_spec (ι := ι) address max_connections initial_size
    verify_tls tls_certfile
  have hgetters := (List.append_eq_nil_iff.1 hwarm.waiting).1
  exact ⟨fun hsome => absurd hgetters hsome, fun hsome => absurd hwarm.waiting hsome,
    fun _ => rfl⟩

omit [DecidableEq ι] in
theorem prompt_acquire {p : ConnectionPool ι} (hp : p.queue.Prompt) (b : ι) (opens : Bool) :
    (p.acquire b opens).2.queue.Prompt := by
  unfold ConnectionPool.acquire
  split
  · exact hp
  · split
    next channel queue hget => exact hp.getNowait hget
    next hget =>
      split
      · cases opens with
        | true => exact hp
        | false => exact hp
      · have hempty : p.queue.items = [] := AsyncQueue.getNowait_eq_none.1 hget
        exact AsyncQueue.prompt_of_empty hempty

theorem SupplyInv.acquired {w : World ι} (hinv : SupplyInv w) (b : ι) (opens : Bool) :
    SupplyInv (w.answered b (w.pool.acquire b opens)) := by
  have hprompt := prompt_acquire hinv.prompt b opens
  have hfull := hinv.full
  have hacquires := w.pool.acquires b opens
  revert hacquires hprompt
  generalize w.pool.acquire b opens = r
  obtain ⟨answer, pool⟩ := r
  intro hprompt hacquires
  cases hacquires with
  | closed _ => exact hinv
  | failed _ => exact hinv
  | idle channel queue _ _ hsame =>
      refine ⟨hprompt, fun hsome => hfull ?_, hinv.unshut⟩
      show w.pool.queue.waiting ≠ []
      rw [← hsame]
      exact hsome
  | created _ _ =>
      refine ⟨hprompt, fun hsome => ?_, hinv.unshut⟩
      have hle := hfull hsome
      show w.pool.max_connections ≤ ((w.pool.created + 1 : Nat) : Int)
      omega
  | waits _ _ hlimit => exact ⟨hprompt, fun _ => hlimit, hinv.unshut⟩

omit [DecidableEq ι] in
/-- A queue with the same waiting calls waits for the same pool. -/
theorem SupplyInv.requeued {w : World ι} (hinv : SupplyInv w) {queue : AsyncQueue Channel ι}
    (held : Dict ι Channel) (hprompt : queue.Prompt)
    (hwaiting : ∀ b ∈ queue.waiting, b ∈ w.waiting) :
    SupplyInv ⟨{ w.pool with queue := queue }, held, w.shut⟩ := by
  refine ⟨hprompt, fun hsome => hinv.full ?_, hinv.unshut⟩
  obtain ⟨b, hb⟩ := List.exists_mem_of_ne_nil _ hsome
  exact List.ne_nil_of_mem (hwaiting b hb)

theorem SupplyInv.resumed {w : World ι} (hinv : SupplyInv w) {b : ι}
    (hb : b ∈ w.pool.queue.woken) : SupplyInv (w.resumed b) := by
  have hprompt := hinv.prompt.resume hb
  unfold World.resumed
  obtain ⟨channel, queue, heq, -, hperm⟩ | ⟨queue, heq, -, -, hperm⟩ := AsyncQueue.resume_cases hb
  · rw [heq] at hprompt ⊢
    exact hinv.requeued _ hprompt (fun a ha => hperm.mem_iff.2 (List.mem_cons_of_mem b ha))
  · rw [heq] at hprompt ⊢
    exact hinv.requeued _ hprompt (fun a ha => hperm.mem_iff.1 ha)

theorem SupplyInv.released {w : World ι} (hinv : SupplyInv w) (b : ι) (channel : Channel) :
    SupplyInv (w.released b channel) := by
  unfold World.released ConnectionPool.release
  by_cases hclosed : w.pool.closed = true
  · rw [if_pos hclosed]
    refine ⟨hinv.prompt, hinv.full, fun hopen => ?_⟩
    cases hclosed.symm.trans hopen
  · rw [if_neg hclosed]
    exact hinv.requeued _ (hinv.prompt.putNowait channel)
      (fun a ha => (AsyncQueue.waiting_putNowait w.pool.queue channel).mem_iff.1 ha)

/-- **Step lemma.** -/
theorem SupplyInv.step {w w' : World ι} {label : Label ι} (hinv : SupplyInv w)
    (hstep : w.step label = some w') : SupplyInv w' := by
  cases label with
  | acquire b opens =>
      simp only [World.step] at hstep
      split at hstep
      next => cases hstep
      next =>
        cases hstep
        exact hinv.acquired b opens
  | resume b =>
      simp only [World.step] at hstep
      split at hstep
      next hb =>
        cases hstep
        exact hinv.resumed hb
      next => cases hstep
  | cancel b =>
      simp only [World.step] at hstep
      split at hstep
      next hb =>
        cases hstep
        exact hinv.requeued _ (hinv.prompt.cancel b)
          (fun a ha => (AsyncQueue.waiting_cancel hb).mem_iff.2 (List.mem_cons_of_mem b ha))
      next => cases hstep
  | release b =>
      obtain ⟨channel, -, rfl⟩ := Option.map_eq_some_iff.1 hstep
      exact hinv.released b channel
  | close =>
      cases hstep
      exact ⟨AsyncQueue.prompt_of_empty rfl, hinv.full, fun hopen => by cases hopen⟩

/-- **Who keeps an open pool going**: where somebody waits, some call was woken or
some borrower holds a channel. -/
theorem someone_moves {limit : Int} {w : World ι} (hlimit : 1 ≤ limit) (hinv : PoolInv limit w)
    (hsupply : SupplyInv w) (hopen : w.pool.closed = false) (hwaiting : w.waiting ≠ []) :
    (∃ b, b ∈ w.pool.queue.woken) ∨ ∃ b channel, w.held.get? b = some channel := by
  cases hwoken : w.pool.queue.woken with
  | cons b rest => exact Or.inl ⟨b, List.mem_cons_self⟩
  | nil =>
      right
      -- nobody was woken, so nothing is idle, and the first channel is with somebody
      have hgetters : w.pool.queue.getters ≠ [] := by
        intro hnone
        exact hwaiting (by rw [World.waiting, AsyncQueue.waiting, hnone, hwoken]; rfl)
      have hidle := hsupply.prompt hgetters
      rw [hwoken, List.length_nil, Nat.le_zero, List.length_eq_zero_iff] at hidle
      have hcreated : 0 < w.pool.created := by
        have hfull := hsupply.full hwaiting
        rw [hinv.limit_eq] at hfull
        omega
      have hplace := hinv.places_eq 0
      rw [World.places, hidle, hsupply.unshut hopen, if_pos hcreated] at hplace
      simp only [List.count_nil, Nat.zero_add, Nat.add_zero] at hplace
      have hmem : 0 ∈ w.held.values := List.count_pos_iff.1 (by omega)
      obtain ⟨b, hb⟩ := Dict.mem_values.1 hmem
      exact ⟨b, 0, hb⟩

end ProverNetwork.Ports.ConnectionPoolRun
