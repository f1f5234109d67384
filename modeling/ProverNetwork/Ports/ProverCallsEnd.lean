import ProverNetwork.Ports.ProverCalls
import ProverNetwork.Verified.Progress

/-!
# Calls that share a client come to an end

Each attempt that a call is allowed pays for three steps: the one that begins it,
the one that ends it, and the wake-up of another call when its channel comes
back.  A call that finds no channel when it is woken has used up a wake-up.

While the pool is closed only when nobody waits, no call waits for nothing: the
steps of the calls themselves, without a new call and without a cancellation,
end all of them and bring every channel back.

## Main results

* `pays` — what each step costs.
* `steps_bounded` — a run has at most three steps for each allowed attempt.
* `settled_finished` — where no call can move, all are over.
* `calls_end` — every call ends.
-/

namespace ProverNetwork.Ports.ProverCalls

open ProverNetwork.Verified
open ProverNetwork.Ports
open ProverNetwork.Ports.ConnectionPoolRun
open ProverNetwork.Ports.ProverRpc

variable {α : Type} {self : Settings}

/-! ## The budget of a call -/

/-- The attempts that are left when this one fails. -/
def Call.left (self : Settings) (x : Call α) : Nat := (x.allowed self + 1 - x.attempt).toNat

/-- What a call may still cost. -/
def Call.budget (self : Settings) (x : Call α) : Nat :=
  match x.phase with
  | .between => 3 * max 1 (x.left self)
  | .acquiring => 3 * x.left self + 2
  | .calling _ => 3 * x.left self + 2
  | _ => 0

/-- What the calls may still cost, and the wake-ups that are under way. -/
def World.potential (self : Settings) (w : World α) : Nat :=
  weight (Call.budget self) w.calls + w.pool.pool.queue.woken.length

/-- An arrival and a `close` are free. -/
def Label.cost : Label α → Nat
  | .rpc _ _ => 0
  | .close => 0
  | _ => 1

/-- A call brings in three for each attempt that it is allowed. -/
def Label.gain (self : Settings) : Label α → Nat
  | .rpc _ retries => 3 * (max 1 (retries.getD self.max_retries + 1)).toNat
  | _ => 0

variable (self) in
theorem budget_new (timeout : Option ℚ) (retries : Option Int) :
    (Call.new timeout retries : Call α).budget self =
      3 * (max 1 (retries.getD self.max_retries + 1)).toNat := by
  show 3 * max 1 (Call.left self (Call.new timeout retries)) = _
  unfold Call.left Call.allowed Call.new
  dsimp only
  omega

theorem budget_cancelled (x : Call α) : x.cancelled.budget self = 0 := by
  unfold Call.budget
  rw [phase_cancelled]

/-- An attempt that begins costs one. -/
theorem budget_tries {x : Call α} (hphase : x.phase = .between) (refusal : Option PyError)
    (answer : Acquired) : (x.tries refusal answer).budget self + 1 ≤ x.budget self := by
  have hbudget : x.budget self = 3 * max 1 (x.left self) := by rw [Call.budget, hphase]
  have hleft : Call.left self { x with attempt := x.attempt + 1 } = x.left self - 1 := by
    unfold Call.left Call.allowed
    dsimp only
    omega
  rw [hbudget]
  cases answer with
  | closed =>
      show 0 + 1 ≤ _
      omega
  | failed =>
      show 0 + 1 ≤ _
      omega
  | pair channel =>
      show 3 * Call.left self { x with attempt := x.attempt + 1 } + 2 + 1 ≤ _
      omega
  | waits =>
      show 3 * Call.left self { x with attempt := x.attempt + 1 } + 2 + 1 ≤ _
      omega

theorem budget_resumed {x : Call α} (hphase : x.phase = .acquiring) (answer : Option Channel) :
    (x.resumed answer).budget self = x.budget self := by
  cases answer with
  | none => rfl
  | some channel =>
      rw [Call.budget, Call.budget, hphase]
      rfl

/-- An attempt that ends costs one, and the wake-up one more. -/
theorem budget_responds {x : Call α} {channel : Channel} (hphase : x.phase = .calling channel)
    (outcome : Outcome α) : (x.responds self channel outcome).budget self + 2 ≤ x.budget self := by
  have hbudget : x.budget self = 3 * x.left self + 2 := by rw [Call.budget, hphase]
  rw [hbudget]
  unfold Call.responds
  dsimp only
  split
  next hagain =>
    have hleft : 1 ≤ x.left self := by
      have hle : (x.attempt : Int) ≤ x.allowed self := hagain.1
      unfold Call.left
      omega
    split
    next =>
      show 0 + 2 ≤ _
      omega
    next =>
      show 3 * max 1 (x.left self) + 2 ≤ _
      omega
  next =>
    show 0 + 2 ≤ _
    omega

/-! ## What a step costs -/

section Pool

variable {w : World α} {i : Nat} {pool : ConnectionPoolRun.World Nat}

theorem woken_acquire {b : Nat} {opens : Bool} {v v' : ConnectionPoolRun.World Nat}
    (hstep : v.step (.acquire b opens) = some v') :
    v'.pool.queue.woken = v.pool.queue.woken := by
  simp only [ConnectionPoolRun.World.step] at hstep
  split at hstep
  next => cases hstep
  next =>
    cases hstep
    have hsame : (v.pool.acquire b opens).2.queue.woken = v.pool.queue.woken := by
      unfold ConnectionPool.acquire
      split
      · rfl
      · split
        next channel queue hget => exact (AsyncQueue.getNowait_eq_some hget).2.2
        next =>
          split
          · cases opens <;> rfl
          · rfl
    rw [answered_pool]
    exact hsame

theorem woken_release {b : Nat} {v v' : ConnectionPoolRun.World Nat}
    (hstep : v.step (.release b) = some v') :
    v'.pool.queue.woken.length ≤ v.pool.queue.woken.length + 1 := by
  obtain ⟨channel, -, rfl⟩ := Option.map_eq_some_iff.1 hstep
  unfold ConnectionPoolRun.World.released ConnectionPool.release
  by_cases hclosed : v.pool.closed = true
  · rw [if_pos hclosed]
    exact Nat.le_succ _
  · rw [if_neg hclosed]
    exact AsyncQueue.length_woken_putNowait _ channel

theorem woken_cancel {b : Nat} {v v' : ConnectionPoolRun.World Nat}
    (hstep : v.step (.cancel b) = some v') :
    v'.pool.queue.woken.length ≤ v.pool.queue.woken.length + 1 := by
  simp only [ConnectionPoolRun.World.step] at hstep
  split at hstep
  next =>
    cases hstep
    exact AsyncQueue.length_woken_cancel _ b
  next => cases hstep

theorem woken_resumed {b : Nat} {v v' : ConnectionPoolRun.World Nat}
    (hstep : v.step (.resume b) = some v') :
    v'.pool.queue.woken.length + 1 = v.pool.queue.woken.length := by
  simp only [ConnectionPoolRun.World.step] at hstep
  split at hstep
  next hb =>
    cases hstep
    rw [resumed_pool]
    dsimp only
    rw [AsyncQueue.woken_resume]
    exact List.length_erase_add_one hb
  next => cases hstep

/-- A move of a call costs one. -/
theorem Move.pays {x x' : Call α} {label : Label α} (hmove : Move self w i x label pool x') :
    x'.budget self + pool.pool.queue.woken.length + 1 ≤
      x.budget self + w.pool.pool.queue.woken.length := by
  cases hmove with
  | tried refusal _ hphase hpool =>
      have hbudget : (x.tries refusal (w.pool.pool.acquire i refusal.isNone).1).budget self + 1 ≤
          x.budget self := budget_tries hphase refusal _
      rw [woken_acquire hpool]
      omega
  | resumed _ hphase hpool =>
      have hwoken := woken_resumed hpool
      rw [budget_resumed hphase]
      omega
  | responded channel outcome _ hphase hpool =>
      have hwoken := woken_release hpool
      have hbudget : (x.responds self channel outcome).budget self + 2 ≤ x.budget self :=
        budget_responds hphase outcome
      omega
  | dropped hphase =>
      have hbudget : x.budget self = 3 * max 1 (x.left self) := by rw [Call.budget, hphase]
      rw [budget_cancelled]
      omega
  | abandoned _ hphase hpool =>
      have hwoken := woken_cancel hpool
      have hbudget : x.budget self = 3 * x.left self + 2 := by rw [Call.budget, hphase]
      rw [budget_cancelled]
      omega
  | interrupted channel _ hphase hpool =>
      have hwoken := woken_release hpool
      have hbudget : x.budget self = 3 * x.left self + 2 := by rw [Call.budget, hphase]
      rw [budget_cancelled]
      omega

end Pool

theorem Move.cost_eq {w : World α} {i : Nat} {x x' : Call α} {label : Label α}
    {pool : ConnectionPoolRun.World Nat} (hmove : Move self w i x label pool x') :
    label.cost = 1 ∧ label.gain self = 0 := by
  cases hmove <;> exact ⟨rfl, rfl⟩

/-- **Step lemma**: the potential pays for every step. -/
theorem pays : Pays (World.step (α := α) self) (World.potential self) Label.cost
    (Label.gain self) := by
  intro w label w' hstep
  cases effect_of_step hstep with
  | arrived timeout retries =>
      have hnew := budget_new (α := α) self timeout retries
      unfold World.potential Label.cost Label.gain
      dsimp only
      rw [weight_append, weight_cons, weight_nil, hnew]
      omega
  | moved i x x' _ pool hx hmove =>
      have hpays := hmove.pays
      have hset := weight_set (Call.budget self) hx x'
      obtain ⟨hcost, hgain⟩ := hmove.cost_eq
      rw [hcost, hgain]
      unfold World.potential
      dsimp only
      omega
  | closed => exact Nat.le_refl _

/-- **A run is bounded by the attempts it allows**: it has at most three steps for
each attempt that a call of the run is allowed, not counting the arrivals and
the times the pool is closed. -/
theorem steps_bounded {address : String} {max_connections initial_size : Int} {verify_tls : Bool}
    {tls_certfile : String} {labels : List (Label α)} {w : World α}
    (hrun : run (World.step self)
      (World.init address max_connections initial_size verify_tls tls_certfile) labels = some w) :
    weight Label.cost labels ≤ weight (Label.gain self) labels := by
  have hpaid := run_pays pays hrun
  have hnothing : (World.init address max_connections initial_size verify_tls tls_certfile :
      World α).potential self = 0 := by
    have hwaiting := (ConnectionPool.init_spec (ι := Nat) address max_connections initial_size
      verify_tls tls_certfile).waiting
    have hwoken := (List.append_eq_nil_iff.1 hwaiting).2
    show 0 + List.length _ = 0
    rw [Nat.zero_add, List.length_eq_zero_iff]
    exact hwoken
  omega

theorem steps_bounded_small :
    weight Label.cost smallLabels ≤ weight (Label.gain defaults) smallLabels :=
  steps_bounded run_small

/-! ## Where no call can move -/

/-- A step that a call takes by itself, sooner or later. -/
def Label.own : Label α → Prop
  | .attempt _ _ => True
  | .resume _ => True
  | .respond _ _ => True
  | _ => False

def Call.done (x : Call α) : Prop :=
  match x.phase with
  | .ended _ => True
  | .cancelled => True
  | _ => False

/-- `close` is called only while nobody waits. -/
def ClosesIdle (w : World α) (label : Label α) : Prop :=
  label = .close → w.pool.waiting = []

/-- Every call is over, nobody holds or waits for a channel, and every channel is
idle or closed. -/
structure Finished (w : World α) : Prop where
  done : ∀ x ∈ w.calls, x.done
  held : ∀ i, w.pool.held.get? i = none
  waiting : w.pool.waiting = []
  back : ∀ c, c < w.pool.pool.created → c ∈ w.pool.pool.queue.items ∨ c ∈ w.pool.shut

/-- Nobody waits for a closed pool. -/
def Unstranded (w : World α) : Prop := w.pool.pool.closed = true → w.pool.waiting = []

theorem Unstranded.step {w w' : World α} {label : Label α} (hinv : Unstranded w)
    (hidle : ClosesIdle w label) (hstep : w.step self label = some w') : Unstranded w' := by
  cases effect_of_step hstep with
  | arrived timeout retries => exact hinv
  | moved i x x' _ pool hx hmove =>
      cases hmove.pool_step with
      | inl hsame =>
          rw [Unstranded, hsame]
          exact hinv
      | inr hmoved =>
          obtain ⟨l, hl, hpool⟩ := hmoved
          have hopen : ConnectionPoolRun.ClosesIdle w.pool l := fun heq => by
            rw [heq] at hl
            cases hl
          exact waiting_of_closed hopen hinv (ConnectionPoolRun.effect_of_step hpool)
  | closed => exact fun _ => hidle rfl

/-- The label that moves a call, where it can. -/
theorem step_isSome {w : World α} {i : Nat} {x : Call α} {label : Label α}
    (hi : label.call = some i) (hx : w.calls[i]? = some x)
    (hstep : (w.stepOf self i x label).isSome = true) :
    ∃ w', w.step self label = some w' := by
  obtain ⟨r, hr⟩ := Option.isSome_iff_exists.1 hstep
  refine ⟨⟨r.1, w.calls.set i r.2⟩, ?_⟩
  unfold World.step
  rw [hi]
  dsimp only
  rw [hx, Option.bind_some, hr]
  rfl

section Progress

variable {limit : Int} {w : World α} {i : Nat} {x : Call α}

variable (self) in
/-- A call that is about to make an attempt can make it. -/
theorem attempt_enabled (hfits : Fits limit w) (hx : w.calls[i]? = some x)
    (hphase : x.phase = .between) : ∃ w', w.step self (.attempt i none) = some w' := by
  have hfree : w.pool.place i = .free := by
    rw [hfits.place_eq hx, hphase]
    rfl
  obtain ⟨hheld, hwaiting⟩ := place_eq_free.1 hfree
  refine step_isSome rfl hx ?_
  have hguard : ¬((w.pool.held.get? i).isSome = true ∨ i ∈ w.pool.waiting) := by
    rw [hheld]
    simpa using hwaiting
  simp only [World.stepOf, hphase, ConnectionPoolRun.World.step, if_neg hguard]
  rfl

variable (self) in
/-- The call of the prover ends, with the deadline at the latest. -/
theorem respond_enabled (hfits : Fits limit w) (hx : w.calls[i]? = some x) {channel : Channel}
    (hphase : x.phase = .calling channel) (outcome : Outcome α) :
    ∃ w', w.step self (.respond i outcome) = some w' := by
  have hholds : w.pool.place i = .holds channel := by
    rw [hfits.place_eq hx, hphase]
    rfl
  refine step_isSome rfl hx ?_
  simp only [World.stepOf, hphase, ConnectionPoolRun.World.step, place_eq_holds.1 hholds]
  rfl

variable (self) in
/-- A woken call goes on. -/
theorem resume_enabled (hfits : Fits limit w) (hwoken : i ∈ w.pool.pool.queue.woken) :
    ∃ w', w.step self (.resume i) = some w' := by
  have hwaits : w.placed i = .waits := by
    rw [← hfits.place]
    exact hfits.pool.waits_iff.1 (List.mem_append_right _ hwoken)
  unfold World.placed at hwaits
  cases hx : w.calls[i]? with
  | none =>
      rw [hx] at hwaits
      cases hwaits
  | some x =>
      rw [hx] at hwaits
      have hphase : x.phase = .acquiring := by
        cases hp : x.phase <;> simp [hp, Phase.place] at hwaits
        rfl
      refine step_isSome rfl hx ?_
      simp only [World.stepOf, hphase, ConnectionPoolRun.World.step, if_pos hwoken]
      rfl

/-- Who holds a channel is with the prover. -/
theorem calling_of_held (hfits : Fits limit w) {channel : Channel}
    (hheld : w.pool.held.get? i = some channel) :
    ∃ x, w.calls[i]? = some x ∧ x.phase = .calling channel := by
  have hholds : w.placed i = .holds channel := by
    rw [← hfits.place]
    exact place_eq_holds.2 hheld
  unfold World.placed at hholds
  cases hx : w.calls[i]? with
  | none =>
      rw [hx] at hholds
      cases hholds
  | some x =>
      rw [hx] at hholds
      refine ⟨x, rfl, ?_⟩
      cases hp : x.phase <;> simp [hp, Phase.place] at hholds
      rw [hholds]

/-- **Progress**: where a call is not over, some call can move. -/
theorem exists_own_step (hlimit : 1 ≤ limit) (hfits : Fits limit w) (hopen : Unstranded w)
    (hx : w.calls[i]? = some x) (hdone : ¬x.done) :
    ∃ label w', label.own ∧ w.step self label = some w' := by
  cases hphase : x.phase with
  | between =>
      obtain ⟨w', hstep⟩ := attempt_enabled self hfits hx hphase
      exact ⟨.attempt i none, w', trivial, hstep⟩
  | calling channel =>
      obtain ⟨w', hstep⟩ := respond_enabled self hfits hx hphase
        (.rpcError .DEADLINE_EXCEEDED none)
      exact ⟨.respond i _, w', trivial, hstep⟩
  | ended result => exact absurd (by rw [Call.done, hphase]; trivial) hdone
  | cancelled => exact absurd (by rw [Call.done, hphase]; trivial) hdone
  | acquiring =>
      have hwaits : i ∈ w.pool.waiting := by
        rw [hfits.pool.waits_iff, hfits.place_eq hx, hphase]
        rfl
      have hsome : w.pool.waiting ≠ [] := List.ne_nil_of_mem hwaits
      have hnotClosed : w.pool.pool.closed = false :=
        Bool.eq_false_iff.2 (fun hclosed => hsome (hopen hclosed))
      obtain ⟨b, hwoken⟩ | ⟨b, channel, hheld⟩ :=
        someone_moves hlimit hfits.pool hfits.supply hnotClosed hsome
      · obtain ⟨w', hstep⟩ := resume_enabled self hfits hwoken
        exact ⟨.resume b, w', trivial, hstep⟩
      · obtain ⟨y, hy, hcalling⟩ := calling_of_held hfits hheld
        obtain ⟨w', hstep⟩ := respond_enabled self hfits hy hcalling
          (.rpcError .DEADLINE_EXCEEDED none)
        exact ⟨.respond b _, w', trivial, hstep⟩

/-- Where no call can move, all are over, and the channels are back. -/
theorem settled_finished (hlimit : 1 ≤ limit) (hfits : Fits limit w) (hopen : Unstranded w)
    (hsettled : Settled (World.step self) Label.own w) : Finished w := by
  have hdone : ∀ x ∈ w.calls, x.done := by
    intro x hx
    by_contra hnot
    obtain ⟨i, hi⟩ := List.getElem?_of_mem hx
    obtain ⟨label, w', hown, hstep⟩ := exists_own_step hlimit hfits hopen hi hnot
    rw [hsettled label hown] at hstep
    cases hstep
  have hfree : ∀ i, w.pool.place i = .free := by
    intro i
    rw [hfits.place, World.placed]
    cases hx : w.calls[i]? with
    | none => rfl
    | some x =>
        have hend := hdone x (List.mem_of_getElem? hx)
        unfold Call.done at hend
        show x.phase.place = .free
        cases hp : x.phase <;> simp_all [Phase.place]
  have hheld : ∀ i, w.pool.held.get? i = none := fun i => (place_eq_free.1 (hfree i)).1
  refine ⟨hdone, hheld, ?_, ?_⟩
  · exact List.eq_nil_iff_forall_not_mem.2 (fun i => (place_eq_free.1 (hfree i)).2)
  · intro c hc
    have hplace := hfits.pool.places_eq c
    have hnobody : w.pool.held.values.count c = 0 := by
      refine List.count_eq_zero.2 (fun hmem => ?_)
      obtain ⟨b, hb⟩ := Dict.mem_values.1 hmem
      rw [hheld b] at hb
      cases hb
    rw [ConnectionPoolRun.World.places, hnobody, if_pos hc] at hplace
    by_cases hidle : 0 < w.pool.pool.queue.items.count c
    · exact Or.inl (List.count_pos_iff.1 hidle)
    · exact Or.inr (List.count_pos_iff.1 (by omega))

end Progress

/-! ## Every call ends -/

/-- An own step costs. -/
theorem potential_lt {w w' : World α} {label : Label α} (hown : label.own)
    (hstep : w.step self label = some w') : w'.potential self < w.potential self := by
  have hpays := pays w label w' hstep
  cases label with
  | rpc timeout retries => exact absurd hown id
  | cancel i => exact absurd hown id
  | close => exact absurd hown id
  | _ =>
      simp only [Label.cost, Label.gain] at hpays
      omega

/-- What own steps keep. -/
structure Going (limit : Int) (w : World α) : Prop where
  fits : Fits limit w
  unstranded : Unstranded w

theorem Going.step {limit : Int} {w w' : World α} {label : Label α} (hinv : Going limit w)
    (hidle : ClosesIdle w label) (hstep : w.step self label = some w') : Going limit w' :=
  ⟨hinv.fits.step hstep, hinv.unstranded.step hidle hstep⟩

/-- A call does not close the pool. -/
theorem closesIdle_of_own {w : World α} {label : Label α} (hown : label.own) :
    ClosesIdle w label := by
  rintro rfl
  exact absurd hown id

theorem Going.run {limit : Int} {w w' : World α} {moves : List (Label α)} (hinv : Going limit w)
    (hown : ∀ label ∈ moves, label.own) (hrun : run (World.step self) w moves = some w') :
    Going limit w' :=
  run_invariant (Going limit) Label.own
    (fun _ _ _ hown hinv hstep => hinv.step (closesIdle_of_own hown) hstep) hown hinv hrun

/-- From a good state, the steps of the calls end all of them. -/
theorem exists_finished {limit : Int} (hlimit : 1 ≤ limit) {w : World α} (hinv : Going limit w) :
    ∃ moves w', (∀ label ∈ moves, label.own) ∧ run (World.step self) w moves = some w' ∧
      Finished w' := by
  obtain ⟨moves, w', hown, hrun, hsettled⟩ :=
    exists_settled (World.potential self) (fun _ _ _ hown hstep => potential_lt hown hstep) w
  have hend := hinv.run hown hrun
  exact ⟨moves, w', hown, hrun, settled_finished hlimit hend.fits hend.unstranded hsettled⟩

/-- **Every call ends.**  In every state of every run in which the pool is closed
only while nobody waits: the calls can all come to an end by steps of their own,
they cannot take more of these than the potential, and where none of them can
take one, all are over and every channel is back. -/
theorem calls_end {address : String} {max_connections initial_size : Int} {verify_tls : Bool}
    {tls_certfile : String} (hmax : 1 ≤ max_connections) {labels : List (Label α)} {w : World α}
    (hidle : Along (World.step self) ClosesIdle
      (World.init address max_connections initial_size verify_tls tls_certfile) labels)
    (hrun : run (World.step self)
      (World.init address max_connections initial_size verify_tls tls_certfile) labels = some w) :
    (∃ moves w', (∀ label ∈ moves, label.own) ∧ run (World.step self) w moves = some w' ∧
        Finished w') ∧
      ∀ moves w', (∀ label ∈ moves, label.own) → run (World.step self) w moves = some w' →
        moves.length ≤ w.potential self ∧
          (Settled (World.step self) Label.own w' → Finished w') := by
  have hstart : Going max_connections (World.init address max_connections initial_size verify_tls
      tls_certfile : World α) := by
    refine ⟨.init hmax address initial_size verify_tls tls_certfile, fun hclosed => ?_⟩
    have hopen := (ConnectionPool.init_spec (ι := Nat) address max_connections initial_size
      verify_tls tls_certfile).closed
    cases hopen.symm.trans hclosed
  have hinv : Going max_connections w :=
    run_invariant_along (Going max_connections) ClosesIdle
      (fun _ _ _ hidle hinv hstep => hinv.step hidle hstep) hidle hstart hrun
  refine ⟨exists_finished hmax hinv, ?_⟩
  intro moves w' hown hmoves
  have hend := hinv.run hown hmoves
  refine ⟨?_, fun hsettled => settled_finished hmax hend.fits hend.unstranded hsettled⟩
  have hlength := length_le_potential (World.potential self)
    (fun _ _ _ hown hstep => potential_lt hown hstep) hown hmoves
  omega

/-- A run in which the pool is not closed. -/
theorem closesIdle_along {labels : List (Label α)} (h : Label.close ∉ labels) (w : World α) :
    Along (World.step self) ClosesIdle w labels := by
  induction labels generalizing w with
  | nil => trivial
  | cons label rest ih =>
      rw [List.mem_cons, not_or] at h
      exact ⟨fun heq => absurd heq.symm h.1, fun w' _ => ih h.2 w'⟩

/-- The second call waits for the channel of the first. -/
def waitingLabels : List (Label Unit) := smallLabels.take 4

theorem run_waiting_isSome :
    (run (World.step defaults) smallStart waitingLabels).isSome = true := by
  decide +kernel

def waitingEnd : World Unit :=
  (run (World.step defaults) smallStart waitingLabels).get run_waiting_isSome

theorem calls_end_waiting :
    (∃ moves w', (∀ label ∈ moves, label.own) ∧
        run (World.step defaults) waitingEnd moves = some w' ∧ Finished w') ∧
      ∀ moves w', (∀ label ∈ moves, label.own) →
        run (World.step defaults) waitingEnd moves = some w' →
        moves.length ≤ waitingEnd.potential defaults ∧
          (Settled (World.step defaults) Label.own w' → Finished w') :=
  calls_end (by decide) (closesIdle_along (by simp [waitingLabels, smallLabels]) smallStart)
    (Option.some_get run_waiting_isSome).symm

end ProverNetwork.Ports.ProverCalls
