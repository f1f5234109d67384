import Mathlib.Data.Rat.Floor
import Mathlib.Tactic.Linarith
import ProverNetwork.Ports.NodeListSelection
import ProverNetwork.Verified.Heartbeat

/-!
# When a node leaves the list

Nodes register again and again, and a job drops those that have not for ten
minutes.  Registrations, selections and runs of the job come in any order, at
times that do not decrease; times are seconds since the epoch, cut to whole
seconds where they are stored and where they are compared.

The times of the registrations and of the runs are ghost state.

## Main results

* `FreshInv`, `PresentInv` — what is in the list is fresh, what is fresh is in
  the list.
* `eviction_timing` — a node is dropped neither early nor late.
-/

namespace ProverNetwork.Ports.NodeListHistory

open ProverNetwork.Verified
open ProverNetwork.Ports
open ProverNetwork.Ports.NodeList

/-- `update_node_list`. -/
def updateNodeList (l : NodeList) (now : ℚ) : NodeList :=
  (l.setTimeout 600).removeInactiveNodes now

/-! ## Whole seconds -/

theorem wholeSeconds_eq_floor {t : ℚ} (ht : 0 ≤ t) : wholeSeconds t = ⌊t⌋ := by
  rw [Rat.floor_def', wholeSeconds]
  exact Int.tdiv_eq_ediv_of_nonneg (Rat.num_nonneg.2 ht)

/-- Times no further apart than a number of seconds are no further apart once
cut. -/
theorem wholeSeconds_sub_le {s t : ℚ} {n : ℤ} (hs : 0 ≤ s) (ht : 0 ≤ t) (h : t - s ≤ n) :
    wholeSeconds t - wholeSeconds s ≤ n := by
  rw [wholeSeconds_eq_floor hs, wholeSeconds_eq_floor ht]
  have hle : t ≤ s + n := by linarith
  have hfloor := Int.floor_mono hle
  rw [Int.floor_add_intCast] at hfloor
  omega

/-- Cut times no further apart than a number of seconds come from times less
than a second more apart. -/
theorem sub_lt_of_wholeSeconds {s t : ℚ} {n : ℤ} (hs : 0 ≤ s) (ht : 0 ≤ t)
    (h : wholeSeconds t - wholeSeconds s ≤ n) : t - s < n + 1 := by
  rw [wholeSeconds_eq_floor hs, wholeSeconds_eq_floor ht] at h
  have hlow : (⌊s⌋ : ℚ) ≤ s := Int.floor_le s
  have hhigh : t < ⌊t⌋ + 1 := Int.lt_floor_add_one t
  have hcast : (⌊t⌋ : ℚ) - ⌊s⌋ ≤ n := by exact_mod_cast h
  linarith

/-! ## Runs in time -/

/-- What happens to the list, and when. -/
inductive Event
  | add (grpc_info http_info : String) (now : ℚ)
  | getNode (size : Nat) (sample : List String) (now : ℚ)
  | job (now : ℚ)

def Event.time : Event → ℚ
  | .add _ _ now => now
  | .getNode _ _ now => now
  | .job now => now

/-- A selection draws from the keys. -/
def Event.Draws (l : NodeList) : Event → Prop
  | .getNode size sample _ => Sampled l size sample
  | _ => True

instance (l : NodeList) : (e : Event) → Decidable (e.Draws l)
  | .getNode size sample _ => inferInstanceAs (Decidable (Sampled l size sample))
  | .add _ _ _ => isTrue trivial
  | .job _ => isTrue trivial

/-- The list, the time of the latest event, and when pairs were registered and
the job was run. -/
structure Timed where
  list : NodeList
  clock : ℚ
  adds : List ((String × String) × ℚ)
  jobs : List ℚ

/-- The hub starts. -/
def Timed.initial (start : ℚ) : Timed := ⟨.init, start, [], []⟩

section Digest

variable (digest : String → String)

def Timed.after (w : Timed) : Event → Timed
  | .add grpc_info http_info now =>
      { w with
        list := w.list.add digest grpc_info http_info now
        clock := now
        adds := w.adds ++ [((grpc_info, http_info), now)] }
  | .getNode _ _ now => { w with clock := now }
  | .job now =>
      { w with list := updateNodeList w.list now, clock := now, jobs := w.jobs ++ [now] }

/-- A step; the clock does not go back, and a selection draws from the keys. -/
def Timed.step (w : Timed) (e : Event) : Option Timed :=
  if w.clock ≤ e.time ∧ e.Draws w.list then some (w.after digest e) else none

variable {digest}

theorem step_eq_some {w w' : Timed} {e : Event} (h : w.step digest e = some w') :
    w.clock ≤ e.time ∧ w' = w.after digest e := by
  unfold Timed.step at h
  split at h
  next henabled => exact ⟨henabled.1, (Option.some.inj h).symm⟩
  next => cases h

@[simp] theorem after_clock (w : Timed) (e : Event) : (w.after digest e).clock = e.time := by
  cases e <;> rfl

/-! ## The clock and the log -/

/-- The ghost times lie between the start and the clock. -/
structure ClockInv (start : ℚ) (w : Timed) : Prop where
  start_le : start ≤ w.clock
  adds_le : ∀ b ∈ w.adds, start ≤ b.2 ∧ b.2 ≤ w.clock
  jobs_le : ∀ j ∈ w.jobs, start ≤ j ∧ j ≤ w.clock

theorem step_clockInv {start : ℚ} {w w' : Timed} {e : Event} (hinv : ClockInv start w)
    (hstep : w.step digest e = some w') : ClockInv start w' := by
  obtain ⟨hclock, rfl⟩ := step_eq_some hstep
  have hstart : start ≤ e.time := hinv.start_le.trans hclock
  have hadds : ∀ b ∈ w.adds, start ≤ b.2 ∧ b.2 ≤ e.time :=
    fun b hb => ⟨(hinv.adds_le b hb).1, (hinv.adds_le b hb).2.trans hclock⟩
  have hjobs : ∀ j ∈ w.jobs, start ≤ j ∧ j ≤ e.time :=
    fun j hj => ⟨(hinv.jobs_le j hj).1, (hinv.jobs_le j hj).2.trans hclock⟩
  cases e with
  | add g h now =>
      refine ⟨hstart, ?_, hjobs⟩
      intro b hb
      rcases List.mem_append.1 hb with hold | hnew
      · exact hadds b hold
      · rw [List.mem_singleton.1 hnew]
        exact ⟨hstart, le_refl now⟩
  | getNode size sample now => exact ⟨hstart, hadds, hjobs⟩
  | job now =>
      refine ⟨hstart, hadds, ?_⟩
      intro j hj
      rcases List.mem_append.1 hj with hold | hnew
      · exact hjobs j hold
      · rw [List.mem_singleton.1 hnew]
        exact ⟨hstart, le_refl now⟩

/-- A run only adds registrations, and not before its start. -/
theorem run_adds {events : List Event} {w w' : Timed}
    (hrun : run (Timed.step digest) w events = some w') :
    ∃ late, w'.adds = w.adds ++ late ∧ w.clock ≤ w'.clock ∧ ∀ b ∈ late, w.clock ≤ b.2 := by
  induction events generalizing w with
  | nil =>
      rw [← Option.some.inj hrun]
      exact ⟨[], (List.append_nil _).symm, le_refl _, by simp⟩
  | cons e rest ih =>
      obtain ⟨u, hstep, hrest⟩ := run_cons_eq_some.1 hrun
      obtain ⟨late, hadds, hclock, hlate⟩ := ih hrest
      obtain ⟨htime, rfl⟩ := step_eq_some hstep
      rw [after_clock] at hclock hlate
      have hmore : ∃ now, (w.after digest e).adds = w.adds ++ now ∧ ∀ b ∈ now, w.clock ≤ b.2 := by
        cases e with
        | add g h now =>
            refine ⟨[((g, h), now)], rfl, ?_⟩
            intro b hb
            rw [List.mem_singleton.1 hb]
            exact htime
        | getNode size sample now => exact ⟨[], (List.append_nil _).symm, by simp⟩
        | job now => exact ⟨[], (List.append_nil _).symm, by simp⟩
      obtain ⟨now, hnow, hnowle⟩ := hmore
      refine ⟨now ++ late, by rw [hadds, hnow, List.append_assoc], htime.trans hclock, ?_⟩
      intro b hb
      rcases List.mem_append.1 hb with hb | hb
      · exact hnowle b hb
      · exact htime.trans (hlate b hb)

/-! ## What is in the list is fresh -/

/-- Every node stands under its key, carries the time of the last registration of
its pair, and was fresh when the job was last run. -/
def FreshInv (digest : String → String) (w : Timed) : Prop :=
  ∀ key node, w.list.nodes.get? key = some node → keyOf digest node = key ∧
    ∃ a, lastBeat (pairOf node) w.adds = some a ∧ node.timestamp = wholeSeconds a ∧
      ∀ j ∈ w.jobs.getLast?, wholeSeconds j - node.timestamp ≤ 600

theorem lastBeat_mem {p : String × String} {adds : List ((String × String) × ℚ)} {a : ℚ}
    (h : lastBeat p adds = some a) : (p, a) ∈ adds :=
  mem_beatsOf.1 (List.mem_of_getLast? h)

theorem FreshInv.add {start : ℚ} (hstart : 0 ≤ start) {w : Timed} (hinv : FreshInv digest w)
    (hclock : ClockInv start w) (g h : String) {now : ℚ} (hnow : w.clock ≤ now) :
    FreshInv digest (w.after digest (.add g h now)) := by
  intro key node hget
  have hadd : (w.list.add digest g h now).nodes.get? key = some node := hget
  rw [add_get?] at hadd
  by_cases hkey : key = generateUnique digest g h
  · rw [if_pos hkey, Option.some.injEq] at hadd
    subst hadd
    refine ⟨hkey.symm, now, ?_, rfl, ?_⟩
    · show lastBeat (g, h) (w.adds ++ [((g, h), now)]) = some now
      rw [lastBeat_concat, if_pos rfl]
    · intro j hj
      have hmem := hclock.jobs_le j (List.mem_of_getLast? hj)
      have hjob : j - now ≤ (600 : ℤ) := by
        push_cast
        linarith [hmem.2]
      exact wholeSeconds_sub_le (by linarith [hclock.start_le]) (by linarith [hmem.1]) hjob
  · rw [if_neg hkey] at hadd
    obtain ⟨hnode, a, hlast, htime, hfresh⟩ := hinv key node hadd
    refine ⟨hnode, a, ?_, htime, hfresh⟩
    have hpair : pairOf node ≠ (g, h) := by
      intro heq
      rw [pairOf, Prod.mk.injEq] at heq
      apply hkey
      rw [← hnode, keyOf, heq.1, heq.2]
    show lastBeat (pairOf node) (w.adds ++ [((g, h), now)]) = some a
    rw [lastBeat_concat, if_neg hpair, hlast]

theorem FreshInv.job {w : Timed} (hinv : FreshInv digest w) (now : ℚ) :
    FreshInv digest (w.after digest (.job now)) := by
  intro key node hget
  have hkept : ((w.list.setTimeout 600).removeInactiveNodes now).nodes.get? key = some node := hget
  rw [removeInactiveNodes_get?, Option.filter_eq_some_iff] at hkept
  obtain ⟨hold, hage⟩ := hkept
  obtain ⟨hnode, a, hlast, htime, -⟩ := hinv key node hold
  refine ⟨hnode, a, hlast, htime, ?_⟩
  intro j hj
  have hjob : j = now := by
    have hlastJob : (w.jobs ++ [now]).getLast? = some j := hj
    rw [List.getLast?_concat] at hlastJob
    exact (Option.some.inj hlastJob).symm
  rw [hjob]
  exact of_decide_eq_true hage

theorem step_freshInv {start : ℚ} (hstart : 0 ≤ start) {w w' : Timed} {e : Event}
    (hclock : ClockInv start w) (hinv : FreshInv digest w) (hstep : w.step digest e = some w') :
    FreshInv digest w' := by
  obtain ⟨htime, rfl⟩ := step_eq_some hstep
  cases e with
  | add g h now => exact hinv.add hstart hclock g h htime
  | getNode size sample now => exact hinv
  | job now => exact hinv.job now

/-! ## What is fresh is in the list -/

/-- No other pair of the log has the key of `p`. -/
def NoCollision (digest : String → String) (p : String × String)
    (adds : List ((String × String) × ℚ)) : Prop :=
  ∀ b ∈ adds, generateUnique digest b.1.1 b.1.2 = generateUnique digest p.1 p.2 → b.1 = p

/-- A pair that was last registered at most 600 seconds ago is registered. -/
def PresentInv (digest : String → String) (p : String × String) (w : Timed) : Prop :=
  NoCollision digest p w.adds → ∀ a, lastBeat p w.adds = some a → w.clock - a ≤ 600 →
    p ∈ registered w.list

theorem PresentInv.add {p : String × String} {w : Timed} (hinv : PresentInv digest p w)
    (hfresh : FreshInv digest w) (g h : String) {now : ℚ} (hnow : w.clock ≤ now) :
    PresentInv digest p (w.after digest (.add g h now)) := by
  intro hfree a hlast hage
  have hlog : lastBeat p (w.adds ++ [((g, h), now)]) = some a := hlast
  rw [lastBeat_concat] at hlog
  show p ∈ registered (w.list.add digest g h now)
  rw [mem_registered]
  by_cases hp : p = (g, h)
  · subst hp
    refine ⟨generateUnique digest g h, ⟨g, h, wholeSeconds now,
      w.list.generatePoh digest g h (wholeSeconds now)⟩, ?_, rfl⟩
    rw [add_get?, if_pos rfl]
  · rw [if_neg hp] at hlog
    have hold : w.clock - a ≤ 600 := by
      have hnew : now - a ≤ 600 := hage
      linarith
    have hbefore : NoCollision digest p w.adds :=
      fun b hb => hfree b (List.mem_append_left _ hb)
    obtain ⟨key, node, hget, hpair⟩ := mem_registered.1 (hinv hbefore a hlog hold)
    refine ⟨key, node, ?_, hpair⟩
    have hkey : key ≠ generateUnique digest g h := by
      intro heq
      have hnode : keyOf digest node = generateUnique digest p.1 p.2 := by
        rw [← hpair]
        rfl
      rw [(hfresh key node hget).1] at hnode
      have hmem : ((g, h), now) ∈ (w.after digest (.add g h now)).adds :=
        List.mem_append_right _ (List.mem_singleton.2 rfl)
      exact hp (hfree _ hmem (heq.symm.trans hnode)).symm
    rw [add_get?, if_neg hkey]
    exact hget

theorem PresentInv.job {start : ℚ} (hstart : 0 ≤ start) {p : String × String} {w : Timed}
    (hinv : PresentInv digest p w) (hclock : ClockInv start w) (hfresh : FreshInv digest w)
    {now : ℚ} (hnow : w.clock ≤ now) :
    PresentInv digest p (w.after digest (.job now)) := by
  intro hfree a hlast hage
  have hnew : now - a ≤ (600 : ℤ) := by
    push_cast
    exact hage
  have hold : w.clock - a ≤ 600 := by
    have hsame : now - a ≤ 600 := hage
    linarith
  obtain ⟨key, node, hget, hpair⟩ := mem_registered.1 (hinv hfree a hlast hold)
  obtain ⟨-, b, hb, htime, -⟩ := hfresh key node hget
  have hba : b = a := by
    rw [hpair] at hb
    exact Option.some.inj (hb.symm.trans hlast)
  have hadded := hclock.adds_le _ (lastBeat_mem hlast)
  -- at most 600 seconds apart, so at most 600 whole seconds apart
  have hkept : wholeSeconds now - node.timestamp ≤ 600 := by
    rw [htime, hba]
    exact wholeSeconds_sub_le (by linarith [hadded.1]) (by linarith [hclock.start_le]) hnew
  show p ∈ registered ((w.list.setTimeout 600).removeInactiveNodes now)
  refine mem_registered.2 ⟨key, node, ?_, hpair⟩
  rw [removeInactiveNodes_get?, Option.filter_eq_some_iff]
  exact ⟨hget, decide_eq_true hkept⟩

theorem step_presentInv {start : ℚ} (hstart : 0 ≤ start) {p : String × String} {w w' : Timed}
    {e : Event} (hclock : ClockInv start w) (hfresh : FreshInv digest w)
    (hinv : PresentInv digest p w) (hstep : w.step digest e = some w') :
    PresentInv digest p w' := by
  obtain ⟨htime, rfl⟩ := step_eq_some hstep
  cases e with
  | add g h now => exact hinv.add hfresh g h htime
  | getNode size sample now =>
      intro hfree a hlast hage
      have hold : w.clock - a ≤ 600 := (sub_le_sub_right htime a).trans hage
      exact hinv hfree a hlast hold
  | job now => exact hinv.job hstart hclock hfresh htime

/-- What every run keeps. -/
structure EvictionInv (digest : String → String) (start : ℚ) (w : Timed) : Prop where
  clock : ClockInv start w
  fresh : FreshInv digest w
  present : ∀ p, PresentInv digest p w

theorem run_evictionInv {start : ℚ} (hstart : 0 ≤ start) {events : List Event} {w : Timed}
    (hrun : run (Timed.step digest) (Timed.initial start) events = some w) :
    EvictionInv digest start w := by
  refine run_invariant (EvictionInv digest start) (fun _ => True) ?_ (fun _ _ => trivial) ?_ hrun
  · intro w e w' _ hinv hstep
    exact ⟨step_clockInv hinv.clock hstep, step_freshInv hstart hinv.clock hinv.fresh hstep,
      fun p => step_presentInv hstart hinv.clock hinv.fresh (hinv.present p) hstep⟩
  · refine ⟨⟨le_refl start, by simp [Timed.initial], by simp [Timed.initial]⟩, ?_, ?_⟩
    · intro key node hget
      cases hget
    · intro p _ a hlast
      cases hlast

/-! ## Neither early nor late -/

/-- A pair that registers at least every 600 seconds, and did within the last
600, is in the list at every moment from its first registration on. -/
theorem present_since_first_add {start now : ℚ} (hstart : 0 ≤ start) {pre post : List Event}
    {w u : Timed} (hrun : run (Timed.step digest) (Timed.initial start) (pre ++ post) = some w)
    (hpre : run (Timed.step digest) (Timed.initial start) pre = some u) (hnow : w.clock ≤ now)
    {p : String × String} (hfree : NoCollision digest p w.adds)
    (hsteady : Steady 600 (beatsOf p w.adds) now) (hadded : beatsOf p u.adds ≠ []) :
    p ∈ registered u.list := by
  obtain ⟨u', hpre', hpost⟩ := run_append_eq_some.1 hrun
  cases hpre.symm.trans hpre'
  obtain ⟨late, hadds, hclock, hlate⟩ := run_adds hpost
  have hinv := run_evictionInv hstart hpre
  have hlast : lastBeat p u.adds = some ((beatsOf p u.adds).getLast hadded) :=
    List.getLast?_eq_some_getLast hadded
  -- steady up to now, so steady up to the clock of `u`
  have hthen : Steady 600 (beatsOf p u.adds) u.clock := by
    rw [hadds, beatsOf_append] at hsteady
    refine hsteady.of_append (hclock.trans hnow) ?_
    intro t ht
    exact hlate _ (mem_beatsOf.1 ht)
  refine hinv.present p ?_ _ hlast (hthen.last _ hlast)
  intro b hb
  exact hfree b (by rw [hadds]; exact List.mem_append_left _ hb)

/-- Each gap between two runs of the job in a row, before the first and after the
last, is at most a minute. -/
def JobsEveryMinute (start : ℚ) (jobs : List ℚ) (now : ℚ) : Prop :=
  (start :: jobs ++ [now]).IsChain (fun s t => t - s ≤ 60)

theorem JobsEveryMinute.last {start now : ℚ} {jobs : List ℚ}
    (h : JobsEveryMinute start jobs now) : now - (jobs.getLast?.getD start) ≤ 60 := by
  have hgap := (List.isChain_append.1 h).2.2
  refine hgap _ ?_ now rfl
  rcases jobs.eq_nil_or_concat with rfl | ⟨before, j, rfl⟩
  · rfl
  · rw [List.concat_eq_append, ← List.cons_append, List.getLast?_concat, List.getLast?_concat]
    rfl

/-- **Eviction is neither early nor late.**  On a clock that does not go back:

* a pair that registers at least every 600 seconds, and did within the last 600,
  is in the list at every moment from its first registration on;
* a tuple that is handed out carries the time of the last registration of its
  pair, which lies less than 601 seconds before the latest run of the job;
* where the job runs every minute, that registration is less than 661 seconds
  old. -/
theorem eviction_timing {start now : ℚ} (hstart : 0 ≤ start) {events : List Event} {w : Timed}
    (hrun : run (Timed.step digest) (Timed.initial start) events = some w)
    (hnow : w.clock ≤ now) :
    (∀ p pre post u, NoCollision digest p w.adds → Steady 600 (beatsOf p w.adds) now →
      events = pre ++ post → run (Timed.step digest) (Timed.initial start) pre = some u →
      beatsOf p u.adds ≠ [] → p ∈ registered u.list) ∧
    ∀ size sample, Sampled w.list size sample → ∀ t ∈ w.list.getNode size sample,
      ∃ a, lastBeat (tuplePair t) w.adds = some a ∧ t.2.2.1 = wholeSeconds a ∧
        (∀ j ∈ w.jobs.getLast?, j - a < 601) ∧
        (JobsEveryMinute start w.jobs now → now - a < 661) := by
  have hinv := run_evictionInv hstart hrun
  constructor
  · intro p pre post u hfree hsteady hevents hpre hadded
    rw [hevents] at hrun
    exact present_since_first_add hstart hrun hpre hnow hfree hsteady hadded
  · intro size sample hsampled t ht
    rw [getNode_drawn] at ht
    obtain ⟨node, hnode, rfl⟩ := List.mem_map.1 ht
    obtain ⟨key, -, hget⟩ := List.mem_filterMap.1 hnode
    obtain ⟨-, a, hlast, htime, hfresh⟩ := hinv.fresh key node hget
    have hadded := hinv.clock.adds_le _ (lastBeat_mem hlast)
    have hlate : ∀ j ∈ w.jobs.getLast?, j - a < 601 := by
      intro j hj
      have hjob := hinv.clock.jobs_le j (List.mem_of_getLast? hj)
      have hwhole := hfresh j hj
      rw [htime] at hwhole
      have hlt := sub_lt_of_wholeSeconds (by linarith [hadded.1]) (by linarith [hjob.1]) hwhole
      push_cast at hlt
      linarith
    refine ⟨a, hlast, htime, hlate, ?_⟩
    intro hminute
    have hgap := hminute.last
    cases hjobs : w.jobs.getLast? with
    | none =>
        rw [hjobs, Option.getD_none] at hgap
        linarith [hadded.1]
    | some j =>
        rw [hjobs, Option.getD_some] at hgap
        linarith [hlate j hjobs]

end Digest

/-- A node registers, the job runs, it registers again ten minutes later, and the
job runs again. -/
def tenMinutes : List Event :=
  [.add "93.184.216.34:50051" "https://93.184.216.34" 1751328000,
    .job 1751328060,
    .add "93.184.216.34:50051" "https://93.184.216.34" 1751328600,
    .job 1751329200]

theorem tenMinutes_isSome :
    (run (Timed.step sha256Hexdigest) (Timed.initial 1751328000) tenMinutes).isSome := by
  decide +kernel

theorem tenMinutes_present : ∃ w,
    run (Timed.step sha256Hexdigest) (Timed.initial 1751328000) tenMinutes = some w ∧
      ("93.184.216.34:50051", "https://93.184.216.34") ∈ registered w.list := by
  have hrun := (Option.some_get tenMinutes_isSome).symm
  refine ⟨_, hrun, ?_⟩
  have hadds : ((run (Timed.step sha256Hexdigest) (Timed.initial 1751328000) tenMinutes).get
      tenMinutes_isSome).adds =
      [(("93.184.216.34:50051", "https://93.184.216.34"), 1751328000),
        (("93.184.216.34:50051", "https://93.184.216.34"), 1751328600)] := by decide +kernel
  have hnow : ((run (Timed.step sha256Hexdigest) (Timed.initial 1751328000) tenMinutes).get
      tenMinutes_isSome).clock ≤ 1751329200 := by decide +kernel
  have htiming := eviction_timing (by norm_num) hrun hnow
  refine htiming.1 _ tenMinutes [] _ ?_ ?_ (List.append_nil _).symm hrun ?_
  · intro b hb _
    rw [hadds] at hb
    simp only [List.mem_cons, List.not_mem_nil, or_false] at hb
    rcases hb with rfl | rfl <;> rfl
  · rw [hadds]
    constructor
    · simp [beatsOf]
      norm_num
    · simp [beatsOf]
      norm_num
  · rw [hadds]
    simp [beatsOf]

end ProverNetwork.Ports.NodeListHistory
