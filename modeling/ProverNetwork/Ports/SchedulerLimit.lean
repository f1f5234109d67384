import ProverNetwork.Ports.Scheduler

/-!
# How many bodies of `run_task` run at once

`run_task` holds the semaphore while `_safe_execute` runs, and `_safe_execute` only
hands the body over to the event loop.  The semaphore is therefore free again before
the body begins, no call ever waits for it, and the number of bodies under way is
bounded by the calls alone.

## Main results

* `unfinished_step` — what a step does to the number of bodies that are owed.
* `exists_begin` — every body that is owed can be under way at once.
* `limit_of_ten` — at most ten bodies run in every state of a run whose calls leave
  room, and a call that leaves none can be followed by eleven running bodies.
-/

namespace ProverNetwork.Ports

open ProverNetwork.Verified

namespace Scheduler

/-- A body `run_task` handed over that has not finished. -/
def owed (w : Wrapper) : Bool := w.origin = .runTask && w.phase ≠ .finished

/-- A body `run_task` handed over that has begun and not finished. -/
def underWay (w : Wrapper) : Bool := w.origin = .runTask && w.phase = .begun

/-- A body `run_task` handed over that has not begun. -/
def held (w : Wrapper) : Bool := w.origin = .runTask && w.phase = .scheduled

def unfinished (s : Scheduler) : Nat := s.wrappers.countP owed

def running (s : Scheduler) : Nat := s.wrappers.countP underWay

/-- A call that hands a body over finds fewer than ten bodies owed. -/
def LeavesRoom (s : Scheduler) (l : Label) : Prop :=
  s.handsOver l = true → s.unfinished < 10

theorem running_le_unfinished (s : Scheduler) : s.running ≤ s.unfinished := by
  apply List.countP_mono_left
  intro w _ hw
  simp only [underWay, owed, Bool.and_eq_true, decide_eq_true_eq] at hw ⊢
  rw [hw.2]
  exact ⟨hw.1, by decide⟩

/-- A count after one entry has been replaced. -/
theorem countP_set_add {α : Type} {p : α → Bool} {l : List α} {i : Nat} {a b : α}
    (hget : l[i]? = some b) :
    (l.set i a).countP p + (if p b then 1 else 0) = l.countP p + (if p a then 1 else 0) := by
  obtain ⟨hi, hb⟩ := List.getElem?_eq_some_iff.1 hget
  have hpos : p b = true → 0 < l.countP p := by
    intro h
    exact List.countP_pos_iff.2 ⟨b, List.mem_of_getElem? hget, h⟩
  rw [List.countP_set hi, hb]
  split
  next h =>
    have := hpos h
    omega
  next => omega

theorem unfinished_append {s s' : Scheduler} {more : List Wrapper}
    (hmore : s'.wrappers = s.wrappers ++ more) (hnew : ∀ w ∈ more, w.phase = .scheduled) :
    s'.unfinished = s.unfinished + (more.filter (·.origin = .runTask)).length := by
  have hall : more.countP owed = (more.filter (·.origin = .runTask)).length := by
    rw [List.countP_eq_length_filter]
    congr 1
    apply List.filter_congr
    intro w hw
    simp [owed, hnew w hw]
  rw [unfinished, hmore, List.countP_append, hall]
  rfl

/-- No turn of a body makes more of them owed. -/
theorem unfinished_set {s s' : Scheduler} {i : Nat} {w : Wrapper} {after : Phase}
    (hw : s.wrappers[i]? = some w) (hset : s'.wrappers = s.wrappers.set i { w with phase := after })
    (hphase : w.phase = .scheduled ∧ after = .begun ∨ w.phase = .begun ∧ after = .finished) :
    s'.unfinished ≤ s.unfinished := by
  have hsum := countP_set_add (p := owed) (a := { w with phase := after }) hw
  rw [← hset] at hsum
  have howed : owed w = true ∨ owed { w with phase := after } = false := by
    rcases hphase with ⟨hw, -⟩ | ⟨hw, -⟩ <;> by_cases horigin : w.origin = .runTask <;>
      simp [owed, hw, horigin]
  rw [unfinished, unfinished]
  rcases howed with hwas | hnot
  · rw [if_pos hwas] at hsum
    split at hsum <;> omega
  · rw [hnot] at hsum
    simp only [Bool.false_eq_true, if_false] at hsum
    omega

/-- What one step adds to the bodies that are owed: the body the call hands over. -/
theorem unfinished_step {s s' : Scheduler} {l : Label} (hidle : s.Idle)
    (h : step s l = some s') :
    s'.unfinished ≤ s.unfinished + (if s.handsOver l then 1 else 0) ∧
      (s.handsOver l = true → s'.unfinished = s.unfinished + 1) := by
  rcases (step_wrappers hidle h).2 with ⟨more, hmore, hnew, hcount⟩ |
    ⟨i, w, after, hw, hset, hphase, hnone⟩
  · have hsum := unfinished_append hmore hnew
    rw [hcount] at hsum
    constructor
    · exact hsum.le
    · intro hover
      rw [hsum, if_pos hover]
  · constructor
    · exact (unfinished_set hw hset hphase).trans (Nat.le_add_right _ _)
    · intro hover
      rw [hnone] at hover
      cases hover

/-- Where every call leaves room, at most ten bodies are owed. -/
theorem unfinished_le {tasks : List String} {labels : List Label} {s : Scheduler}
    (hroom : Along step LeavesRoom (init tasks) labels)
    (hrun : run step (init tasks) labels = some s) : s.unfinished ≤ 10 := by
  have hboth : s.Idle ∧ s.unfinished ≤ 10 := by
    apply run_invariant_along (fun s => s.Idle ∧ s.unfinished ≤ 10) LeavesRoom _ hroom
      ⟨⟨rfl, rfl⟩, Nat.zero_le 10⟩ hrun
    intro s l s' hleaves hs hstep
    have hnext := (unfinished_step hs.1 hstep).1
    refine ⟨(step_wrappers hs.1 hstep).1, ?_⟩
    by_cases hover : s.handsOver l = true
    · have hlt := hleaves hover
      rw [if_pos hover] at hnext
      omega
    · rw [if_neg hover] at hnext
      exact hnext.trans hs.2
  exact hboth.2

/-- The event loop may give every body that is owed its first turn. -/
theorem exists_begin (s : Scheduler) :
    ∃ turns t, run step s turns = some t ∧ t.running = s.unfinished := by
  -- the induction is on the bodies that have not begun
  induction hn : s.wrappers.countP held generalizing s with
  | zero =>
      refine ⟨[], s, rfl, ?_⟩
      apply List.countP_congr
      intro w hw
      have hbegun := List.countP_eq_zero.1 hn w hw
      simp only [held, underWay, owed, Bool.and_eq_true, decide_eq_true_eq] at hbegun ⊢
      cases hphase : w.phase <;> simp_all
  | succ n ih =>
      have hpos : 0 < s.wrappers.countP held := by omega
      obtain ⟨w, hmem, hheld⟩ := List.countP_pos_iff.1 hpos
      obtain ⟨i, hw⟩ := List.mem_iff_getElem?.1 hmem
      have horigin : w.origin = .runTask ∧ w.phase = .scheduled := by
        simpa [held] using hheld
      have hstep : step s (.begin i) =
          some { s with wrappers := s.wrappers.set i { w with phase := .begun } } := by
        change s.turn i .scheduled .begun = _
        rw [turn, hw]
        exact if_pos horigin.2
      have hfewer : (s.wrappers.set i { w with phase := .begun }).countP held = n := by
        have hsum := countP_set_add (p := held) (a := { w with phase := .begun }) hw
        have hbegun : held { w with phase := .begun } = false := by simp [held]
        rw [hheld, hbegun, hn] at hsum
        simpa using hsum
      have hsame : (s.wrappers.set i { w with phase := .begun }).countP owed =
          s.wrappers.countP owed := by
        have hsum := countP_set_add (p := owed) (a := { w with phase := .begun }) hw
        have hin : owed w = true := by simp [owed, horigin.1, horigin.2]
        have hafter : owed { w with phase := .begun } = true := by simp [owed, horigin.1]
        rw [hin, hafter] at hsum
        exact Nat.add_right_cancel hsum
      obtain ⟨turns, t, hrun, hall⟩ := ih
        { s with wrappers := s.wrappers.set i { w with phase := .begun } } hfewer
      refine ⟨.begin i :: turns, t, ?_, hall.trans hsame⟩
      exact run_cons_eq_some.2 ⟨_, hstep, hrun⟩

/-- **The limit of ten.**  In every state of a run whose calls all leave room, at most
ten bodies of `run_task` are under way.  The condition is exact: a call of a run that
leaves no room can be followed by a state with more than ten under way. -/
theorem limit_of_ten (tasks : List String) (labels : List Label) (s : Scheduler)
    (hrun : run step (init tasks) labels = some s) :
    (Along step LeavesRoom (init tasks) labels → s.running ≤ 10) ∧
      ∀ l s', step s l = some s' → ¬ LeavesRoom s l →
        ∃ turns t, run step (init tasks) (labels ++ l :: turns) = some t ∧ 10 < t.running := by
  constructor
  · intro hroom
    exact (running_le_unfinished s).trans (unfinished_le hroom hrun)
  · intro l s' hstep hfull
    have hover : s.handsOver l = true ∧ 10 ≤ s.unfinished := by
      simpa [LeavesRoom] using hfull
    have hmore := (unfinished_step (run_idle hrun) hstep).2 hover.1
    obtain ⟨turns, t, hbegin, hall⟩ := exists_begin s'
    refine ⟨turns, t, ?_, by omega⟩
    exact run_append_eq_some.2 ⟨s, hrun, run_cons_eq_some.2 ⟨s', hstep, hbegin⟩⟩

/-- Eleven calls, and the first turn of each body. -/
def elevenCalls : List Label :=
  (List.range 11).map (fun n => .runTask "demo" [] (toString n)) ++ (List.range 11).map .begin

theorem elevenCalls_run :
    ∃ s, run step (init ["demo"]) elevenCalls = some s ∧ 10 < s.running := by
  have hrun : ((run step (init ["demo"]) elevenCalls).map running) = some 11 := by
    decide +kernel
  obtain ⟨s, hs, hrunning⟩ := Option.map_eq_some_iff.1 hrun
  exact ⟨s, hs, by omega⟩

/-- Two calls with nothing under way leave room. -/
theorem twoCalls_running :
    ∃ s, run step (init ["demo"]) [.runTask "demo" [] "a", .runTask "demo" [] "b", .begin 0] =
      some s ∧ s.running ≤ 10 := by
  obtain ⟨s, hs⟩ := Option.isSome_iff_exists.1
    (by decide +kernel : (run step (init ["demo"])
      [.runTask "demo" [] "a", .runTask "demo" [] "b", .begin 0]).isSome = true)
  refine ⟨s, hs, (limit_of_ten ["demo"] _ s hs).1 ⟨fun _ => by decide, ?_⟩⟩
  intro s₁ hfirst
  have hone : s₁.unfinished ≤ 1 := (unfinished_step ⟨rfl, rfl⟩ hfirst).1
  exact ⟨fun _ => by omega, fun _ _ => ⟨fun hover => (by cases hover), fun _ _ => trivial⟩⟩

end Scheduler

end ProverNetwork.Ports
