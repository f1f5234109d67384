import ProverNetwork.Ports.PyVal
import ProverNetwork.Verified.Run

/-!
# The scheduler of the hub

`run_task` and the handler of the queue start the body of a task through
`_safe_execute`, which hands the event loop a wrapper around the body and returns:
the body begins at a later turn of the loop, suspends where it likes, and ends.
No method here suspends but in `asyncio.sleep`, and in the semaphore where that is
locked, so each call runs in one turn.

A wrapper that was handed over is scheduled until its first turn.  The loop gives
first turns in the order of creation; any order is allowed here.  A shutdown is not
part of a run.

## Main results

* `safeExecute_eq_some` — what `_safe_execute` does.
* `handlePending_frame` — what a turn of the handler leaves alone.
* `run_idle` — no call of `run_task` ever finds the semaphore locked.
* `effect_of_step` — what a step does to the queue and the asyncio tasks.
-/

namespace ProverNetwork.Ports

open ProverNetwork.Verified

namespace Scheduler

/-- Keyword arguments. -/
abbrev Kwargs := List (String × PyVal)

/-- Who asked for a body. -/
inductive Origin
  | runTask
  | queue
  | job
  deriving DecidableEq

/-- What has become of a body. -/
inductive Phase
  | scheduled
  | begun
  | finished
  deriving DecidableEq

/-- `task_wrapper`, as an asyncio task. -/
structure Wrapper where
  origin : Origin
  task_name : String
  task_id : String
  kwargs : Kwargs
  phase : Phase

inductive Status
  | pending
  | running
  | done
  deriving DecidableEq

/-- An entry of `tasks_store`. -/
structure Entry where
  task_name : String
  task_args : Kwargs
  status : Status

end Scheduler

/-- The scheduler, with the asyncio tasks it has created.  `waiting` are the calls
that found the semaphore locked, `handling` tells whether the loop of the handler
goes on, and `ids` are the identifiers drawn so far. -/
structure Scheduler where
  tasks : List String
  tasks_store : Dict String Scheduler.Entry
  semaphore : Nat
  waiting : List (String × Scheduler.Kwargs)
  wrappers : List Scheduler.Wrapper
  handling : Bool
  ids : List String

namespace Scheduler

/-- `__init__`, once the modules of the tasks are loaded. -/
def init (tasks : List String) : Scheduler :=
  ⟨tasks, Dict.empty, 10, [], [], true, []⟩

/-- The call binds: no keyword argument has the name of a parameter. -/
def binds (parameters : List String) (kwargs : Kwargs) : Bool :=
  kwargs.all (fun kv => !parameters.contains kv.1)

/-- `_safe_execute`; `none` stands for the `TypeError` of a call that does not
bind. -/
def safeExecute (s : Scheduler) (origin : Origin) (task_name task_id : String)
    (kwargs : Kwargs) : Option Scheduler :=
  if binds ["self", "func", "task_name", "task_id"] kwargs then
    some { s with wrappers := s.wrappers ++ [⟨origin, task_name, task_id, kwargs, .scheduled⟩] }
  else none

/-- `run_task`.  The semaphore is held while `_safe_execute` runs. -/
def runTask (s : Scheduler) (task : String) (extra : Kwargs) (task_id : String) : Scheduler :=
  if binds ["self", "task"] extra then
    if task ∈ s.tasks then
      if s.semaphore = 0 ∨ s.waiting ≠ [] then
        { s with waiting := s.waiting ++ [(task, extra)] }
      else
        let s := { s with semaphore := s.semaphore - 1 }
        let s := (s.safeExecute .runTask task task_id extra).getD s
        { s with semaphore := s.semaphore + 1 }
    else s
  else s

/-- `run_task_by_queue`. -/
def runTaskByQueue (s : Scheduler) (task : String) (extra : Kwargs) (task_id : String) :
    Scheduler :=
  if binds ["self", "task"] extra then
    if task ∈ s.tasks then
      { s with tasks_store := s.tasks_store.set task_id ⟨task, extra, .pending⟩ }
    else s
  else s

/-- `self.tasks_store[task_id]["status"] = status`. -/
def setStatus (s : Scheduler) (task_id : String) (status : Status) : Scheduler :=
  match s.tasks_store.get? task_id with
  | some entry =>
      { s with tasks_store := s.tasks_store.set task_id { entry with status := status } }
  | none => s

/-- The `for` loop of `start_task_handler`, over a copy of the items; a `TypeError`
leaves the handler for good. -/
def handlePending : List (String × Entry) → Scheduler → Scheduler
  | [], s => s
  | (task_id, task_info) :: rest, s =>
      if task_info.status = .pending then
        let s := s.setStatus task_id .running
        match s.safeExecute .queue task_info.task_name task_id task_info.task_args with
        | none => { s with handling := false }
        | some s => handlePending rest (s.setStatus task_id .done)
      else handlePending rest s

/-- One turn of the loop of `start_task_handler`. -/
def handlerTurn (s : Scheduler) : Scheduler := handlePending s.tasks_store.items s

/-- One turn of the loop of a job. -/
def jobTurn (s : Scheduler) (job_name task_id : String) : Scheduler :=
  (s.safeExecute .job job_name task_id []).getD s

/-- A body goes from one phase to the next. -/
def turn (s : Scheduler) (i : Nat) (before after : Phase) : Option Scheduler :=
  match s.wrappers[i]? with
  | none => none
  | some w =>
      if w.phase = before then
        some { s with wrappers := s.wrappers.set i { w with phase := after } }
      else none

/-- What happens on the event loop. -/
inductive Label
  | runTask (task : String) (extra : Kwargs) (task_id : String)
  | runTaskByQueue (task : String) (extra : Kwargs) (task_id : String)
  | handler
  | job (job_name task_id : String)
  | begin (i : Nat)
  | finish (i : Nat)

/-- A call draws an identifier that was not drawn before. -/
def draw (s : Scheduler) (task_id : String) : Option Scheduler :=
  if task_id ∈ s.ids then none else some { s with ids := s.ids ++ [task_id] }

def step (s : Scheduler) : Label → Option Scheduler
  | .runTask task extra task_id => (s.draw task_id).map (·.runTask task extra task_id)
  | .runTaskByQueue task extra task_id =>
      (s.draw task_id).map (·.runTaskByQueue task extra task_id)
  | .handler => if s.handling then some s.handlerTurn else none
  | .job job_name task_id => (s.draw task_id).map (·.jobTurn job_name task_id)
  | .begin i => s.turn i .scheduled .begun
  | .finish i => s.turn i .begun .finished

/-! ## What the methods do -/

theorem safeExecute_eq_some {s s' : Scheduler} {origin : Origin} {task_name task_id : String}
    {kwargs : Kwargs} (h : s.safeExecute origin task_name task_id kwargs = some s') :
    s' = { s with
      wrappers := s.wrappers ++ [⟨origin, task_name, task_id, kwargs, .scheduled⟩] } := by
  unfold safeExecute at h
  split at h
  next => exact (Option.some.inj h).symm
  next => cases h

theorem draw_eq_some {s s' : Scheduler} {task_id : String} (h : s.draw task_id = some s') :
    task_id ∉ s.ids ∧ s' = { s with ids := s.ids ++ [task_id] } := by
  unfold draw at h
  split at h
  next => cases h
  next hfresh => exact ⟨hfresh, (Option.some.inj h).symm⟩

theorem turn_eq_some {s s' : Scheduler} {i : Nat} {before after : Phase}
    (h : s.turn i before after = some s') :
    ∃ w, s.wrappers[i]? = some w ∧ w.phase = before ∧
      s' = { s with wrappers := s.wrappers.set i { w with phase := after } } := by
  unfold turn at h
  split at h
  next => cases h
  next w hw =>
    split at h
    next hphase => exact ⟨w, hw, hphase, (Option.some.inj h).symm⟩
    next => cases h

theorem step_handler_eq_some {s s' : Scheduler} (h : step s .handler = some s') :
    s.handling = true ∧ s' = s.handlerTurn := by
  change (if s.handling then some s.handlerTurn else none) = some s' at h
  split at h
  next hgoes => exact ⟨hgoes, (Option.some.inj h).symm⟩
  next => cases h

/-- The status of a queued task is kept in `tasks_store` and nowhere else. -/
theorem setStatus_frame (s : Scheduler) (task_id : String) (status : Status) :
    s.setStatus task_id status =
      { s with tasks_store := (s.setStatus task_id status).tasks_store } := by
  unfold setStatus
  split <;> rfl

theorem handlePending_pending {task_id : String} {task_info : Entry}
    (h : task_info.status = .pending) (rest : List (String × Entry)) (s : Scheduler) :
    handlePending ((task_id, task_info) :: rest) s =
      match (s.setStatus task_id .running).safeExecute .queue task_info.task_name task_id
          task_info.task_args with
      | none => { s.setStatus task_id .running with handling := false }
      | some s => handlePending rest (s.setStatus task_id .done) := by
  rw [handlePending]
  exact if_pos h

theorem handlePending_other {task_id : String} {task_info : Entry}
    (h : task_info.status ≠ .pending) (rest : List (String × Entry)) (s : Scheduler) :
    handlePending ((task_id, task_info) :: rest) s = handlePending rest s := by
  rw [handlePending]
  exact if_neg h

/-- A turn of the handler adds scheduled bodies of the queue to the asyncio tasks. -/
theorem handlePending_frame (items : List (String × Entry)) (s : Scheduler) :
    ∃ more, (∀ w ∈ more, w.origin = .queue ∧ w.phase = .scheduled) ∧
      handlePending items s =
        { s with
          tasks_store := (handlePending items s).tasks_store
          handling := (handlePending items s).handling
          wrappers := s.wrappers ++ more } := by
  induction items generalizing s with
  | nil => exact ⟨[], by simp, by simp [handlePending]⟩
  | cons item rest ih =>
      rcases item with ⟨task_id, task_info⟩
      by_cases hpending : task_info.status = .pending
      · rw [handlePending_pending hpending]
        have hmark := setStatus_frame s task_id .running
        split
        next =>
          refine ⟨[], by simp, ?_⟩
          rw [hmark]
          simp
        next s₁ hexec =>
          have hs₁ := safeExecute_eq_some hexec
          have hdone := setStatus_frame s₁ task_id .done
          rcases ih (s₁.setStatus task_id .done) with ⟨more, hmore, hrest⟩
          refine ⟨⟨.queue, task_info.task_name, task_id, task_info.task_args, .scheduled⟩ :: more,
            by simpa using hmore, ?_⟩
          rw [hrest, hdone, hs₁, hmark]
          simp
      · rw [handlePending_other hpending]
        exact ih s

/-! ## The semaphore between two turns -/

/-- Nobody holds the semaphore, nobody waits for it. -/
def Idle (s : Scheduler) : Prop := s.semaphore = 10 ∧ s.waiting = []

/-- A call of `run_task` that gets as far as handing a body over. -/
def handsOver (s : Scheduler) : Label → Bool
  | .runTask task extra _ =>
      binds ["self", "task"] extra && decide (task ∈ s.tasks) &&
        binds ["self", "func", "task_name", "task_id"] extra
  | _ => false

/-- `run_task` on a free semaphore: the body is handed over, and the semaphore is
free again. -/
theorem runTask_of_idle {s : Scheduler} (hidle : s.Idle) (task : String) (extra : Kwargs)
    (task_id : String) :
    s.runTask task extra task_id =
      if s.handsOver (.runTask task extra task_id) then
        { s with wrappers := s.wrappers ++ [⟨.runTask, task, task_id, extra, .scheduled⟩] }
      else s := by
  rcases s with ⟨tasks, tasks_store, semaphore, waiting, wrappers, handling, ids⟩
  rcases hidle with ⟨hsem, hwait⟩
  subst hsem hwait
  unfold runTask handsOver
  by_cases hparams : binds ["self", "task"] extra = true
  · by_cases hknown : task ∈ tasks
    · by_cases hbinds : binds ["self", "func", "task_name", "task_id"] extra = true
      · simp [hparams, hknown, hbinds, safeExecute]
      · simp [hparams, hknown, hbinds, safeExecute]
    · simp [hparams, hknown]
  · simp [hparams]

/-- What one step does while the semaphore is free.  A call that draws an identifier hands
over bodies that carry it, at most one of them for `run_task`, or queues a task under it. -/
inductive Effect (s : Scheduler) : Label → Scheduler → Prop
  | drawn {l : Label} (task_id : String) (more : List Wrapper) : task_id ∉ s.ids →
      (∀ w ∈ more, w.origin ≠ .queue ∧ w.task_id = task_id ∧ w.phase = .scheduled) →
      (more.filter (·.origin = .runTask)).length = (if s.handsOver l then 1 else 0) →
      Effect s l { s with ids := s.ids ++ [task_id], wrappers := s.wrappers ++ more }
  | queued (task : String) (extra : Kwargs) (task_id : String) : task_id ∉ s.ids →
      Effect s (.runTaskByQueue task extra task_id) { s with
        ids := s.ids ++ [task_id]
        tasks_store := s.tasks_store.set task_id ⟨task, extra, .pending⟩ }
  | handler : s.handling = true → Effect s .handler s.handlerTurn
  | turned {l : Label} (i : Nat) (w : Wrapper) (after : Phase) : s.wrappers[i]? = some w →
      (w.phase = .scheduled ∧ after = .begun ∨ w.phase = .begun ∧ after = .finished) →
      s.handsOver l = false →
      Effect s l { s with wrappers := s.wrappers.set i { w with phase := after } }

/-- An identifier is drawn and nothing is handed over. -/
theorem Effect.idle {s : Scheduler} {l : Label} {task_id : String} (hfresh : task_id ∉ s.ids)
    (hover : s.handsOver l = false) : Effect s l { s with ids := s.ids ++ [task_id] } := by
  have h : Effect s l { s with ids := s.ids ++ [task_id], wrappers := s.wrappers ++ [] } :=
    Effect.drawn task_id [] hfresh (by simp) (by simp [hover])
  rwa [List.append_nil] at h

theorem effect_of_step {s s' : Scheduler} {l : Label} (hidle : s.Idle)
    (h : step s l = some s') : Effect s l s' := by
  cases l with
  | runTask task extra task_id =>
      obtain ⟨s₁, hdraw, rfl⟩ := Option.map_eq_some_iff.1 h
      obtain ⟨hfresh, rfl⟩ := draw_eq_some hdraw
      have hrun := runTask_of_idle (s := { s with ids := s.ids ++ [task_id] }) hidle task extra
        task_id
      have hsame : handsOver { s with ids := s.ids ++ [task_id] } (.runTask task extra task_id) =
        s.handsOver (.runTask task extra task_id) := rfl
      rw [hrun, hsame]
      by_cases hover : s.handsOver (.runTask task extra task_id) = true
      · rw [if_pos hover]
        exact Effect.drawn task_id [⟨.runTask, task, task_id, extra, .scheduled⟩] hfresh (by simp)
          (by simp [hover])
      · rw [if_neg hover]
        exact Effect.idle hfresh (by simpa using hover)
  | runTaskByQueue task extra task_id =>
      obtain ⟨s₁, hdraw, rfl⟩ := Option.map_eq_some_iff.1 h
      obtain ⟨hfresh, rfl⟩ := draw_eq_some hdraw
      unfold runTaskByQueue
      split
      · split
        · exact Effect.queued task extra task_id hfresh
        · exact Effect.idle hfresh rfl
      · exact Effect.idle hfresh rfl
  | handler =>
      obtain ⟨hgoes, rfl⟩ := step_handler_eq_some h
      exact Effect.handler hgoes
  | job job_name task_id =>
      obtain ⟨s₁, hdraw, rfl⟩ := Option.map_eq_some_iff.1 h
      obtain ⟨hfresh, rfl⟩ := draw_eq_some hdraw
      exact Effect.drawn task_id [⟨.job, job_name, task_id, [], .scheduled⟩] hfresh (by simp) rfl
  | begin i =>
      obtain ⟨w, hw, hphase, rfl⟩ := turn_eq_some h
      exact Effect.turned i w .begun hw (Or.inl ⟨hphase, rfl⟩) rfl
  | finish i =>
      obtain ⟨w, hw, hphase, rfl⟩ := turn_eq_some h
      exact Effect.turned i w .finished hw (Or.inr ⟨hphase, rfl⟩) rfl

/-- What a step does to the asyncio tasks: it schedules some, at most one of them for
a call of `run_task`, or takes one to its next phase. -/
theorem step_wrappers {s s' : Scheduler} {l : Label} (hidle : s.Idle)
    (h : step s l = some s') :
    s'.Idle ∧
    ((∃ more, s'.wrappers = s.wrappers ++ more ∧ (∀ w ∈ more, w.phase = .scheduled) ∧
        (more.filter (·.origin = .runTask)).length =
          if s.handsOver l then 1 else 0) ∨
      (∃ i w after, s.wrappers[i]? = some w ∧
        s'.wrappers = s.wrappers.set i { w with phase := after } ∧
        (w.phase = .scheduled ∧ after = .begun ∨ w.phase = .begun ∧ after = .finished) ∧
        s.handsOver l = false)) := by
  cases effect_of_step hidle h with
  | drawn task_id more _ hmore hcount =>
      exact ⟨hidle, Or.inl ⟨more, rfl, fun w hw => (hmore w hw).2.2, hcount⟩⟩
  | queued task extra task_id _ => exact ⟨hidle, Or.inl ⟨[], by simp, by simp, rfl⟩⟩
  | handler _ =>
      obtain ⟨more, hmore, hframe⟩ := handlePending_frame s.tasks_store.items s
      rw [handlerTurn, hframe]
      refine ⟨hidle, Or.inl ⟨more, rfl, fun w hw => (hmore w hw).2, ?_⟩⟩
      have hnone : more.filter (·.origin = .runTask) = [] := by
        apply List.filter_eq_nil_iff.2
        intro w hw
        simp [(hmore w hw).1]
      rw [hnone]
      rfl
  | turned i w after hw hphase hover =>
      exact ⟨hidle, Or.inr ⟨i, w, after, hw, rfl, hphase, hover⟩⟩

theorem run_idle {tasks : List String} {labels : List Label} {s : Scheduler}
    (hrun : run step (init tasks) labels = some s) : s.Idle := by
  apply run_invariant Idle (fun _ => True) _ (fun _ _ => trivial) ⟨rfl, rfl⟩ hrun
  intro s l s' _ hidle hstep
  exact (step_wrappers hidle hstep).1

end Scheduler

end ProverNetwork.Ports
