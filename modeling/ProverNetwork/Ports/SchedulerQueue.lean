import ProverNetwork.Ports.Scheduler

/-!
# What the status of a queued task says

The handler marks a pending task `running`, waits for `_safe_execute`, and marks it
`done`.  `_safe_execute` only hands the body over, so a turn of the handler takes a task
from `pending` to `done` while its body is still to begin.  What holds in every run is
the count: a task that is `done` has been handed over once, any other never.

## Main results

* `run_accounted` — every queued task is handed over once, when it becomes `done`.
* `handlerTurn_untruthful` — a turn that finds a pending task leaves a status that is
  not true.
* `status_truthful_iff` — the statuses are true along a run when its handler turns find
  nothing to start, and only then.
-/

namespace ProverNetwork.Ports

open ProverNetwork.Verified

namespace Scheduler

/-- The bodies the handler has started for a queued task. -/
def bodies (s : Scheduler) (task_id : String) : List Wrapper :=
  s.wrappers.filter (fun w => w.origin = .queue && w.task_id = task_id)

/-- The statuses of `tasks_store` are true. -/
structure Truthful (s : Scheduler) : Prop where
  once : ∀ task_id entry, s.tasks_store.get? task_id = some entry →
    (s.bodies task_id).length ≤ 1
  pending : ∀ task_id entry, s.tasks_store.get? task_id = some entry →
    (∀ w ∈ s.bodies task_id, w.phase = .scheduled) → entry.status = .pending
  running : ∀ task_id entry, s.tasks_store.get? task_id = some entry →
    entry.status = .running → ∀ w ∈ s.bodies task_id, w.phase ≠ .finished
  done : ∀ task_id entry, s.tasks_store.get? task_id = some entry →
    entry.status = .done → ∃ w ∈ s.bodies task_id, w.phase = .finished

/-- A turn of the handler finds no pending task. -/
def FindsNothing (s : Scheduler) (l : Label) : Prop :=
  l = .handler → ∀ task_id entry, s.tasks_store.get? task_id = some entry →
    entry.status ≠ .pending

/-! ## One write of the handler -/

theorem get?_setStatus {s : Scheduler} {task_id : String} {entry : Entry}
    (h : s.tasks_store.get? task_id = some entry) (status : Status) (other : String) :
    (s.setStatus task_id status).tasks_store.get? other =
      if other = task_id then some { entry with status := status }
      else s.tasks_store.get? other := by
  unfold setStatus
  rw [h]
  exact Dict.get?_set s.tasks_store task_id other _

@[simp] theorem setStatus_wrappers (s : Scheduler) (task_id : String) (status : Status) :
    (s.setStatus task_id status).wrappers = s.wrappers := by
  rw [setStatus_frame]

@[simp] theorem setStatus_ids (s : Scheduler) (task_id : String) (status : Status) :
    (s.setStatus task_id status).ids = s.ids := by
  rw [setStatus_frame]

@[simp] theorem setStatus_bodies (s : Scheduler) (task_id other : String) (status : Status) :
    (s.setStatus task_id status).bodies other = s.bodies other := by
  simp [bodies]

/-! ## Every queued task is handed over once -/

/-- Identifiers are drawn before they are used, and a queued task has been handed over
once where it is `done` and not at all elsewhere. -/
structure Accounted (s : Scheduler) : Prop where
  drawn : ∀ w ∈ s.wrappers, w.task_id ∈ s.ids
  stored : ∀ task_id entry, s.tasks_store.get? task_id = some entry → task_id ∈ s.ids
  counted : ∀ task_id entry, s.tasks_store.get? task_id = some entry →
    (s.bodies task_id).length = if entry.status = .done then 1 else 0

/-- Marking a task keeps the account where the new status fits the bodies of that task
and the account of the others is right. -/
theorem accounted_mark {s : Scheduler} {task_id : String} {entry : Entry}
    (hdrawn : ∀ w ∈ s.wrappers, w.task_id ∈ s.ids)
    (hstored : ∀ other e, s.tasks_store.get? other = some e → other ∈ s.ids)
    (hothers : ∀ other e, other ≠ task_id → s.tasks_store.get? other = some e →
      (s.bodies other).length = if e.status = .done then 1 else 0)
    (hget : s.tasks_store.get? task_id = some entry) (status : Status)
    (hcount : (s.bodies task_id).length = if status = .done then 1 else 0) :
    (s.setStatus task_id status).Accounted where
  drawn := by simpa using hdrawn
  stored := by
    intro other e he
    rw [get?_setStatus hget] at he
    rw [setStatus_ids]
    by_cases hother : other = task_id
    · rw [hother]
      exact hstored task_id entry hget
    · rw [if_neg hother] at he
      exact hstored other e he
  counted := by
    intro other e he
    rw [get?_setStatus hget] at he
    rw [setStatus_bodies]
    by_cases hother : other = task_id
    · rw [if_pos hother] at he
      rw [hother, hcount, ← Option.some.inj he]
    · rw [if_neg hother] at he
      exact hothers other e hother he

theorem bodies_handed (s : Scheduler) (task_name task_id other : String) (kwargs : Kwargs) :
    bodies { s with wrappers := s.wrappers ++
        [⟨.queue, task_name, task_id, kwargs, .scheduled⟩] } other =
      s.bodies other ++
        if other = task_id then [⟨.queue, task_name, task_id, kwargs, .scheduled⟩] else [] := by
  simp only [bodies, List.filter_append]
  by_cases hother : other = task_id
  · simp [hother]
  · simp [hother, Ne.symm hother]

/-- The body of a task that is marked `running` is handed over, and the task is marked
`done`. -/
theorem Accounted.dispatch {s s₁ : Scheduler} (h : s.Accounted) {task_id : String}
    {entry : Entry} (hget : s.tasks_store.get? task_id = some entry)
    (hstatus : entry.status = .running) {task_name : String} {kwargs : Kwargs}
    (hexec : s.safeExecute .queue task_name task_id kwargs = some s₁) :
    (s₁.setStatus task_id .done).Accounted := by
  have hs₁ := safeExecute_eq_some hexec
  have hnone : s.bodies task_id = [] := by
    have hcount := h.counted task_id entry hget
    rw [hstatus] at hcount
    exact List.eq_nil_of_length_eq_zero hcount
  have hbodies : ∀ other, s₁.bodies other = s.bodies other ++
      if other = task_id then [⟨.queue, task_name, task_id, kwargs, .scheduled⟩] else [] := by
    intro other
    rw [hs₁, bodies_handed]
  have hstore : s₁.tasks_store = s.tasks_store := by rw [hs₁]
  have hids : s₁.ids = s.ids := by rw [hs₁]
  have hget₁ : s₁.tasks_store.get? task_id = some entry := by
    rw [hstore]
    exact hget
  refine accounted_mark ?_ ?_ ?_ hget₁ .done ?_
  · intro w hw
    rw [hs₁] at hw
    rw [hids]
    rcases List.mem_append.1 hw with hold | hnew
    · exact h.drawn w hold
    · rw [List.mem_singleton.1 hnew]
      exact h.stored task_id entry hget
  · rw [hstore, hids]
    exact h.stored
  · intro other e hother he
    rw [hstore] at he
    rw [hbodies, if_neg hother, List.append_nil]
    exact h.counted other e he
  · rw [hbodies, hnone, if_pos rfl]
    rfl

/-- A turn of the handler, over items that are still as they were copied. -/
theorem Accounted.handlePending {items : List (String × Entry)} {s : Scheduler}
    (h : s.Accounted) (hkeys : (items.map Prod.fst).Nodup)
    (hitems : ∀ item ∈ items, s.tasks_store.get? item.1 = some item.2) :
    (handlePending items s).Accounted := by
  induction items generalizing s with
  | nil => exact h
  | cons item rest ih =>
      rcases item with ⟨task_id, task_info⟩
      rw [List.map_cons, List.nodup_cons] at hkeys
      have hget : s.tasks_store.get? task_id = some task_info := hitems _ List.mem_cons_self
      by_cases hpending : task_info.status = .pending
      · rw [handlePending_pending hpending]
        have hzero : (s.bodies task_id).length = 0 := by
          have hcount := h.counted task_id task_info hget
          rwa [hpending] at hcount
        have hrunning : (s.setStatus task_id .running).Accounted :=
          accounted_mark h.drawn h.stored (fun other e _ he => h.counted other e he) hget
            .running hzero
        have hmarked : (s.setStatus task_id .running).tasks_store.get? task_id =
            some { task_info with status := .running } := by
          rw [get?_setStatus hget, if_pos rfl]
        split
        next => exact ⟨hrunning.drawn, hrunning.stored, hrunning.counted⟩
        next s₁ hexec =>
          have hdone := hrunning.dispatch hmarked rfl hexec
          have hstore : s₁.tasks_store = (s.setStatus task_id .running).tasks_store := by
            rw [safeExecute_eq_some hexec]
          apply ih hdone hkeys.2
          intro other hother
          have hne : other.1 ≠ task_id := by
            intro heq
            exact hkeys.1 (List.mem_map.2 ⟨other, hother, heq⟩)
          have hs₁ : s₁.tasks_store.get? task_id =
              some { task_info with status := .running } := by
            rw [hstore, hmarked]
          rw [get?_setStatus hs₁, if_neg hne, hstore, get?_setStatus hget, if_neg hne]
          exact hitems other (List.mem_cons_of_mem _ hother)
      · rw [handlePending_other hpending]
        exact ih h hkeys.2 (fun other hother => hitems other (List.mem_cons_of_mem _ hother))

/-- A new identifier, and bodies for it that are not of the queue. -/
theorem Accounted.grow {s : Scheduler} (h : s.Accounted) (task_id : String)
    (more : List Wrapper) (hmore : ∀ w ∈ more, w.origin ≠ .queue ∧ w.task_id = task_id) :
    Accounted { s with ids := s.ids ++ [task_id], wrappers := s.wrappers ++ more } where
  drawn := by
    intro w hw
    rcases List.mem_append.1 hw with hold | hnew
    · exact List.mem_append_left _ (h.drawn w hold)
    · rw [(hmore w hnew).2]
      exact List.mem_append_right _ (List.mem_singleton_self task_id)
  stored := by
    intro other e he
    exact List.mem_append_left _ (h.stored other e he)
  counted := by
    intro other e he
    have hnone : more.filter (fun w => w.origin = .queue && w.task_id = other) = [] := by
      apply List.filter_eq_nil_iff.2
      intro w hw
      simp [(hmore w hw).1]
    show ((s.wrappers ++ more).filter (fun w => w.origin = .queue && w.task_id = other)).length = _
    rw [List.filter_append, hnone, List.append_nil]
    exact h.counted other e he

/-- A task under a new identifier, which no body carries. -/
theorem Accounted.queue {s : Scheduler} (h : s.Accounted) {task_id : String}
    (hfresh : task_id ∉ s.ids) (task : String) (extra : Kwargs) :
    Accounted { s with
      ids := s.ids ++ [task_id]
      tasks_store := s.tasks_store.set task_id ⟨task, extra, .pending⟩ } where
  drawn := fun w hw => List.mem_append_left _ (h.drawn w hw)
  stored := by
    intro other e he
    rw [Dict.get?_set] at he
    by_cases hother : other = task_id
    · rw [hother]
      exact List.mem_append_right _ (List.mem_singleton_self task_id)
    · rw [if_neg hother] at he
      exact List.mem_append_left _ (h.stored other e he)
  counted := by
    intro other e he
    rw [Dict.get?_set] at he
    by_cases hother : other = task_id
    · have hnone : s.bodies task_id = [] := by
        apply List.filter_eq_nil_iff.2
        intro w hw heq
        simp only [Bool.and_eq_true, decide_eq_true_eq] at heq
        exact hfresh (heq.2 ▸ h.drawn w hw)
      rw [if_pos hother] at he
      rw [hother, ← Option.some.inj he]
      exact congrArg List.length hnone
    · rw [if_neg hother] at he
      exact h.counted other e he

/-- A turn of a body is not counted. -/
theorem Accounted.turn {s : Scheduler} (h : s.Accounted) {i : Nat} {w : Wrapper}
    (hw : s.wrappers[i]? = some w) (after : Phase) :
    Accounted { s with wrappers := s.wrappers.set i { w with phase := after } } := by
  obtain ⟨hi, hwi⟩ := List.getElem?_eq_some_iff.1 hw
  refine ⟨?_, h.stored, ?_⟩
  · intro v hv
    rcases List.mem_or_eq_of_mem_set hv with hold | hnew
    · exact h.drawn v hold
    · rw [hnew]
      exact h.drawn w (List.mem_of_getElem? hw)
  · intro other e he
    rw [← h.counted other e he, bodies, bodies, ← List.countP_eq_length_filter,
      ← List.countP_eq_length_filter, List.countP_set hi, hwi]
    by_cases hthis : (decide (w.origin = .queue) && decide (w.task_id = other)) = true
    · have hpos : 0 < s.wrappers.countP (fun w => w.origin = .queue && w.task_id = other) :=
        List.countP_pos_iff.2 ⟨w, List.mem_of_getElem? hw, hthis⟩
      simp only [hthis, if_true]
      omega
    · rw [if_neg hthis]
      rfl

theorem step_accounted {s s' : Scheduler} {l : Label} (hidle : s.Idle) (h : s.Accounted)
    (hstep : step s l = some s') : s'.Accounted := by
  cases effect_of_step hidle hstep with
  | drawn task_id more _ hmore _ =>
      exact h.grow task_id more (fun w hw => ⟨(hmore w hw).1, (hmore w hw).2.1⟩)
  | queued task extra task_id hfresh => exact h.queue hfresh task extra
  | handler _ =>
      apply h.handlePending s.tasks_store.nodup
      intro item hitem
      exact (Dict.mem_items_iff s.tasks_store item.1 item.2).1 hitem
  | turned i w after hw _ _ => exact h.turn hw after

theorem run_accounted {tasks : List String} {labels : List Label} {s : Scheduler}
    (hrun : run step (init tasks) labels = some s) : s.Accounted := by
  have hempty : (init tasks).Accounted :=
    ⟨fun _ hw => absurd hw List.not_mem_nil, fun _ _ he => (by cases he), fun _ _ he => (by cases he)⟩
  have hboth : s.Idle ∧ s.Accounted := by
    apply run_invariant (fun s => s.Idle ∧ s.Accounted) (fun _ => True) _ (fun _ _ => trivial)
      ⟨⟨rfl, rfl⟩, hempty⟩ hrun
    intro s l s' _ hs hstep
    exact ⟨(step_wrappers hs.1 hstep).1, step_accounted hs.1 hs.2 hstep⟩
  exact hboth.2

/-! ## The statuses along a run -/

/-- Nothing was taken from the queue yet. -/
structure Untouched (s : Scheduler) : Prop where
  all_pending : ∀ task_id entry, s.tasks_store.get? task_id = some entry →
    entry.status = .pending
  no_queue : ∀ w ∈ s.wrappers, w.origin ≠ .queue

theorem Untouched.bodies_nil {s : Scheduler} (h : s.Untouched) (task_id : String) :
    s.bodies task_id = [] := by
  apply List.filter_eq_nil_iff.2
  intro w hw
  simp [h.no_queue w hw]

theorem Untouched.truthful {s : Scheduler} (h : s.Untouched) : s.Truthful where
  once := by
    intro task_id entry _
    rw [h.bodies_nil]
    exact Nat.zero_le 1
  pending := fun task_id entry hget _ => h.all_pending task_id entry hget
  running := by
    intro task_id entry hget hrunning
    rw [h.all_pending task_id entry hget] at hrunning
    cases hrunning
  done := by
    intro task_id entry hget hdone
    rw [h.all_pending task_id entry hget] at hdone
    cases hdone

theorem handlePending_nothing {items : List (String × Entry)}
    (h : ∀ item ∈ items, item.2.status ≠ .pending) (s : Scheduler) :
    handlePending items s = s := by
  induction items with
  | nil => rfl
  | cons item rest ih =>
      rcases item with ⟨task_id, task_info⟩
      rw [handlePending_other (h _ List.mem_cons_self)]
      exact ih (fun other hother => h other (List.mem_cons_of_mem _ hother))

/-- A step that finds nothing to start leaves the queue untouched. -/
theorem step_untouched {s s' : Scheduler} {l : Label} (hidle : s.Idle) (h : s.Untouched)
    (hnothing : FindsNothing s l) (hstep : step s l = some s') : s'.Untouched := by
  cases effect_of_step hidle hstep with
  | drawn task_id more _ hmore _ =>
      refine ⟨h.all_pending, ?_⟩
      intro w hw
      rcases List.mem_append.1 hw with hold | hnew
      · exact h.no_queue w hold
      · exact (hmore w hnew).1
  | queued task extra task_id _ =>
      refine ⟨?_, h.no_queue⟩
      intro other e he
      rw [Dict.get?_set] at he
      split at he
      · rw [← Option.some.inj he]
      · exact h.all_pending other e he
  | handler _ =>
      have hsame : s.handlerTurn = s := by
        apply handlePending_nothing
        intro item hitem
        exact hnothing rfl item.1 item.2
          ((Dict.mem_items_iff s.tasks_store item.1 item.2).1 hitem)
      rw [hsame]
      exact h
  | turned i w after hw _ _ =>
      refine ⟨h.all_pending, ?_⟩
      intro v hv
      rcases List.mem_or_eq_of_mem_set hv with hold | hnew
      · exact h.no_queue v hold
      · rw [hnew]
        exact h.no_queue w (List.mem_of_getElem? hw)

/-- A status other than `pending` never becomes `pending` again. -/
theorem setStatus_stays {s : Scheduler} {task_id : String} {entry : Entry}
    (hget : s.tasks_store.get? task_id = some entry) (hstatus : entry.status ≠ .pending)
    (other : String) (status : Status) (hnew : status ≠ .pending) :
    ∃ e, (s.setStatus other status).tasks_store.get? task_id = some e ∧ e.status ≠ .pending := by
  by_cases hother : task_id = other
  · rw [← hother, get?_setStatus hget, if_pos rfl]
    exact ⟨{ entry with status := status }, rfl, hnew⟩
  · have hsame : (s.setStatus other status).tasks_store.get? task_id = some entry := by
      unfold setStatus
      split
      · rw [Dict.get?_set, if_neg hother]
        exact hget
      · exact hget
    exact ⟨entry, hsame, hstatus⟩

theorem handlePending_stays (items : List (String × Entry)) {s : Scheduler} {task_id : String}
    {entry : Entry} (hget : s.tasks_store.get? task_id = some entry)
    (hstatus : entry.status ≠ .pending) :
    ∃ e, (handlePending items s).tasks_store.get? task_id = some e ∧ e.status ≠ .pending := by
  induction items generalizing s entry with
  | nil => exact ⟨entry, hget, hstatus⟩
  | cons item rest ih =>
      rcases item with ⟨other, task_info⟩
      by_cases hpending : task_info.status = .pending
      · rw [handlePending_pending hpending]
        obtain ⟨e, he, hne⟩ := setStatus_stays hget hstatus other .running (by simp)
        split
        next => exact ⟨e, he, hne⟩
        next s₁ hexec =>
          have hs₁ : s₁.tasks_store.get? task_id = some e := by
            rw [safeExecute_eq_some hexec]
            exact he
          obtain ⟨e', he', hne'⟩ := setStatus_stays hs₁ hne other .done (by simp)
          exact ih he' hne'
      · rw [handlePending_other hpending]
        exact ih hget hstatus

/-- The first pending task of a turn leaves it with another status. -/
theorem handlePending_leaves {items : List (String × Entry)} {s : Scheduler}
    (hitems : ∀ item ∈ items, s.tasks_store.get? item.1 = some item.2)
    (hfound : ∃ item ∈ items, item.2.status = .pending) :
    ∃ task_id e, (handlePending items s).tasks_store.get? task_id = some e ∧
      e.status ≠ .pending := by
  induction items with
  | nil =>
      obtain ⟨item, hmem, -⟩ := hfound
      cases hmem
  | cons item rest ih =>
      rcases item with ⟨task_id, task_info⟩
      have hget : s.tasks_store.get? task_id = some task_info := hitems _ List.mem_cons_self
      by_cases hpending : task_info.status = .pending
      · rw [handlePending_pending hpending]
        have hmarked : (s.setStatus task_id .running).tasks_store.get? task_id =
            some { task_info with status := .running } := by
          rw [get?_setStatus hget, if_pos rfl]
        split
        next => exact ⟨task_id, { task_info with status := .running }, hmarked, by simp⟩
        next s₁ hexec =>
          have hs₁ : s₁.tasks_store.get? task_id =
              some { task_info with status := .running } := by
            rw [safeExecute_eq_some hexec]
            exact hmarked
          obtain ⟨e, he, hne⟩ := setStatus_stays hs₁ (by simp) task_id .done (by simp)
          exact ⟨task_id, handlePending_stays rest he hne⟩
      · rw [handlePending_other hpending]
        apply ih (fun other hother => hitems other (List.mem_cons_of_mem _ hother))
        obtain ⟨other, hmem, hother⟩ := hfound
        rcases List.mem_cons.1 hmem with rfl | hrest
        · exact absurd hother hpending
        · exact ⟨other, hrest, hother⟩

/-- A turn of the handler that finds a pending task leaves a status that is not true:
no body of the queue has begun yet. -/
theorem handlerTurn_untruthful {s : Scheduler} (h : s.Untouched)
    (hfound : ¬ FindsNothing s .handler) : ¬ s.handlerTurn.Truthful := by
  intro htrue
  have hitems : ∀ item ∈ s.tasks_store.items, s.tasks_store.get? item.1 = some item.2 :=
    fun item hitem => (Dict.mem_items_iff s.tasks_store item.1 item.2).1 hitem
  have hpending : ∃ item ∈ s.tasks_store.items, item.2.status = .pending := by
    by_contra hnone
    apply hfound
    intro _ task_id entry hget hstatus
    exact hnone ⟨(task_id, entry), (Dict.mem_items_iff _ _ _).2 hget, hstatus⟩
  obtain ⟨task_id, e, he, hne⟩ := handlePending_leaves hitems hpending
  obtain ⟨more, hmore, hframe⟩ := handlePending_frame s.tasks_store.items s
  have hwrappers : s.handlerTurn.wrappers = s.wrappers ++ more := by
    rw [handlerTurn, hframe]
  apply hne
  apply htrue.pending task_id e he
  intro w hw
  rw [bodies, hwrappers, List.mem_filter] at hw
  rcases List.mem_append.1 hw.1 with hold | hnew
  · have hqueue : w.origin = .queue ∧ w.task_id = task_id := by simpa using hw.2
    exact absurd hqueue.1 (h.no_queue w hold)
  · exact (hmore w hnew).2

/-- From a state where nothing was taken from the queue, the statuses stay true only as
long as the handler finds nothing. -/
theorem along_of_truthful {s t : Scheduler} {labels : List Label} (hidle : s.Idle)
    (h : s.Untouched) (hrun : run step s labels = some t)
    (htrue : ∀ first rest u, labels = first ++ rest → run step s first = some u → u.Truthful) :
    Along step FindsNothing s labels := by
  induction labels generalizing s with
  | nil => trivial
  | cons l rest ih =>
      obtain ⟨s₁, hstep, hrest⟩ := run_cons_eq_some.1 hrun
      have hnothing : FindsNothing s l := by
        by_contra hfound
        have hhandler : l = .handler := by
          by_contra hother
          exact hfound (fun heq => absurd heq hother)
        subst hhandler
        have hs₁ := (step_handler_eq_some hstep).2
        have hreached := htrue [.handler] rest s₁ rfl (run_cons_eq_some.2 ⟨s₁, hstep, rfl⟩)
        rw [hs₁] at hreached
        exact handlerTurn_untruthful h hfound hreached
      refine ⟨hnothing, ?_⟩
      intro s₂ hs₂
      have heq : s₂ = s₁ := Option.some.inj (hs₂.symm.trans hstep)
      rw [heq]
      apply ih (step_wrappers hidle hstep).1 (step_untouched hidle h hnothing hstep) hrest
      intro first later u hsplit hfirst
      exact htrue (l :: first) later u (by rw [hsplit]; rfl)
        (run_cons_eq_some.2 ⟨s₁, hstep, hfirst⟩)

/-- **The statuses of the queue.**  They are true in every state a run reaches if and
only if no turn of the handler in it finds a pending task.  In every run, whatever the
handler finds, a task that is `done` has been handed over exactly once, and a task with
another status never. -/
theorem status_truthful_iff (tasks : List String) (labels : List Label) (s : Scheduler)
    (hrun : run step (init tasks) labels = some s) :
    ((∀ first rest t, labels = first ++ rest → run step (init tasks) first = some t →
        t.Truthful) ↔ Along step FindsNothing (init tasks) labels) ∧
      ∀ task_id entry, s.tasks_store.get? task_id = some entry →
        (s.bodies task_id).length = if entry.status = .done then 1 else 0 := by
  have hfresh : (init tasks).Untouched :=
    ⟨fun _ _ he => (by cases he), fun _ hw => absurd hw List.not_mem_nil⟩
  refine ⟨⟨along_of_truthful ⟨rfl, rfl⟩ hfresh hrun, ?_⟩, (run_accounted hrun).counted⟩
  intro hnothing first rest t hsplit hfirst
  rw [hsplit] at hnothing
  have hboth : t.Idle ∧ t.Untouched := by
    apply run_invariant_along (fun s => s.Idle ∧ s.Untouched) FindsNothing _ hnothing.of_append
      ⟨⟨rfl, rfl⟩, hfresh⟩ hfirst
    intro s l s' hC hs hstep
    exact ⟨(step_wrappers hs.1 hstep).1, step_untouched hs.1 hs.2 hC hstep⟩
  exact hboth.2.truthful

/-- One task is queued, and the handler takes its turn. -/
def queuedOnce : List Label := [.runTaskByQueue "demo" [] "a", .handler]

/-- The task is `done`, and its body has not begun. -/
theorem queuedOnce_untrue :
    ∃ s, run step (init ["demo"]) queuedOnce = some s ∧ ¬ s.Truthful := by
  have hpending : Untouched { init ["demo"] with
      tasks_store := Dict.empty.set "a" ⟨"demo", [], .pending⟩, ids := ["a"] } := by
    refine ⟨?_, fun _ hw => absurd hw List.not_mem_nil⟩
    intro task_id entry hget
    rw [Dict.get?_set] at hget
    split at hget
    · rw [← Option.some.inj hget]
    · cases hget
  refine ⟨handlerTurn { init ["demo"] with
      tasks_store := Dict.empty.set "a" ⟨"demo", [], .pending⟩, ids := ["a"] }, rfl, ?_⟩
  apply handlerTurn_untruthful hpending
  intro hnothing
  exact hnothing rfl "a" ⟨"demo", [], .pending⟩ (Dict.get?_set_self _ _ _) rfl

/-- A task is queued, and a body of `run_task` runs meanwhile. -/
theorem queuedOnce_waiting :
    ∃ s, run step (init ["demo"]) [.runTaskByQueue "demo" [] "a", .runTask "demo" [] "b",
      .begin 0] = some s ∧ s.Truthful := by
  obtain ⟨s, hs⟩ := Option.isSome_iff_exists.1
    (by decide +kernel : (run step (init ["demo"]) [.runTaskByQueue "demo" [] "a",
      .runTask "demo" [] "b", .begin 0]).isSome = true)
  have hnothing : Along step FindsNothing (init ["demo"]) [.runTaskByQueue "demo" [] "a",
      .runTask "demo" [] "b", .begin 0] :=
    ⟨fun h => (by cases h), fun _ _ => ⟨fun h => (by cases h), fun _ _ =>
      ⟨fun h => (by cases h), fun _ _ => trivial⟩⟩⟩
  exact ⟨s, hs, (status_truthful_iff ["demo"] _ s hs).1.2 hnothing _ [] s
    (List.append_nil _).symm hs⟩

end Scheduler

end ProverNetwork.Ports
