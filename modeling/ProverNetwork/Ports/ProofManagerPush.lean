import ProverNetwork.Ports.ProofManagerRun

/-!
# What a push does to a task that exists

`push_task` looks the hash up and tests the status that it finds for truth.  In
the runs of `ProofManagerRun` a task is pending or running, and the pending
status is zero: the test sees a running task and overlooks a pending one.

## Main results

* `sparesTasks_iff` — in any state, a push spares the task that exists if and
  only if its status is true.
* `run_tasksInv` — the tasks of a run are pending or running.
* `push_sparesTasks_iff` — in a run, a push spares the task that exists if and
  only if it is not pending.
-/

namespace ProverNetwork.Ports.ProofManagerRun

open ProverNetwork.Verified
open ProverNetwork.Ports

/-- The cache holds this entry for the hash, and it has not expired. -/
def HoldsLive (pm : ProofManager) (now : ℚ) (h : String) (e : Entry) : Prop :=
  pm.cache.get? h = some e ∧ e.live now = true

/-- A push is refused where there is a task, which stays as it is; and it stores
a pending task where there is none. -/
structure SparesTasks (verify : String → String → Bool) (pm : ProofManager)
    (now : ℚ) (h s : String) : Prop where
  refuses : ∀ e, HoldsLive pm now h e →
    (pushTask verify pm now h s).1 = .error ⟨400, "Proof hash is exist."⟩ ∧
      (pushTask verify pm now h s).2.cache.get? h = some e
  stores : (∀ e, ¬HoldsLive pm now h e) →
    (pushTask verify pm now h s).1 = .ok ⟨STATUS_CODE_SUCCESSFULLY, "Successfully"⟩ ∧
      (pushTask verify pm now h s).2.cache.get? h =
        some ⟨.int TASK_STATUS_PENGDING, some (now + 60)⟩

section Push

variable {verify : String → String → Bool} {pm : ProofManager} {now : ℚ}
  {h s : String} {e : Entry}

theorem answer_of_holdsLive (he : HoldsLive pm now h e) :
    ProofManager.answer now (pm.cache.get? h) = e.value := by
  rw [he.1, ProofManager.answer_live he.2]

theorem answer_of_not_holdsLive (hnone : ∀ e, ¬HoldsLive pm now h e) :
    ProofManager.answer now (pm.cache.get? h) = .none := by
  cases hget : pm.cache.get? h with
  | none => rfl
  | some e =>
      have hdead : ¬e.live now = true := fun hlive => hnone e ⟨hget, hlive⟩
      exact if_neg hdead

/-- A signed push where the lookup answers with a true status. -/
theorem pushTask_truthy (hverify : verify h s = true)
    (hstatus : (ProofManager.answer now (pm.cache.get? h)).truthy = true) :
    pushTask verify pm now h s =
      (.error ⟨400, "Proof hash is exist."⟩, (pm.get now h).2) := by
  have hfound : (pm.get now h).1.truthy = true := by
    rw [ProofManager.get_fst]
    exact hstatus
  unfold pushTask
  rw [hverify]
  exact if_pos hfound

/-- A signed push where the lookup answers with a false status, or with none. -/
theorem pushTask_falsy (hverify : verify h s = true)
    (hstatus : (ProofManager.answer now (pm.cache.get? h)).truthy = false) :
    pushTask verify pm now h s =
      (.ok ⟨STATUS_CODE_SUCCESSFULLY, "Successfully"⟩,
        (pm.get now h).2.set now h (.int TASK_STATUS_PENGDING) (some 60)) := by
  have hfound : ¬(pm.get now h).1.truthy = true := by
    rw [ProofManager.get_fst, hstatus]
    exact Bool.false_ne_true
  unfold pushTask
  rw [hverify]
  exact if_neg hfound

/-- **When a push spares the task that exists**, in any state of the cache. -/
theorem sparesTasks_iff (hverify : verify h s = true) :
    SparesTasks verify pm now h s ↔
      ∀ e, HoldsLive pm now h e → e.value.truthy = true := by
  constructor
  · intro hspares e he
    by_contra hstatus
    have hfalse : (ProofManager.answer now (pm.cache.get? h)).truthy = false := by
      rw [answer_of_holdsLive he]
      simpa using hstatus
    have hrefused := (hspares.refuses e he).1
    rw [pushTask_falsy hverify hfalse] at hrefused
    cases hrefused
  · intro htrue
    refine ⟨fun e he => ?_, fun hnone => ?_⟩
    · have hstatus : (ProofManager.answer now (pm.cache.get? h)).truthy = true := by
        rw [answer_of_holdsLive he]
        exact htrue e he
      rw [pushTask_truthy hverify hstatus]
      exact ⟨rfl, get_keeps_live pm now h h e he.1 he.2⟩
    · have hstatus : (ProofManager.answer now (pm.cache.get? h)).truthy = false := by
        rw [answer_of_not_holdsLive hnone]
        rfl
      rw [pushTask_falsy hverify hstatus]
      refine ⟨rfl, ?_⟩
      rw [ProofManager.set_get?, if_pos rfl]
      rfl

end Push

/-! ## The tasks of a run -/

/-- A task, with a status that `push_task` or `claim_task` stores. -/
def IsTask (e : Entry) : Prop :=
  e.value = .int TASK_STATUS_PENGDING ∨ e.value = .int TASK_STATUS_RUNNING

theorem IsTask.truthy_iff {e : Entry} (he : IsTask e) :
    e.value.truthy = true ↔ e.pending = false := by
  unfold Entry.pending
  rcases he with hvalue | hvalue
  · rw [hvalue]
    decide
  · rw [hvalue]
    decide

/-- Everything in memory and in the dumps is a task. -/
structure TasksInv (w : World) : Prop where
  memory : ∀ pm, w.process = some pm → ∀ k e, pm.cache.get? k = some e → IsTask e
  disk : ∀ c ∈ w.snapshots, ∀ k e, c.get? k = some e → IsTask e

variable {verify : String → String → Bool}

/-- Storing a task keeps everything a task. -/
theorem isTask_of_set {pm pm' : ProofManager} {h k : String} {e stored : Entry}
    (hold : ∀ k e, pm.cache.get? k = some e → IsTask e)
    (hcache : ∀ k, pm'.cache.get? k = if k = h then some stored else pm.cache.get? k)
    (hstored : IsTask stored) (hget : pm'.cache.get? k = some e) : IsTask e := by
  rw [hcache] at hget
  by_cases hk : k = h
  · rw [if_pos hk, Option.some.injEq] at hget
    exact hget ▸ hstored
  · rw [if_neg hk] at hget
    exact hold k e hget

theorem TasksInv.of_effect {w w' : World} {op : Op} (hinv : TasksInv w)
    (heff : Effect verify w op w') : TasksInv w' := by
  cases heff with
  | @accepted pm pm' h s hpm hverify hanswer hcache =>
      refine ⟨?_, hinv.disk⟩
      rintro _ ⟨⟩ k e hget
      exact isTask_of_set (hinv.memory pm hpm) hcache (Or.inl rfl) hget
  | @claimed pm pm' h e₀ hpm hget₀ hlive hpend hcache =>
      refine ⟨?_, hinv.disk⟩
      rintro _ ⟨⟩ k e hget
      exact isTask_of_set (hinv.memory pm hpm) hcache (Or.inr rfl) hget
  | @shrunk pm pm' _ snapshots hpm hmem hlive hsnap =>
      have hmemory : ∀ k e, pm'.cache.get? k = some e → IsTask e :=
        fun k e hget => hinv.memory pm hpm k e (hmem k e hget)
      refine ⟨?_, ?_⟩
      · rintro _ ⟨⟩ k e hget
        exact hmemory k e hget
      · intro c hc k e hget
        rcases hsnap c hc with hold | rfl
        · exact hinv.disk c hold k e hget
        · exact hmemory k e hget
  | crashed =>
      refine ⟨?_, hinv.disk⟩
      rintro pm ⟨⟩
  | @restarted pm _ hdead hload =>
      refine ⟨?_, hinv.disk⟩
      rintro _ ⟨⟩ k e hget
      obtain ⟨c, hc, hck⟩ := hload k e hget
      exact hinv.disk c hc k e hck
  | advanced d hd => exact ⟨hinv.memory, hinv.disk⟩

/-- **Every task of a run is pending or running**, across crashes and restarts. -/
theorem run_tasksInv {t₀ : ℚ} {ops : List Op} {w : World}
    (hrun : run (World.step verify) (World.initial t₀) ops = some w) : TasksInv w := by
  have hinitial : TasksInv (World.initial t₀) :=
    ⟨fun pm hpm => by simp [World.initial] at hpm,
      fun c hc => by simp [World.initial] at hc⟩
  exact run_invariant TasksInv (fun _ => True)
    (fun _ _ _ _ hinv hstep => hinv.of_effect (effect_of_step hstep))
    (fun _ _ => trivial) hinitial hrun

/-- **A push spares the task that exists if and only if the task is not
pending**, in every state of every run. -/
theorem push_sparesTasks_iff {t₀ : ℚ} {ops : List Op} {w : World} {pm : ProofManager}
    {h s : String} (hrun : run (World.step verify) (World.initial t₀) ops = some w)
    (hpm : w.process = some pm) (hverify : verify h s = true) :
    SparesTasks verify pm w.now h s ↔
      ∀ e, HoldsLive pm w.now h e → e.pending = false := by
  have htask := (run_tasksInv hrun).memory pm hpm h
  rw [sparesTasks_iff hverify]
  constructor
  · intro htrue e he
    exact (htask e he.1).truthy_iff.1 (htrue e he)
  · intro hclaimed e he
    exact (htask e he.1).truthy_iff.2 (hclaimed e he)

/-! ### Two runs -/

/-- The key of the hub signs one pair. -/
def signsOne (h s : String) : Bool := h = "0xab" && s = "sig"

/-- A task that was claimed. -/
def claimedOps : List Op := [.restart none, .pushTask "0xab" "sig", .claimTask "0xab"]

/-- The running task is spared. -/
theorem push_sparesTasks_claimed :
    ∃ w pm, run (World.step signsOne) (World.initial 0) claimedOps = some w ∧
      w.process = some pm ∧ SparesTasks signsOne pm w.now "0xab" "sig" := by
  have heval : ((run (World.step signsOne) (World.initial 0) claimedOps).bind
      (fun w => w.process.map (fun pm => ((pm.cache.get? "0xab").map Entry.pending)))) =
      some (some false) := by decide +kernel
  obtain ⟨w, hrun, hproc⟩ := Option.bind_eq_some_iff.1 heval
  obtain ⟨pm, hpm, hentry⟩ := Option.map_eq_some_iff.1 hproc
  obtain ⟨e, hget, hpend⟩ := Option.map_eq_some_iff.1 hentry
  refine ⟨w, pm, hrun, hpm, (push_sparesTasks_iff hrun hpm (by decide)).2 ?_⟩
  intro e' he'
  have hsame : e = e' := Option.some.inj (hget.symm.trans he'.1)
  exact hsame ▸ hpend

/-- A task that was pushed ten seconds ago. -/
def pendingOps : List Op := [.restart none, .pushTask "0xab" "sig", .advance 10]

/-- **A pending task is pushed again**, for another sixty seconds. -/
theorem push_renews_pending :
    ¬∀ (verify : String → String → Bool) (t₀ : ℚ) (ops : List Op) (w : World)
      (pm : ProofManager) (h s : String),
      run (World.step verify) (World.initial t₀) ops = some w → w.process = some pm →
      verify h s = true → SparesTasks verify pm w.now h s := by
  intro hspares
  have heval : ((run (World.step signsOne) (World.initial 0) pendingOps).bind
      (fun w => w.process.bind (fun pm => (pm.cache.get? "0xab").map (fun e =>
        (e.live w.now, e.expiry, ((pushTask signsOne pm w.now "0xab" "sig").2.cache.get? "0xab").map
          Entry.expiry))))) = some (true, some 60, some (some 70)) := by decide +kernel
  obtain ⟨w, hrun, hproc⟩ := Option.bind_eq_some_iff.1 heval
  obtain ⟨pm, hpm, hentry⟩ := Option.bind_eq_some_iff.1 hproc
  obtain ⟨e, hget, hresult⟩ := Option.map_eq_some_iff.1 hentry
  rw [Prod.mk.injEq, Prod.mk.injEq] at hresult
  obtain ⟨hlive, hexpiry, hafter⟩ := hresult
  have hkept := ((hspares signsOne 0 pendingOps w pm "0xab" "sig" hrun hpm
    (by decide)).refuses e ⟨hget, hlive⟩).2
  rw [hkept, Option.map_some, Option.some.injEq, hexpiry] at hafter
  norm_num at hafter

end ProverNetwork.Ports.ProofManagerRun
