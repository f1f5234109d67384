import ProverNetwork.Ports.ProofManagerHistory
import ProverNetwork.Ports.ProofManagerPush

/-!
# Counting claims

A push that is accepted makes a hash claimable once, and so does a restart that
finds it pending in a dump; a claim uses that up.  Across any number of crashes a
node therefore grants a hash no more often than it accepted it and restarted
together.  The other way round, a node that refuses a signed push has granted the
hash in the last sixty seconds: a running task is the only one that a push does
not overwrite.

## Main results

* `run_countInv` — the claims of a hash against its pushes and the restarts.
* `refused_push_claimed` — a signed push is refused for a recent claim only.
-/

namespace ProverNetwork.Ports.ProofManagerRun

open ProverNetwork.Verified
open ProverNetwork.Ports

/-! ## Claims, pushes and restarts -/

/-- The event is an accepted push of the hash. -/
def Event.pushes (h : String) : Event → Bool
  | pushed h' _ _ => h' = h
  | _ => false

def pushCount (log : List Event) (h : String) : Nat := log.countP (Event.pushes h)

def restartCount (log : List Event) : Nat := log.countP Event.isRestart

theorem claimCount_cons (ev : Event) (log : List Event) (h : String) :
    claimCount (ev :: log) h = claimCount log h + if ev.claims h then 1 else 0 := by
  unfold claimCount
  rw [List.filter_cons]
  split <;> rfl

theorem pushCount_cons (ev : Event) (log : List Event) (h : String) :
    pushCount (ev :: log) h = pushCount log h + if ev.pushes h then 1 else 0 :=
  List.countP_cons

theorem restartCount_cons (ev : Event) (log : List Event) :
    restartCount (ev :: log) = restartCount log + if ev.isRestart then 1 else 0 :=
  List.countP_cons

/-- Whether a claim of the hash could find it pending. -/
def World.holdsPending (w : World) (h : String) : Nat :=
  match w.process.bind (fun pm => pm.cache.get? h) with
  | some e => if e.pending then 1 else 0
  | none => 0

/-- Each claim used up a push or a restart, and the pending item has one left. -/
def CountInv (h : String) (w : World) : Prop :=
  claimCount w.log h + w.holdsPending h ≤ pushCount w.log h + restartCount w.log

theorem holdsPending_le (w : World) (h : String) : w.holdsPending h ≤ 1 := by
  unfold World.holdsPending
  split
  next e _ => split <;> decide
  next => exact Nat.zero_le 1

theorem holdsPending_of_get? {w : World} {pm : ProofManager} {h : String} {e : Entry}
    (hpm : w.process = some pm) (hget : pm.cache.get? h = some e) :
    w.holdsPending h = if e.pending then 1 else 0 := by
  rw [World.holdsPending, hpm, Option.bind_some, hget]

theorem holdsPending_dead {w : World} (hpm : w.process = none) (h : String) :
    w.holdsPending h = 0 := by
  rw [World.holdsPending, hpm]
  rfl

/-- A cache with fewer items holds no more. -/
theorem holdsPending_shrunk {w w' : World} {pm pm' : ProofManager} {h : String}
    (hpm : w.process = some pm) (hpm' : w'.process = some pm')
    (hmem : ∀ e, pm'.cache.get? h = some e → pm.cache.get? h = some e) :
    w'.holdsPending h ≤ w.holdsPending h := by
  cases hget : pm'.cache.get? h with
  | none =>
      have hnone : w'.holdsPending h = 0 := by
        rw [World.holdsPending, hpm', Option.bind_some, hget]
      exact hnone ▸ Nat.zero_le _
  | some e =>
      rw [holdsPending_of_get? hpm' hget, holdsPending_of_get? hpm (hmem e hget)]

variable {verify : String → String → Bool}

/-- **Step lemma.** -/
theorem CountInv.of_effect {h : String} {w w' : World} {op : Op} (hinv : CountInv h w)
    (heff : Effect verify w op w') : CountInv h w' := by
  unfold CountInv at hinv ⊢
  cases heff with
  | @accepted pm pm' h' s hpm hverify hanswer hcache =>
      by_cases hh : h' = h
      · have hle := holdsPending_le
          { w with process := some pm', log := .pushed h' s w.now :: w.log } h
        simp only [claimCount_cons, pushCount_cons, restartCount_cons, Event.claims,
          Event.pushes, Event.isRestart, hh] at hinv hle ⊢
        simp only [decide_true, if_true, Bool.false_eq_true, if_false] at hle ⊢
        omega
      · have hle : World.holdsPending
            { w with process := some pm', log := .pushed h' s w.now :: w.log } h ≤
            w.holdsPending h := by
          apply holdsPending_shrunk hpm rfl
          intro e hget
          rwa [hcache, if_neg (fun heq => hh heq.symm)] at hget
        simp only [claimCount_cons, pushCount_cons, restartCount_cons, Event.claims,
          Event.pushes, Event.isRestart, hh] at hinv hle ⊢
        simp only [decide_false, Bool.false_eq_true, if_false] at hle ⊢
        omega
  | @claimed pm pm' h' e hpm hget hlive hpend hcache =>
      by_cases hh : h' = h
      · subst hh
        have hbefore : w.holdsPending h' = 1 := by
          rw [holdsPending_of_get? hpm hget, if_pos hpend]
        have hafter : World.holdsPending
            { w with process := some pm', log := .claimed h' w.now :: w.log } h' = 0 := by
          have hrunning := hcache h'
          rw [if_pos rfl] at hrunning
          rw [holdsPending_of_get? rfl hrunning]
          rfl
        simp only [claimCount_cons, pushCount_cons, restartCount_cons, Event.claims,
          Event.pushes, Event.isRestart] at hinv hafter ⊢
        simp only [decide_true, if_true, Bool.false_eq_true, if_false] at hafter ⊢
        omega
      · have hle : World.holdsPending
            { w with process := some pm', log := .claimed h' w.now :: w.log } h ≤
            w.holdsPending h := by
          apply holdsPending_shrunk hpm rfl
          intro e hget
          rwa [hcache, if_neg (fun heq => hh heq.symm)] at hget
        simp only [claimCount_cons, pushCount_cons, restartCount_cons, Event.claims,
          Event.pushes, Event.isRestart, hh] at hinv hle ⊢
        simp only [decide_false, Bool.false_eq_true, if_false] at hle ⊢
        omega
  | @shrunk pm pm' _ snapshots hpm hmem hlive hsnap =>
      have hle : World.holdsPending { w with process := some pm', snapshots := snapshots } h ≤
          w.holdsPending h := holdsPending_shrunk hpm rfl (hmem h)
      exact le_trans (Nat.add_le_add_left hle _) hinv
  | crashed =>
      rw [holdsPending_dead (w := { w with process := none }) rfl]
      exact le_trans (Nat.le_add_right _ _) hinv
  | @restarted pm _ hdead hload =>
      have hle := holdsPending_le
        { w with process := some pm, log := .restarted w.now :: w.log } h
      simp only [claimCount_cons, pushCount_cons, restartCount_cons, Event.claims,
        Event.pushes, Event.isRestart] at hinv hle ⊢
      simp only [if_true, Bool.false_eq_true, if_false] at hle ⊢
      omega
  | advanced d hd => exact hinv

theorem run_countInv {t₀ : ℚ} {ops : List Op} {w : World} (h : String)
    (hrun : run (World.step verify) (World.initial t₀) ops = some w) : CountInv h w :=
  run_invariant (CountInv h) (fun _ => True)
    (fun _ _ _ _ hinv hstep => hinv.of_effect (effect_of_step hstep))
    (fun _ _ => trivial) (le_refl 0) hrun

/-! ## What is behind a claim of the history -/

/-- Every claim of the history follows a signed push of its hash by less than sixty
seconds. -/
def ClaimsBacked (verify : String → String → Bool) (log : List Event) : Prop :=
  ∀ h t, .claimed h t ∈ log →
    ∃ s t', .pushed h s t' ∈ log ∧ verify h s = true ∧ t' ≤ t ∧ t < t' + 60

theorem ClaimsBacked.cons {log : List Event} (hlog : ClaimsBacked verify log) {ev : Event}
    (hev : ∀ h t, ev ≠ .claimed h t) : ClaimsBacked verify (ev :: log) := by
  intro h t hmem
  cases List.mem_cons.1 hmem with
  | inl heq => exact absurd heq.symm (hev h t)
  | inr hold =>
      obtain ⟨s, t', hpushed, hrest⟩ := hlog h t hold
      exact ⟨s, t', List.mem_cons_of_mem ev hpushed, hrest⟩

/-- **Step lemma.** -/
theorem ClaimsBacked.of_effect {w w' : World} {op : Op} (hlog : ClaimsBacked verify w.log)
    (hinv : BackedInv verify w) (heff : Effect verify w op w') : ClaimsBacked verify w'.log := by
  cases heff with
  | accepted h s => exact hlog.cons (fun _ _ heq => by cases heq)
  | @claimed pm pm' h e hpm hget hlive hpend hcache =>
      intro h' t hmem
      cases List.mem_cons.1 hmem with
      | inl heq =>
          cases heq
          obtain ⟨s, t', hpushed, hverify, hle, hexp⟩ :=
            (hinv.memory pm hpm h e hget hpend).backed
          rw [Entry.live, hexp] at hlive
          exact ⟨s, t', List.mem_cons_of_mem _ hpushed, hverify, hle, of_decide_eq_true hlive⟩
      | inr hold =>
          obtain ⟨s, t', hpushed, hrest⟩ := hlog h' t hold
          exact ⟨s, t', List.mem_cons_of_mem _ hpushed, hrest⟩
  | shrunk => exact hlog
  | crashed => exact hlog
  | restarted choice => exact hlog.cons (fun _ _ heq => by cases heq)
  | advanced d => exact hlog

theorem run_claimsBacked {t₀ : ℚ} {ops : List Op} {w : World}
    (hrun : run (World.step verify) (World.initial t₀) ops = some w) :
    ClaimsBacked verify w.log :=
  (run_invariant (fun w => BackedInv verify w ∧ ClaimsBacked verify w.log) (fun _ => True)
    (fun _ _ _ _ hinv hstep => ⟨hinv.1.of_effect (effect_of_step hstep),
      hinv.2.of_effect hinv.1 (effect_of_step hstep)⟩)
    (fun _ _ => trivial) ⟨initial_backedInv t₀, fun _ _ hmem => by cases hmem⟩ hrun).2

/-! ## What refuses a push -/

/-- A running item was claimed sixty seconds before its expiry. -/
def ClaimedBy (log : List Event) (h : String) (expiry : Option ℚ) : Prop :=
  ∃ t, .claimed h t ∈ log ∧ expiry = some (t + 60)

/-- Every running item, in memory or in a dump, was claimed. -/
structure RunningInv (w : World) : Prop where
  memory : ∀ pm, w.process = some pm → ∀ k e, pm.cache.get? k = some e →
    e.pending = false → ClaimedBy w.log k e.expiry
  disk : ∀ c ∈ w.snapshots, ∀ k e, c.get? k = some e → e.pending = false →
    ClaimedBy w.log k e.expiry

theorem ClaimedBy.cons {log : List Event} {h : String} {expiry : Option ℚ} (ev : Event)
    (hc : ClaimedBy log h expiry) : ClaimedBy (ev :: log) h expiry := by
  obtain ⟨t, hmem, hexp⟩ := hc
  exact ⟨t, List.mem_cons_of_mem ev hmem, hexp⟩

theorem pending_stored (expiry : Option ℚ) :
    Entry.pending ⟨.int TASK_STATUS_PENGDING, expiry⟩ = true := rfl

/-- **Step lemma.** -/
theorem RunningInv.of_effect {w w' : World} {op : Op} (hinv : RunningInv w)
    (heff : Effect verify w op w') : RunningInv w' := by
  cases heff with
  | @accepted pm pm' h s hpm hverify hanswer hcache =>
      refine ⟨?_, fun c hc k e hget hrun => (hinv.disk c hc k e hget hrun).cons _⟩
      rintro _ ⟨⟩ k e hget hrun
      rw [hcache] at hget
      split at hget
      next =>
        cases hget
        rw [pending_stored] at hrun
        cases hrun
      next => exact (hinv.memory pm hpm k e hget hrun).cons _
  | @claimed pm pm' h e₀ hpm hget₀ hlive hpend hcache =>
      refine ⟨?_, fun c hc k e hget hrun => (hinv.disk c hc k e hget hrun).cons _⟩
      rintro _ ⟨⟩ k e hget hrun
      rw [hcache] at hget
      split at hget
      next hk =>
        cases hget
        exact ⟨w.now, by rw [hk]; exact List.mem_cons_self, rfl⟩
      next => exact (hinv.memory pm hpm k e hget hrun).cons _
  | @shrunk pm pm' _ snapshots hpm hmem hlive hsnap =>
      have hmemory : ∀ k e, pm'.cache.get? k = some e → e.pending = false →
          ClaimedBy w.log k e.expiry :=
        fun k e hget => hinv.memory pm hpm k e (hmem k e hget)
      refine ⟨?_, ?_⟩
      · rintro _ ⟨⟩ k e hget
        exact hmemory k e hget
      · intro c hc k e hget
        rcases hsnap c hc with hold | rfl
        · exact hinv.disk c hold k e hget
        · exact hmemory k e hget
  | crashed =>
      refine ⟨?_, hinv.disk⟩
      rintro pm ⟨⟩
  | @restarted pm _ hdead hload =>
      refine ⟨?_, fun c hc k e hget hrun => (hinv.disk c hc k e hget hrun).cons _⟩
      rintro _ ⟨⟩ k e hget hrun
      obtain ⟨c, hc, hck⟩ := hload k e hget
      exact (hinv.disk c hc k e hck hrun).cons _
  | advanced d hd => exact ⟨hinv.memory, hinv.disk⟩

theorem run_runningInv {t₀ : ℚ} {ops : List Op} {w : World}
    (hrun : run (World.step verify) (World.initial t₀) ops = some w) : RunningInv w := by
  have hinitial : RunningInv (World.initial t₀) :=
    ⟨fun pm hpm => by simp [World.initial] at hpm,
      fun c hc => by simp [World.initial] at hc⟩
  exact run_invariant RunningInv (fun _ => True)
    (fun _ _ _ _ hinv hstep => hinv.of_effect (effect_of_step hstep))
    (fun _ _ => trivial) hinitial hrun

/-- **A signed push is refused for a recent claim only**, in every run. -/
theorem refused_push_claimed {t₀ : ℚ} {ops : List Op} {w : World} {pm : ProofManager}
    {h s : String} {e : HTTPException}
    (hrun : run (World.step verify) (World.initial t₀) ops = some w)
    (hpm : w.process = some pm) (hverify : verify h s = true)
    (hrefused : (pushTask verify pm w.now h s).1 = .error e) :
    ∃ t, .claimed h t ∈ w.log ∧ w.now < t + 60 := by
  have htruthy : (ProofManager.answer w.now (pm.cache.get? h)).truthy = true := by
    by_contra hfalse
    rw [pushTask_falsy hverify (by simpa using hfalse)] at hrefused
    cases hrefused
  cases hget : pm.cache.get? h with
  | none =>
      rw [hget] at htruthy
      cases htruthy
  | some item =>
      rw [hget] at htruthy
      have hlive : item.live w.now = true := by
        by_contra hdead
        rw [ProofManager.answer, if_neg hdead] at htruthy
        cases htruthy
      rw [ProofManager.answer_live hlive] at htruthy
      have hrunning := ((run_tasksInv hrun).memory pm hpm h item hget).truthy_iff.1 htruthy
      obtain ⟨t, hclaimed, hexp⟩ := (run_runningInv hrun).memory pm hpm h item hget hrunning
      refine ⟨t, hclaimed, ?_⟩
      rw [Entry.live, hexp] at hlive
      exact of_decide_eq_true hlive

end ProverNetwork.Ports.ProofManagerRun
