import ProverNetwork.Ports.ProofManagerCount
import ProverNetwork.Ports.ProofManagerExpiry
import ProverNetwork.Ports.ProofManagerPush

/-!
# What the history says of a task

The newest event about a hash since the node came up is all there is to know of
the task: flushes, cleanups and lookups in between, refused requests and
everything about other hashes make no difference to what the node answers for it.

A task that was pushed is not lost: until it is claimed, the node restarts or
sixty seconds have passed, it can be claimed.

## Main results

* `run_standingInv` — the cache holds what the newest event stored, while it counts.
* `history_answers` — the answers of the node, told by its history.
* `pushed_kept` — a pushed task can be claimed.
-/

namespace ProverNetwork.Ports.ProofManagerRun

open ProverNetwork.Verified
open ProverNetwork.Ports
open ProverNetwork.Ports.ProofManager
open ProverNetwork.Ports.ProofManagerExpiry (claimAnswer claimTask_answer)

/-- The item that an event about the hash stores. -/
def Event.stores (h : String) : Event → Option Entry
  | pushed h' _ t => if h' = h then some ⟨.int TASK_STATUS_PENGDING, some (t + 60)⟩ else none
  | claimed h' t => if h' = h then some ⟨.int TASK_STATUS_RUNNING, some (t + 60)⟩ else none
  | restarted _ => none

/-- What the newest event about the hash stored, if there is one since the last
restart. -/
def standing (h : String) : List Event → Option Entry
  | [] => none
  | .restarted _ :: _ => none
  | ev :: older => (ev.stores h).or (standing h older)

theorem standing_pushed (h h' s : String) (t : ℚ) (older : List Event) :
    standing h (.pushed h' s t :: older) =
      if h = h' then some ⟨.int TASK_STATUS_PENGDING, some (t + 60)⟩ else standing h older := by
  show (Event.stores h (.pushed h' s t)).or (standing h older) = _
  by_cases hh : h = h'
  · rw [if_pos hh, Event.stores, if_pos hh.symm]
    rfl
  · rw [if_neg hh, Event.stores, if_neg (fun heq => hh heq.symm)]
    rfl

theorem standing_claimed (h h' : String) (t : ℚ) (older : List Event) :
    standing h (.claimed h' t :: older) =
      if h = h' then some ⟨.int TASK_STATUS_RUNNING, some (t + 60)⟩ else standing h older := by
  show (Event.stores h (.claimed h' t)).or (standing h older) = _
  by_cases hh : h = h'
  · rw [if_pos hh, Event.stores, if_pos hh.symm]
    rfl
  · rw [if_neg hh, Event.stores, if_neg (fun heq => hh heq.symm)]
    rfl

/-! ## The cache and the history -/

/-- The cache holds what the history tells, as far as it still counts. -/
def StandingInv (w : World) : Prop :=
  ∀ pm, w.process = some pm → ∀ h e, standing h w.log = some e →
    (pm.cache.get? h).filter (Entry.live w.now) = (some e).filter (Entry.live w.now)

variable {verify : String → String → Bool}

/-- A cache that lost no live item and gained none counts as before. -/
theorem filter_shrunk {now : ℚ} {c c' : Cache} {h : String}
    (hmem : ∀ k e, c'.get? k = some e → c.get? k = some e)
    (hlive : ∀ k e, c.get? k = some e → e.live now = true → c'.get? k = some e) :
    (c'.get? h).filter (Entry.live now) = (c.get? h).filter (Entry.live now) := by
  cases hget : c.get? h with
  | none =>
      cases hget' : c'.get? h with
      | none => rfl
      | some e => cases hget.symm.trans (hmem h e hget')
  | some e =>
      by_cases hcounts : e.live now = true
      · rw [hlive h e hget hcounts]
      · cases hget' : c'.get? h with
        | none => rw [Option.filter_some_neg (by simpa using hcounts), Option.filter_none]
        | some e' =>
            have hsame := hmem h e' hget'
            rw [hget] at hsame
            rw [hsame]

/-- **Step lemma.** -/
theorem StandingInv.of_effect {w w' : World} {op : Op} (hinv : StandingInv w)
    (heff : Effect verify w op w') : StandingInv w' := by
  cases heff with
  | accepted h s hpm hverify hanswer hcache =>
      intro pm' hpm' k e he
      cases hpm'
      rw [standing_pushed] at he
      rw [hcache]
      split at he
      next hk =>
        cases he
        rw [if_pos hk]
      next hk =>
        rw [if_neg hk]
        exact hinv _ hpm k e he
  | claimed h e₀ hpm hget hlive hpend hcache =>
      intro pm' hpm' k e he
      cases hpm'
      rw [standing_claimed] at he
      rw [hcache]
      split at he
      next hk =>
        cases he
        rw [if_pos hk]
      next hk =>
        rw [if_neg hk]
        exact hinv _ hpm k e he
  | shrunk op snapshots hpm hmem hlive hdumps =>
      intro pm' hpm' k e he
      cases hpm'
      rw [filter_shrunk hmem hlive]
      exact hinv _ hpm k e he
  | crashed => exact fun pm hpm => by cases hpm
  | restarted choice hdead hload => exact fun pm hpm k e he => by cases he
  | advanced d hd =>
      intro pm hpm k e he
      have hlater : w.now ≤ w.now + d := by linarith
      have hbefore := hinv pm hpm k e he
      have hold := lifetime.filter_filter hlater (pm.cache.get? k)
      have hnew := lifetime.filter_filter hlater (some e)
      dsimp only [lifetime] at hold hnew
      rw [← hold, hbefore]
      exact hnew

/-- **Run lemma.** -/
theorem run_standingInv {t₀ : ℚ} {ops : List Op} {w : World}
    (hrun : run (World.step verify) (World.initial t₀) ops = some w) : StandingInv w :=
  run_invariant StandingInv (fun _ => True)
    (fun _ _ _ _ hinv hstep => hinv.of_effect (effect_of_step hstep)) (fun _ _ => trivial)
    (fun _ hpm => by cases hpm) hrun

/-! ## The answers of the node -/

/-- What a push answers for a status. -/
def pushAnswer (signed : Bool) (status : PyVal) : Except HTTPException StatusResponse :=
  if !signed then .error ⟨400, "invalid signature"⟩
  else if status.truthy then .error ⟨400, "Proof hash is exist."⟩
  else .ok ⟨STATUS_CODE_SUCCESSFULLY, "Successfully"⟩

theorem pushTask_answer (pm : ProofManager) (now : ℚ) (h s : String) :
    (pushTask verify pm now h s).1 = pushAnswer (verify h s) (answer now (pm.cache.get? h)) := by
  rw [← get_fst]
  unfold pushTask pushAnswer
  dsimp only
  split
  · rfl
  · split <;> rfl

theorem StandingInv.answer_eq {w : World} (hinv : StandingInv w) {pm : ProofManager}
    (hpm : w.process = some pm) {h : String} {e : Entry} (he : standing h w.log = some e) :
    answer w.now (pm.cache.get? h) = answer w.now (some e) := by
  rw [← answer_filter, hinv pm hpm h e he, answer_filter]

/-- **The history tells the answers.**  In every run, what the node answers to a
lookup, a claim and a push of a hash is what the newest event about the hash has
left of it, where there is one since the last restart. -/
theorem history_answers {t₀ : ℚ} {ops : List Op} {w : World}
    (hrun : run (World.step verify) (World.initial t₀) ops = some w) {pm : ProofManager}
    (hpm : w.process = some pm) {h : String} {e : Entry} (he : standing h w.log = some e) :
    (pm.get w.now h).1 = answer w.now (some e) ∧
      (pm.claimTask w.now h).1 = claimAnswer (answer w.now (some e)) ∧
      ∀ s, (pushTask verify pm w.now h s).1 =
        pushAnswer (verify h s) (answer w.now (some e)) := by
  have hanswer := (run_standingInv hrun).answer_eq hpm he
  refine ⟨?_, ?_, fun s => ?_⟩
  · rw [get_fst, hanswer]
  · rw [claimTask_answer, hanswer]
  · rw [pushTask_answer, hanswer]

/-- A node that came up, was pushed a task, flushed its cache and went on. -/
def flushedOps : List Op :=
  [.restart none, .pushTask "0xab" "sig", .saveCache .written, .advance 10]

theorem history_answers_flushed :
    ∃ w pm, run (World.step signsOne) (World.initial 1000) flushedOps = some w ∧
      w.process = some pm ∧ (pm.claimTask w.now "0xab").1 = (.yes, "Successfully") := by
  refine ⟨_, _, rfl, rfl, ?_⟩
  have hanswers := @history_answers signsOne 1000 flushedOps _ rfl _ rfl "0xab"
    ⟨.int TASK_STATUS_PENGDING, some (1000 + 60)⟩ rfl
  exact hanswers.2.1.trans (by decide +kernel)

/-! ## A pushed task is kept -/

/-- The history is in order, and nothing in it is yet to come. -/
structure Ordered (w : World) : Prop where
  past : ∀ ev ∈ w.log, ev.time ≤ w.now
  order : w.log.Pairwise (fun newer older => older.time ≤ newer.time)

/-- An event of now extends the history. -/
theorem Ordered.cons {w : World} (hw : Ordered w) {ev : Event} (hev : ev.time = w.now)
    (process : Option ProofManager) :
    Ordered { w with process := process, log := ev :: w.log } := by
  refine ⟨?_, List.pairwise_cons.2 ⟨fun older ho => hev ▸ hw.past older ho, hw.order⟩⟩
  intro ev' hev'
  cases List.mem_cons.1 hev' with
  | inl heq =>
      rw [heq]
      exact le_of_eq hev
  | inr hold => exact hw.past ev' hold

theorem Ordered.of_effect {w w' : World} {op : Op} (hw : Ordered w)
    (heff : Effect verify w op w') : Ordered w' := by
  cases heff with
  | accepted h s => exact hw.cons rfl _
  | claimed h e => exact hw.cons rfl _
  | shrunk op snapshots => exact ⟨hw.past, hw.order⟩
  | crashed => exact ⟨hw.past, hw.order⟩
  | restarted choice => exact hw.cons rfl _
  | advanced d hd =>
      refine ⟨fun ev hev => le_trans (hw.past ev hev) ?_, hw.order⟩
      show w.now ≤ w.now + d
      linarith

theorem run_ordered {t₀ : ℚ} {ops : List Op} {w : World}
    (hrun : run (World.step verify) (World.initial t₀) ops = some w) : Ordered w :=
  run_invariant Ordered (fun _ => True)
    (fun _ _ _ _ hw hstep => hw.of_effect (effect_of_step hstep)) (fun _ _ => trivial)
    ⟨fun _ h => absurd h List.not_mem_nil, List.Pairwise.nil⟩ hrun

/-- Where a push is followed by no restart and no claim of its hash, a push of the
hash stands, that one or a later one. -/
theorem standing_of_pushed {newer older : List Event} {h s : String} {t : ℚ}
    (horder : (newer ++ .pushed h s t :: older).Pairwise
      (fun newer older => older.time ≤ newer.time))
    (hup : ∀ ev ∈ newer, ev.isRestart = false) (hclaims : ∀ t', .claimed h t' ∉ newer) :
    ∃ t', t ≤ t' ∧ standing h (newer ++ .pushed h s t :: older) =
      some ⟨.int TASK_STATUS_PENGDING, some (t' + 60)⟩ := by
  induction newer with
  | nil => exact ⟨t, le_rfl, by rw [List.nil_append, standing_pushed, if_pos rfl]⟩
  | cons ev newer ih =>
      rw [List.cons_append, List.pairwise_cons] at horder
      have hrest := ih horder.2 (fun ev' hev' => hup ev' (List.mem_cons_of_mem ev hev'))
        (fun t' ht' => hclaims t' (List.mem_cons_of_mem ev ht'))
      rw [List.cons_append]
      cases ev with
      | restarted t₁ => cases hup _ List.mem_cons_self
      | claimed h' t₁ =>
          have hne : h ≠ h' := fun heq => hclaims t₁ (heq ▸ List.mem_cons_self)
          rw [standing_claimed, if_neg hne]
          exact hrest
      | pushed h' s' t₁ =>
          rw [standing_pushed]
          by_cases hh : h = h'
          · have hlater : t ≤ t₁ :=
              horder.1 (.pushed h s t) (List.mem_append_right _ List.mem_cons_self)
            exact ⟨t₁, hlater, if_pos hh⟩
          · rw [if_neg hh]
            exact hrest

/-- **A pushed task is kept**: it can be claimed until it is claimed, the node
restarts, or sixty seconds have passed. -/
theorem pushed_kept {t₀ : ℚ} {ops : List Op} {w : World}
    (hrun : run (World.step verify) (World.initial t₀) ops = some w) {pm : ProofManager}
    (hpm : w.process = some pm) {newer older : List Event} {h s : String} {t : ℚ}
    (hlog : w.log = newer ++ .pushed h s t :: older)
    (hup : ∀ ev ∈ newer, ev.isRestart = false) (hclaims : ∀ t', .claimed h t' ∉ newer)
    (hnow : w.now < t + 60) : (pm.claimTask w.now h).1 = (.yes, "Successfully") := by
  obtain ⟨t', hlater, hstanding⟩ := standing_of_pushed (hlog ▸ (run_ordered hrun).order) hup hclaims
  rw [← hlog] at hstanding
  have hanswer := (run_standingInv hrun).answer_eq hpm hstanding
  have hlive : Entry.live w.now ⟨.int TASK_STATUS_PENGDING, some (t' + 60)⟩ = true := by
    unfold Entry.live
    simp only [decide_eq_true_eq]
    linarith
  rw [claimTask_answer, hanswer, answer_live hlive]
  rfl

end ProverNetwork.Ports.ProofManagerRun
