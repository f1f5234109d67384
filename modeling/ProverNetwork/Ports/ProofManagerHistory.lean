import ProverNetwork.Ports.ProofManagerRun

/-!
# What backs a claim

Two invariants of the runs of `ProofManagerRun` relate each stored item to the
history.  Across crashes and restarts every pending item, in memory or in a
dump, was stored by an accepted push sixty seconds before its expiry.  Within
one process a running item outlives its claim by sixty seconds, so the hash
cannot be pushed again before.

## Main results

* `claim_backed_by_push` — a successful claim is backed by a signed push less
  than sixty seconds old, and by a fresh one unless a restart intervened.
* `claims_of_hash_separated` — in one process two successful claims of a hash
  are at least sixty seconds apart, with an accepted push in between.
* `claimed_twice` — so the hash can be claimed a second time.
-/

namespace ProverNetwork.Ports.ProofManagerRun

open ProverNetwork.Verified
open ProverNetwork.Ports

/-! ## Backing across restarts -/

/-- Some accepted push of `h` with a valid signature stored this expiry. -/
def Backed (verify : String → String → Bool) (now : ℚ) (log : List Event)
    (h : String) (expiry : Option ℚ) : Prop :=
  ∃ s t, .pushed h s t ∈ log ∧ verify h s = true ∧ t ≤ now ∧
    expiry = some (t + 60)

/-- The backing push is followed by no claim of `h` that a restart has not
followed in turn.  `newer` is the part of the history after the push. -/
def Fresh (verify : String → String → Bool) (now : ℚ) (log : List Event)
    (h : String) (expiry : Option ℚ) : Prop :=
  ∃ newer s t older, log = newer ++ .pushed h s t :: older ∧
    verify h s = true ∧ t ≤ now ∧ expiry = some (t + 60) ∧
    ∀ later t₁ earlier, newer = later ++ .claimed h t₁ :: earlier →
      ∃ r, .restarted r ∈ later

/-- Every pending item in memory is freshly backed, and every pending item of
a dump is backed. -/
structure BackedInv (verify : String → String → Bool) (w : World) : Prop where
  memory : ∀ pm, w.process = some pm → ∀ k e, pm.cache.get? k = some e →
    e.pending = true → Fresh verify w.now w.log k e.expiry
  disk : ∀ c ∈ w.snapshots, ∀ k e, c.get? k = some e → e.pending = true →
    Backed verify w.now w.log k e.expiry

variable {verify : String → String → Bool}

theorem Fresh.backed {now : ℚ} {log : List Event} {h : String}
    {expiry : Option ℚ} (hf : Fresh verify now log h expiry) :
    Backed verify now log h expiry := by
  obtain ⟨newer, s, t, older, rfl, hverify, ht, hexp, _⟩ := hf
  exact ⟨s, t, by simp, hverify, ht, hexp⟩

theorem Backed.cons {now : ℚ} {log : List Event} {h : String}
    {expiry : Option ℚ} (ev : Event) (hb : Backed verify now log h expiry) :
    Backed verify now (ev :: log) h expiry := by
  obtain ⟨s, t, hmem, hrest⟩ := hb
  exact ⟨s, t, List.mem_cons_of_mem ev hmem, hrest⟩

theorem Backed.mono {now now' : ℚ} {log : List Event} {h : String}
    {expiry : Option ℚ} (hle : now ≤ now')
    (hb : Backed verify now log h expiry) :
    Backed verify now' log h expiry := by
  obtain ⟨s, t, hmem, hverify, ht, hexp⟩ := hb
  exact ⟨s, t, hmem, hverify, le_trans ht hle, hexp⟩

theorem Fresh.mono {now now' : ℚ} {log : List Event} {h : String}
    {expiry : Option ℚ} (hle : now ≤ now')
    (hf : Fresh verify now log h expiry) : Fresh verify now' log h expiry := by
  obtain ⟨newer, s, t, older, hlog, hverify, ht, hexp, hclaims⟩ := hf
  exact ⟨newer, s, t, older, hlog, hverify, le_trans ht hle, hexp, hclaims⟩

/-- A fresh backing survives every event but a claim of its own hash. -/
theorem Fresh.cons {now : ℚ} {log : List Event} {h : String}
    {expiry : Option ℚ} (ev : Event) (hev : ∀ t, ev ≠ .claimed h t)
    (hf : Fresh verify now log h expiry) :
    Fresh verify now (ev :: log) h expiry := by
  obtain ⟨newer, s, t, older, rfl, hverify, ht, hexp, hclaims⟩ := hf
  refine ⟨ev :: newer, s, t, older, rfl, hverify, ht, hexp, ?_⟩
  intro later t₁ earlier heq
  cases later with
  | nil =>
      simp only [List.nil_append, List.cons.injEq] at heq
      exact absurd heq.1 (hev t₁)
  | cons a later =>
      simp only [List.cons_append, List.cons.injEq] at heq
      obtain ⟨r, hr⟩ := hclaims later t₁ earlier heq.2
      exact ⟨r, List.mem_cons_of_mem a hr⟩

/-- A restart turns any backing into a fresh one. -/
theorem Backed.restarted {now : ℚ} {log : List Event} {h : String}
    {expiry : Option ℚ} (hb : Backed verify now log h expiry) :
    Fresh verify now (.restarted now :: log) h expiry := by
  obtain ⟨s, t, hmem, hverify, ht, hexp⟩ := hb
  obtain ⟨newer, older, rfl⟩ := List.append_of_mem hmem
  refine ⟨.restarted now :: newer, s, t, older, rfl, hverify, ht, hexp, ?_⟩
  intro later t₁ earlier heq
  cases later with
  | nil => simp at heq
  | cons a later =>
      simp only [List.cons_append, List.cons.injEq] at heq
      exact ⟨now, by simp [← heq.1]⟩

/-- The push just accepted backs the item it stored. -/
theorem Fresh.of_push {now : ℚ} {log : List Event} {h s : String}
    (hverify : verify h s = true) :
    Fresh verify now (.pushed h s now :: log) h (some (now + 60)) :=
  ⟨[], s, now, log, rfl, hverify, le_refl now, rfl, by simp⟩

theorem running_not_pending (expiry : Option ℚ) :
    Entry.pending ⟨.int TASK_STATUS_RUNNING, expiry⟩ = false := rfl

/-- Every effect preserves the backing. -/
theorem BackedInv.of_effect {w w' : World} {op : Op}
    (hinv : BackedInv verify w) (heff : Effect verify w op w') :
    BackedInv verify w' := by
  cases heff with
  | @accepted pm pm' h s hpm hverify hanswer hcache =>
      refine ⟨?_, fun c hc k e hk hp => (hinv.disk c hc k e hk hp).cons _⟩
      rintro _ ⟨⟩ k e hget hpend
      rw [hcache] at hget
      split at hget
      · rename_i hkh
        subst hkh
        cases hget
        exact Fresh.of_push hverify
      · exact (hinv.memory pm hpm k e hget hpend).cons _ (by simp)
  | @claimed pm pm' h e₀ hpm hget₀ hlive hpend₀ hcache =>
      refine ⟨?_, fun c hc k e hk hp => (hinv.disk c hc k e hk hp).cons _⟩
      rintro _ ⟨⟩ k e hget hpend
      rw [hcache] at hget
      split at hget
      · cases hget
        rw [running_not_pending] at hpend
        cases hpend
      · rename_i hkh
        refine (hinv.memory pm hpm k e hget hpend).cons _ ?_
        intro t heq
        cases heq
        exact hkh rfl
  | @shrunk pm pm' _ snapshots hpm hmem hlive hsnap =>
      refine ⟨?_, ?_⟩
      · rintro _ ⟨⟩ k e hget hpend
        exact hinv.memory pm hpm k e (hmem k e hget) hpend
      · intro c hc k e hget hpend
        rcases hsnap c hc with hold | rfl
        · exact hinv.disk c hold k e hget hpend
        · exact (hinv.memory pm hpm k e (hmem k e hget) hpend).backed
  | crashed =>
      refine ⟨?_, hinv.disk⟩
      rintro pm hpm
      cases hpm
  | @restarted pm _ hdead hload =>
      refine ⟨?_, fun c hc k e hk hp => (hinv.disk c hc k e hk hp).cons _⟩
      rintro _ ⟨⟩ k e hget hpend
      obtain ⟨c, hc, hck⟩ := hload k e hget
      exact (hinv.disk c hc k e hck hpend).restarted
  | advanced d hd =>
      have hle : w.now ≤ w.now + d := by linarith
      refine ⟨?_, fun c hc k e hk hp => (hinv.disk c hc k e hk hp).mono hle⟩
      intro pm hpm k e hget hpend
      exact (hinv.memory pm hpm k e hget hpend).mono hle

theorem initial_backedInv (t₀ : ℚ) :
    BackedInv verify (World.initial t₀) :=
  ⟨fun pm hpm => by simp [World.initial] at hpm,
    fun c hc => by simp [World.initial] at hc⟩

/-- Every world reached from the empty one satisfies the backing invariant. -/
theorem run_backedInv {t₀ : ℚ} {ops : List Op} {w : World}
    (hrun : run (World.step verify) (World.initial t₀) ops = some w) :
    BackedInv verify w :=
  run_invariant (BackedInv verify) (fun _ => True)
    (fun _ _ _ _ hinv hstep => hinv.of_effect (effect_of_step hstep))
    (fun _ _ => trivial) (initial_backedInv t₀) hrun

/-- **A claim is backed by a recent signed push.**  When `claim_task(h)`
succeeds after any run with crashes and restarts, the history holds an
accepted push of `h` with a valid signature less than sixty seconds old, and
every claim of `h` after that push was followed by a restart. -/
theorem claim_backed_by_push {t₀ : ℚ} {ops : List Op} {w : World}
    {pm : ProofManager} {h : String}
    (hrun : run (World.step verify) (World.initial t₀) ops = some w)
    (hpm : w.process = some pm)
    (hok : (pm.claimTask w.now h).1.1 = .yes) :
    ∃ newer s t older, w.log = newer ++ .pushed h s t :: older ∧
      verify h s = true ∧ t ≤ w.now ∧ w.now < t + 60 ∧
      ∀ later t₁ earlier, newer = later ++ .claimed h t₁ :: earlier →
        ∃ r, .restarted r ∈ later := by
  obtain ⟨⟨e, hget, hlive, hpend⟩, _⟩ := ProofManager.claimTask_yes hok
  obtain ⟨newer, s, t, older, hlog, hverify, ht, hexp, hclaims⟩ :=
    (run_backedInv hrun).memory pm hpm h e hget hpend
  refine ⟨newer, s, t, older, hlog, hverify, ht, ?_, hclaims⟩
  simpa [Entry.live, hexp] using hlive

/-- One push, a crash and a restart on the dump, then the claim. -/
def reloadOps : List Op :=
  [.restart none, .pushTask "0xab" "sig", .saveCache .written, .advance 5,
    .crash, .restart (some 0)]

/-- The encryptor's key accepts one pair. -/
def acceptsOne : String → String → Bool :=
  fun h s => h = "0xab" && s = "sig"

/-- The claim after `reloadOps` is backed by the push before the crash. -/
theorem claim_backed_by_push_reload :
    ∃ w pm, run (World.step acceptsOne) (World.initial 0) reloadOps = some w ∧
      w.process = some pm ∧ (pm.claimTask w.now "0xab").1.1 = .yes ∧
      ∃ newer s t older, w.log = newer ++ .pushed "0xab" s t :: older ∧
        acceptsOne "0xab" s = true ∧ t ≤ w.now ∧ w.now < t + 60 ∧
        ∀ later t₁ earlier, newer = later ++ .claimed "0xab" t₁ :: earlier →
          ∃ r, .restarted r ∈ later := by
  have heval : ((run (World.step acceptsOne) (World.initial 0) reloadOps).bind
      (fun w => w.process.map (fun pm => (pm.claimTask w.now "0xab").1.1))) =
      some .yes := by decide +kernel
  obtain ⟨w, hrun, hproc⟩ := Option.bind_eq_some_iff.1 heval
  obtain ⟨pm, hpm, hok⟩ := Option.map_eq_some_iff.1 hproc
  exact ⟨w, pm, hrun, hpm, hok, claim_backed_by_push hrun hpm hok⟩

/-! ## Separation within one process -/

/-- The operation keeps the process alive. -/
def Op.inProcess : Op → Prop
  | .crash => False
  | .restart _ => False
  | _ => True

/-- A push carries a correctly signed pair. -/
def Op.signed (verify : String → String → Bool) : Op → Prop
  | .pushTask h s => verify h s = true
  | _ => True

def Event.claims (h : String) : Event → Bool
  | .claimed h' _ => h' = h
  | _ => false

/-- Number of successful claims of `h` in the history. -/
def claimCount (log : List Event) (h : String) : Nat :=
  (log.filter (Event.claims h)).length

/-- A running item outlives its claim; a pending item whose hash was claimed
before was stored by a push that came after the claim had expired; and any
two recorded claims are separated by such a push. -/
structure SeparatedInv (verify : String → String → Bool) (w : World) :
    Prop where
  running : ∀ h t, .claimed h t ∈ w.log → t + 60 ≤ w.now ∨
    ∃ pm, w.process = some pm ∧
      pm.cache.get? h = some ⟨.int TASK_STATUS_RUNNING, some (t + 60)⟩
  pending : ∀ pm, w.process = some pm → ∀ h e, pm.cache.get? h = some e →
    e.pending = true → (∃ t₁, .claimed h t₁ ∈ w.log) →
    ∃ newer s t older, w.log = newer ++ .pushed h s t :: older ∧
      verify h s = true ∧ t ≤ w.now ∧ (∀ t₁, .claimed h t₁ ∉ newer) ∧
      ∀ t₁, .claimed h t₁ ∈ older → t₁ + 60 ≤ t
  separated : ∀ h newer t₂ mid t₁ older,
    w.log = newer ++ .claimed h t₂ :: (mid ++ .claimed h t₁ :: older) →
    ∃ s t, .pushed h s t ∈ mid ∧ verify h s = true ∧ t₁ + 60 ≤ t ∧ t ≤ t₂

theorem booted_separatedInv (t₀ : ℚ) (pm : ProofManager) :
    SeparatedInv verify (World.booted t₀ pm) :=
  ⟨fun h t hmem => by simp [World.booted] at hmem,
    fun _ _ h e _ _ hclaimed => by simp [World.booted] at hclaimed,
    fun h newer t₂ mid t₁ older hlog => by simp [World.booted] at hlog⟩

/-- The split of a list at an element that its head is not. -/
theorem tail_split {α : Type*} {a b : α} {l xs ys : List α} (hab : a ≠ b)
    (h : a :: l = xs ++ b :: ys) : ∃ xs', xs = a :: xs' ∧ l = xs' ++ b :: ys := by
  cases xs with
  | nil =>
      simp only [List.nil_append, List.cons.injEq] at h
      exact absurd h.1 hab
  | cons x xs =>
      simp only [List.cons_append, List.cons.injEq] at h
      exact ⟨xs, by rw [h.1], h.2⟩

/-- When the newest element equal to some `.claimed h _` lies behind a push,
the push lies before every such claim. -/
theorem pushed_mem_of_split {h s : String} {t t₁ : ℚ}
    {newer older mid rest : List Event}
    (hnone : ∀ t₁, .claimed h t₁ ∉ newer)
    (heq : newer ++ .pushed h s t :: older = mid ++ .claimed h t₁ :: rest) :
    .pushed h s t ∈ mid ∧ .claimed h t₁ ∈ older := by
  rcases List.append_eq_append_iff.1 heq with
    ⟨a, rfl, hrest⟩ | ⟨a, rfl, hrest⟩
  · obtain ⟨a', rfl, rfl⟩ := tail_split (by simp) hrest
    exact ⟨by simp, by simp⟩
  · cases a with
    | nil => simp at hrest
    | cons x a =>
        simp only [List.cons_append, List.cons.injEq] at hrest
        exact absurd (by simp [hrest.1]) (hnone t₁)

/-- An accepted push finds every earlier claim of its hash expired. -/
theorem SeparatedInv.push_after {w : World} (hinv : SeparatedInv verify w)
    {pm : ProofManager} {h : String} (hpm : w.process = some pm)
    (hanswer :
      (ProofManager.answer w.now (pm.cache.get? h)).truthy = false)
    (t₁ : ℚ) (hmem : .claimed h t₁ ∈ w.log) : t₁ + 60 ≤ w.now := by
  rcases hinv.running h t₁ hmem with hpast | ⟨pm', hpm', hget⟩
  · exact hpast
  · rw [hpm] at hpm'
    cases hpm'
    rw [hget] at hanswer
    by_contra hlt
    have hlive : Entry.live w.now
        ⟨.int TASK_STATUS_RUNNING, some (t₁ + 60)⟩ = true := by
      simpa [Entry.live] using not_le.1 hlt
    rw [ProofManager.answer_live hlive] at hanswer
    cases hanswer

/-- A claim finds every earlier claim of its hash expired. -/
theorem SeparatedInv.claim_after {w : World} (hinv : SeparatedInv verify w)
    {pm : ProofManager} {h : String} {e : Entry} (hpm : w.process = some pm)
    (hget : pm.cache.get? h = some e) (hpend : e.pending = true)
    (t₁ : ℚ) (hmem : .claimed h t₁ ∈ w.log) : t₁ + 60 ≤ w.now := by
  rcases hinv.running h t₁ hmem with hpast | ⟨pm', hpm', hrunning⟩
  · exact hpast
  · rw [hpm] at hpm'
    cases hpm'
    rw [hget] at hrunning
    cases hrunning
    rw [running_not_pending] at hpend
    cases hpend

/-- A running item whose live entry is kept goes on running. -/
theorem SeparatedInv.running_kept {w : World} (hinv : SeparatedInv verify w)
    {pm pm' : ProofManager} {k : String} (hpm : w.process = some pm)
    (hkept : ∀ e, pm.cache.get? k = some e → e.live w.now = true → pm'.cache.get? k = some e)
    {t : ℚ} (hmem : .claimed k t ∈ w.log) : t + 60 ≤ w.now ∨
      ∃ pm₀, some pm' = some pm₀ ∧
        pm₀.cache.get? k = some ⟨.int TASK_STATUS_RUNNING, some (t + 60)⟩ := by
  by_cases hle : t + 60 ≤ w.now
  · exact Or.inl hle
  · rcases hinv.running k t hmem with hpast | ⟨pm₀, hpm₀, hget⟩
    · exact Or.inl hpast
    · rw [hpm] at hpm₀
      cases hpm₀
      refine Or.inr ⟨pm', rfl, hkept _ hget ?_⟩
      simpa [Entry.live] using not_le.1 hle

/-- The last push of `h` has a valid signature, no claim has followed it, and it comes
sixty seconds after every claim before it. -/
def PushedSince (verify : String → String → Bool) (now : ℚ) (log : List Event) (h : String) :
    Prop :=
  ∃ newer s t older, log = newer ++ .pushed h s t :: older ∧
    verify h s = true ∧ t ≤ now ∧ (∀ t₁, .claimed h t₁ ∉ newer) ∧
    ∀ t₁, .claimed h t₁ ∈ older → t₁ + 60 ≤ t

theorem PushedSince.cons {now : ℚ} {log : List Event} {h : String} {x : Event}
    (hpushed : PushedSince verify now log h) (hx : ∀ t, x ≠ .claimed h t) :
    PushedSince verify now (x :: log) h := by
  obtain ⟨newer, s, t, older, hlog, hverify, ht, hnone, hafter⟩ := hpushed
  refine ⟨x :: newer, s, t, older, by rw [hlog]; rfl, hverify, ht, ?_, hafter⟩
  intro t₁ hmem
  rcases List.mem_cons.1 hmem with heq | hold
  · exact hx t₁ heq.symm
  · exact hnone t₁ hold

theorem PushedSince.later {now now' : ℚ} {log : List Event} {h : String}
    (hpushed : PushedSince verify now log h) (hle : now ≤ now') :
    PushedSince verify now' log h := by
  obtain ⟨newer, s, t, older, hlog, hverify, ht, hrest⟩ := hpushed
  exact ⟨newer, s, t, older, hlog, hverify, le_trans ht hle, hrest⟩

/-- A claim of `h` comes after the push and after every claim before that. -/
theorem PushedSince.separates {now t₁ : ℚ} {h : String} {mid older : List Event}
    (hpushed : PushedSince verify now (mid ++ .claimed h t₁ :: older) h) :
    ∃ s t, .pushed h s t ∈ mid ∧ verify h s = true ∧ t₁ + 60 ≤ t ∧ t ≤ now := by
  obtain ⟨newer, s, t, older', hlog, hverify, ht, hnone, hafter⟩ := hpushed
  obtain ⟨hmid, holder⟩ := pushed_mem_of_split hnone hlog.symm
  exact ⟨s, t, hmid, hverify, hafter t₁ holder, ht⟩

theorem SeparatedInv.of_accepted {w : World} (hinv : SeparatedInv verify w)
    {pm pm' : ProofManager} {h s : String} (hpm : w.process = some pm)
    (hverify : verify h s = true)
    (hanswer :
      (ProofManager.answer w.now (pm.cache.get? h)).truthy = false)
    (hcache : ∀ k, pm'.cache.get? k =
      if k = h then some ⟨.int TASK_STATUS_PENGDING, some (w.now + 60)⟩
      else pm.cache.get? k) :
    SeparatedInv verify
      { w with process := some pm', log := .pushed h s w.now :: w.log } := by
  have hpast := hinv.push_after hpm hanswer
  refine ⟨?_, ?_, ?_⟩
  · intro k t hmem
    have hold : .claimed k t ∈ w.log := by simpa using hmem
    by_cases hkh : k = h
    · subst hkh
      exact Or.inl (hpast t hold)
    · exact hinv.running_kept hpm (fun e he _ => by rw [hcache, if_neg hkh, he]) hold
  · rintro _ ⟨⟩ k e hget hpend ⟨t₁, hmem⟩
    by_cases hkh : k = h
    · subst hkh
      exact ⟨[], s, w.now, w.log, rfl, hverify, le_refl _, by simp, hpast⟩
    · rw [hcache, if_neg hkh] at hget
      have hpushed : PushedSince verify w.now w.log k :=
        hinv.pending pm hpm k e hget hpend ⟨t₁, by simpa using hmem⟩
      exact hpushed.cons (fun t heq => by cases heq)
  · intro k newer t₂ mid t₁ older hlog
    obtain ⟨newer', rfl, hlog'⟩ := tail_split (by simp) hlog
    exact hinv.separated k newer' t₂ mid t₁ older hlog'

theorem SeparatedInv.of_claimed {w : World} (hinv : SeparatedInv verify w)
    {pm pm' : ProofManager} {h : String} {e₀ : Entry}
    (hpm : w.process = some pm) (hget₀ : pm.cache.get? h = some e₀)
    (hpend₀ : e₀.pending = true)
    (hcache : ∀ k, pm'.cache.get? k =
      if k = h then some ⟨.int TASK_STATUS_RUNNING, some (w.now + 60)⟩
      else pm.cache.get? k) :
    SeparatedInv verify
      { w with process := some pm', log := .claimed h w.now :: w.log } := by
  refine ⟨?_, ?_, ?_⟩
  · intro k t hmem
    rcases List.mem_cons.1 hmem with heq | hold
    · cases heq
      exact Or.inr ⟨pm', rfl, by rw [hcache, if_pos rfl]⟩
    · by_cases hkh : k = h
      · subst hkh
        exact Or.inl (hinv.claim_after hpm hget₀ hpend₀ t hold)
      · exact hinv.running_kept hpm (fun e he _ => by rw [hcache, if_neg hkh, he]) hold
  · rintro _ ⟨⟩ k e hget hpend ⟨t₁, hmem⟩
    rw [hcache] at hget
    split at hget
    next =>
      cases hget
      rw [running_not_pending] at hpend
      cases hpend
    next hkh =>
      have hother : ∀ t, (.claimed h w.now : Event) ≠ .claimed k t := by
        intro t heq
        cases heq
        exact hkh rfl
      have hpushed : PushedSince verify w.now w.log k :=
        hinv.pending pm hpm k e hget hpend
          ⟨t₁, (List.mem_cons.1 hmem).resolve_left (fun heq => hother t₁ heq.symm)⟩
      exact hpushed.cons hother
  · intro k newer t₂ mid t₁ older hlog
    cases newer with
    | nil =>
        simp only [List.nil_append, List.cons.injEq, Event.claimed.injEq]
          at hlog
        obtain ⟨⟨rfl, rfl⟩, hlog⟩ := hlog
        have hpushed : PushedSince verify w.now w.log h :=
          hinv.pending pm hpm h e₀ hget₀ hpend₀ ⟨t₁, by rw [hlog]; simp⟩
        rw [hlog] at hpushed
        exact hpushed.separates
    | cons x newer =>
        simp only [List.cons_append, List.cons.injEq] at hlog
        exact hinv.separated k newer t₂ mid t₁ older hlog.2

/-- Every effect of an operation within the process preserves the
separation. -/
theorem SeparatedInv.step {w w' : World} {op : Op}
    (hinv : SeparatedInv verify w) (hop : op.inProcess)
    (hstep : w.step verify op = some w') : SeparatedInv verify w' := by
  have heff := effect_of_step hstep
  cases heff with
  | @accepted pm pm' h s hpm hverify hanswer hcache =>
      exact hinv.of_accepted hpm hverify hanswer hcache
  | @claimed pm pm' h e hpm hget hlive hpend hcache =>
      exact hinv.of_claimed hpm hget hpend hcache
  | @shrunk pm pm' _ snapshots hpm hmem hlive hsnap =>
      refine ⟨fun k t => hinv.running_kept hpm (hlive k), ?_, hinv.separated⟩
      rintro _ ⟨⟩ k e hget hpend hlog
      exact hinv.pending pm hpm k e (hmem k e hget) hpend hlog
  | crashed => exact hop.elim
  | restarted => exact hop.elim
  | advanced d hd =>
      have hle : w.now ≤ w.now + d := by linarith
      refine ⟨?_, ?_, hinv.separated⟩
      · intro h t hmem
        rcases hinv.running h t hmem with hpast | hget
        · exact Or.inl (le_trans hpast hle)
        · exact Or.inr hget
      · intro pm hpm k e hget hpend hlog
        have hpushed : PushedSince verify w.now w.log k :=
          hinv.pending pm hpm k e hget hpend hlog
        exact hpushed.later hle

/-- **Two claims of one hash are separated.**  In any run of one process, on
any initial cache, between two successful claims of a hash there is an
accepted push of it with a valid signature, no earlier than sixty seconds
after the first claim and no later than the second. -/
theorem claims_of_hash_separated {t₀ : ℚ} {pm : ProofManager}
    {ops : List Op} {w : World} (hops : ∀ op ∈ ops, op.inProcess)
    (hrun : run (World.step verify) (World.booted t₀ pm) ops = some w)
    {h : String} {newer mid older : List Event} {t₁ t₂ : ℚ}
    (hlog : w.log =
      newer ++ .claimed h t₂ :: (mid ++ .claimed h t₁ :: older)) :
    t₁ + 60 ≤ t₂ ∧ ∃ s t, .pushed h s t ∈ mid ∧ verify h s = true ∧
      t₁ + 60 ≤ t ∧ t ≤ t₂ := by
  have hinv : SeparatedInv verify w :=
    run_invariant (SeparatedInv verify) Op.inProcess
      (fun _ _ _ hop hinv hstep => hinv.step hop hstep) hops
      (booted_separatedInv t₀ pm) hrun
  obtain ⟨s, t, hmem, hverify, hafter, hbefore⟩ :=
    hinv.separated h newer t₂ mid t₁ older hlog
  exact ⟨le_trans hafter hbefore, s, t, hmem, hverify, hafter, hbefore⟩

/-- The pair is delivered again when the running item has expired. -/
def redeliveryOps : List Op :=
  [.pushTask "0xab" "sig", .claimTask "0xab", .advance 60,
    .pushTask "0xab" "sig", .claimTask "0xab"]

theorem redelivery_log :
    (run (World.step acceptsOne) (World.booted 0 ⟨Dict.empty, false⟩)
      redeliveryOps).map World.log =
      some ([] ++ .claimed "0xab" 60 :: ([.pushed "0xab" "sig" 60] ++
        .claimed "0xab" 0 :: [.pushed "0xab" "sig" 0])) := by
  decide +kernel

theorem redeliveryOps_inProcess : ∀ op ∈ redeliveryOps, op.inProcess := by
  simp [redeliveryOps, Op.inProcess]

/-- The two claims of the redelivery are separated by the second push. -/
theorem claims_of_hash_separated_redelivery :
    ∃ w, run (World.step acceptsOne) (World.booted 0 ⟨Dict.empty, false⟩)
      redeliveryOps = some w ∧
      ((0 : ℚ) + 60 ≤ 60 ∧ ∃ s t,
        .pushed "0xab" s t ∈ [Event.pushed "0xab" "sig" 60] ∧
        acceptsOne "0xab" s = true ∧ (0 : ℚ) + 60 ≤ t ∧ t ≤ 60) := by
  obtain ⟨w, hrun, hlog⟩ := Option.map_eq_some_iff.1 redelivery_log
  exact ⟨w, hrun,
    claims_of_hash_separated redeliveryOps_inProcess hrun hlog⟩

/-- **A hash can be claimed twice.**  Correctly signed pushes alone do not
bound the number of successful claims of a hash by one. -/
theorem claimed_twice :
    ¬ ∀ (verify : String → String → Bool) (t₀ : ℚ) (pm : ProofManager)
      (ops : List Op) (w : World),
      (∀ op ∈ ops, op.inProcess ∧ op.signed verify) →
      run (World.step verify) (World.booted t₀ pm) ops = some w →
      ∀ h, claimCount w.log h ≤ 1 := by
  intro honce
  obtain ⟨w, hrun, hlog⟩ := Option.map_eq_some_iff.1 redelivery_log
  have hops : ∀ op ∈ redeliveryOps, op.inProcess ∧ op.signed acceptsOne := by
    simp [redeliveryOps, Op.inProcess, Op.signed, acceptsOne]
  have hcount := honce acceptsOne 0 ⟨Dict.empty, false⟩ redeliveryOps w hops
    hrun "0xab"
  have htwo : claimCount w.log "0xab" = 2 := by
    rw [hlog]
    rfl
  omega

end ProverNetwork.Ports.ProofManagerRun
