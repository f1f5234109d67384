import Mathlib.Tactic.Linarith
import ProverNetwork.Ports.ProofManagerFile
import ProverNetwork.Verified.Run

/-!
# Physical expiry is unobservable

Expired items are removed lazily in `get`, in the flush, in `clean_expired` and
at load.  A caller of `get` and `claim_task` cannot tell: the answers are those
of a map that removes nothing and answers a key with the last item stored
under it, as long as that has not expired.

## Main results

* `saveCache_saves`, `cleanExpired_saves` — what a flush leaves in memory and
  on disk.
* `Simulates` — the caches agree, and a clean flag means that the file does.
* `expiry_unobservable` — equal traces.
-/

namespace ProverNetwork.Ports.ProofManagerExpiry

open ProverNetwork.Verified
open ProverNetwork.Ports.ProofManager

/-- What the callers do, and the cleanups between them.  A reload follows a
successful flush, some time later. -/
inductive Op
  | set (key : String) (value : PyVal) (ttl : Option ℚ)
  | get (key : String)
  | claimTask (proofHash : String)
  | cleanExpired (outcome : WriteOutcome)
  | saveCache (outcome : WriteOutcome)
  | saveAndReload (d : { d : ℚ // 0 ≤ d })
  | advance (d : { d : ℚ // 0 ≤ d })

inductive Output
  | done
  | value (v : PyVal)
  | claim (ok : Ok) (msg : String)
  | raised (e : PickleFailure)

/-! ## The node -/

structure Node where
  now : ℚ
  pm : ProofManager
  file : CacheFile

/-- A flush or a cleanup that ended in `r`. -/
def Node.saved (n : Node) (r : ProofManager × Option CacheFile) : Node :=
  { n with pm := r.1, file := r.2.getD n.file }

/-- A new process on the file. -/
def Node.reload (n : Node) (now : ℚ) : Output × Node :=
  match init n.file now with
  | .ok pm => (.done, { n with now := now, pm := pm })
  | .error e => (.raised e, { n with now := now })

def Node.step (n : Node) : Op → Output × Node
  | .set key value ttl => (.done, { n with pm := n.pm.set n.now key value ttl })
  | .get key => (.value (n.pm.get n.now key).1, { n with pm := (n.pm.get n.now key).2 })
  | .claimTask h =>
      let r := n.pm.claimTask n.now h
      (.claim r.1.1 r.1.2, { n with pm := r.2 })
  | .cleanExpired outcome => (.done, n.saved (n.pm.cleanExpired n.now outcome))
  | .saveCache outcome => (.done, n.saved (n.pm.saveCache n.now outcome))
  | .saveAndReload d => (n.saved (n.pm.saveCache n.now .written)).reload (n.now + d)
  | .advance d => (.done, { n with now := n.now + d })

/-! ## The map that removes nothing -/

/-- The last item stored under each key. -/
structure Reference where
  now : ℚ
  stored : String → Option Entry

def Reference.get (r : Reference) (key : String) : PyVal := answer r.now (r.stored key)

def Reference.set (r : Reference) (key : String) (value : PyVal) (ttl : Option ℚ) : Reference :=
  { r with stored := fun k =>
      if k = key then some ⟨value, ttl.map (fun d => r.now + d)⟩ else r.stored k }

/-- What a claim answers for a status. -/
def claimAnswer (status : PyVal) : Ok × String :=
  if status.isNone then (.code STATUS_CODE_TASK_NOT_FOUND, "Proof hash does not exist")
  else if !status.eqInt TASK_STATUS_PENGDING then
    (.code STATUS_CODE_TASK_INVALID, "Proof hash is invalid")
  else (.yes, "Successfully")

def Reference.claimTask (r : Reference) (h : String) : Reference :=
  if (claimAnswer (r.get h)).1 = .yes then r.set h (.int TASK_STATUS_RUNNING) (some 60) else r

def Reference.step (r : Reference) : Op → Output × Reference
  | .set key value ttl => (.done, r.set key value ttl)
  | .get key => (.value (r.get key), r)
  | .claimTask h =>
      let a := claimAnswer (r.get h)
      (.claim a.1 a.2, r.claimTask h)
  | .cleanExpired _ => (.done, r)
  | .saveCache _ => (.done, r)
  | .saveAndReload d => (.done, { r with now := r.now + d })
  | .advance d => (.done, { r with now := r.now + d })

/-! ## What a flush leaves -/

/-- `r` is what is left of `pm` after a flush: the cache is the same up to
expired items, and a clean flag was clean before or goes with a full dump. -/
structure Saves (pm : ProofManager) (now : ℚ) (r : ProofManager × Option CacheFile) : Prop where
  same : SameAt now r.1.cache pm.cache
  clean : r.1.dirty = false → r.2 = some (.dump r.1.cache) ∨ pm.dirty = false ∧ r.2 = none

theorem saveCache_saves (pm : ProofManager) (now : ℚ) (outcome : WriteOutcome) :
    Saves pm now (pm.saveCache now outcome) := by
  unfold saveCache
  by_cases hdirty : pm.dirty = true
  · rw [hdirty]
    cases outcome with
    | written => exact ⟨sameAt_dropExpired le_rfl pm.cache, fun _ => Or.inl rfl⟩
    | notOpened =>
        exact ⟨sameAt_dropExpired le_rfl pm.cache, fun hclean => Bool.noConfusion hclean⟩
    | cutShort e =>
        exact ⟨sameAt_dropExpired le_rfl pm.cache, fun hclean => Bool.noConfusion hclean⟩
  · rw [Bool.not_eq_true] at hdirty
    rw [hdirty]
    exact ⟨AgreeAt.refl _, fun _ => Or.inr ⟨hdirty, rfl⟩⟩

theorem saveCache_written_clean (pm : ProofManager) (now : ℚ) :
    (pm.saveCache now .written).1.dirty = false := by
  unfold saveCache
  by_cases hdirty : pm.dirty = true
  · rw [hdirty]
    rfl
  · rw [Bool.not_eq_true] at hdirty
    rw [hdirty]
    exact hdirty

theorem cleanExpired_saves (pm : ProofManager) (now : ℚ) (outcome : WriteOutcome) :
    Saves pm now (pm.cleanExpired now outcome) := by
  have hdrop := sameAt_dropExpired (le_refl now) pm.cache
  unfold cleanExpired
  dsimp only
  split
  · exact ⟨hdrop, fun hclean => Or.inr ⟨hclean, rfl⟩⟩
  · obtain ⟨hsame, hclean⟩ := saveCache_saves ⟨dropExpired now pm.cache, true⟩ now outcome
    refine ⟨hsame.trans hdrop, fun h => ?_⟩
    rcases hclean h with hdump | ⟨hdirty, -⟩
    · exact Or.inl hdump
    · cases hdirty

theorem claimTask_answer (pm : ProofManager) (now : ℚ) (h : String) :
    (pm.claimTask now h).1 = claimAnswer (answer now (pm.cache.get? h)) := by
  rw [← get_fst]
  unfold claimTask claimAnswer
  dsimp only
  split
  · rfl
  · split <;> rfl

/-! ## The simulation -/

/-- The caches agree from now on, and a clean flag means that the file loads and
agrees too. -/
structure Simulates (n : Node) (r : Reference) : Prop where
  now : n.now = r.now
  agree : AgreeAt lifetime n.now n.pm.cache.get? r.stored
  loads : n.pm.dirty = false → n.file ≠ .cut .eofError
  clean : n.pm.dirty = false → SameAt n.now (content n.file) n.pm.cache

namespace Simulates

variable {n : Node} {r : Reference}

/-- A process on `file` starts with the content of the file. -/
theorem booted {now : ℚ} {pm : ProofManager} {file : CacheFile}
    (h : init file now = .ok pm) :
    Simulates ⟨now, pm, file⟩ ⟨now, (content file).get?⟩ where
  now := rfl
  agree := (init_content le_rfl h).2
  loads _ := by
    rintro rfl
    cases h
  clean _ := (init_content le_rfl h).2.symm

theorem get_eq (hR : Simulates n r) (key : String) :
    answer n.now (n.pm.cache.get? key) = r.get key := by
  rw [← answer_filter, show Option.filter (Entry.live n.now) _ = _ from hR.agree key,
    Reference.get, ← hR.now]
  exact answer_filter n.now (r.stored key)

/-- A request that leaves the flag set, or the manager alone. -/
theorem request {pm' : ProofManager} {stored : String → Option Entry} (hR : Simulates n r)
    (hflag : pm' = n.pm ∨ pm'.dirty = true)
    (hagree : AgreeAt lifetime n.now pm'.cache.get? stored) :
    Simulates { n with pm := pm' } { r with stored := stored } := by
  rcases hflag with rfl | hset
  · exact ⟨hR.now, hagree, hR.loads, hR.clean⟩
  · have hdirty : ¬pm'.dirty = false := by simp [hset]
    exact ⟨hR.now, hagree, fun h => absurd h hdirty, fun h => absurd h hdirty⟩

theorem lookup (hR : Simulates n r) (key : String) :
    Simulates { n with pm := (n.pm.get n.now key).2 } r :=
  hR.request (get_clean n.pm n.now key)
    ((agreeAt_of_purge le_rfl (get_purge n.pm n.now key)).trans hR.agree)

theorem claimTask (hR : Simulates n r) (h : String) :
    Simulates { n with pm := (n.pm.claimTask n.now h).2 } (r.claimTask h) := by
  have hanswer := claimTask_answer n.pm n.now h
  rw [hR.get_eq] at hanswer
  unfold Reference.claimTask
  rw [← hanswer]
  by_cases hok : (n.pm.claimTask n.now h).1.1 = .yes
  · rw [if_pos hok]
    refine hR.request (Or.inr (claimTask_dirty hok)) ?_
    refine hR.agree.store (claimTask_yes hok).2 (fun k => ?_)
    rw [hR.now]
    rfl
  · rw [if_neg hok, claimTask_refused hok]
    exact hR.lookup h

theorem saved {p : ProofManager × Option CacheFile} (hR : Simulates n r)
    (hsaves : Saves n.pm n.now p) : Simulates (n.saved p) r := by
  refine ⟨hR.now, hsaves.same.trans hR.agree, ?_, ?_⟩
  · intro hclean
    rcases hsaves.clean hclean with hdump | ⟨hbefore, hnone⟩
    · simp [Node.saved, hdump]
    · simpa [Node.saved, hnone] using hR.loads hbefore
  · intro hclean
    rcases hsaves.clean hclean with hdump | ⟨hbefore, hnone⟩
    · simp only [Node.saved, hdump]
      exact AgreeAt.refl _
    · simp only [Node.saved, hnone]
      exact (hR.clean hbefore).trans hsaves.same.symm

theorem advance (hR : Simulates n r) {d : ℚ} (hd : 0 ≤ d) :
    Simulates { n with now := n.now + d } { r with now := r.now + d } := by
  have hle : n.now ≤ n.now + d := by linarith
  exact ⟨by rw [hR.now], hR.agree.mono hle, hR.loads, fun hclean => (hR.clean hclean).mono hle⟩

/-- A process that starts later on the file of a clean one takes its place. -/
theorem reload (hR : Simulates n r) (hclean : n.pm.dirty = false) {d : ℚ} (hd : 0 ≤ d) :
    (n.reload (n.now + d)).1 = .done ∧
      Simulates (n.reload (n.now + d)).2 { r with now := r.now + d } := by
  have hle : n.now ≤ n.now + d := by linarith
  cases hload : init n.file (n.now + d) with
  | error e =>
      exfalso
      have hloads := hR.loads hclean
      unfold init loadCache at hload
      split at hload <;> cases hload
      next heof => exact hloads heof
  | ok pm =>
      obtain ⟨-, hsame⟩ := init_content le_rfl hload
      simp only [Node.reload, hload, true_and]
      refine ⟨by rw [hR.now], ?_, fun _ => hR.loads hclean, fun _ => hsame.symm⟩
      exact hsame.trans (((hR.clean hclean).trans hR.agree).mono hle)

/-- **Simulation step**: equal answers, and the states stay related. -/
theorem step (hR : Simulates n r) (op : Op) :
    (n.step op).1 = (r.step op).1 ∧ Simulates (n.step op).2 (r.step op).2 := by
  cases op with
  | set key value ttl =>
      refine ⟨rfl, hR.request (Or.inr rfl) ?_⟩
      refine hR.agree.store (set_get? n.pm n.now key · value ttl) (fun k => ?_)
      rw [hR.now]
  | get key =>
      refine ⟨?_, hR.lookup key⟩
      simp only [Node.step, Reference.step, get_fst, hR.get_eq]
  | claimTask h =>
      refine ⟨?_, hR.claimTask h⟩
      simp only [Node.step, Reference.step, claimTask_answer, hR.get_eq]
  | cleanExpired outcome => exact ⟨rfl, hR.saved (cleanExpired_saves n.pm n.now outcome)⟩
  | saveCache outcome => exact ⟨rfl, hR.saved (saveCache_saves n.pm n.now outcome)⟩
  | saveAndReload d =>
      exact (hR.saved (saveCache_saves n.pm n.now .written)).reload
        (saveCache_written_clean n.pm n.now) d.2
  | advance d => exact ⟨rfl, hR.advance d.2⟩

end Simulates

/-- **Physical expiry is unobservable**: a node that starts on a file and the
map of the items in it answer every sequence of operations alike. -/
theorem expiry_unobservable {now : ℚ} {pm : ProofManager} {file : CacheFile}
    (hinit : init file now = .ok pm) (ops : List Op) :
    trace Node.step ⟨now, pm, file⟩ ops =
      trace Reference.step ⟨now, (content file).get?⟩ ops :=
  trace_eq_of_simulation Simulates (fun _ _ op hR => hR.step op) (Simulates.booted hinit) ops

/-- A task that is claimed, survives a reload, expires and is asked for again. -/
def expiringOps : List Op :=
  [.set "0xab" (.int TASK_STATUS_PENGDING) (some 60), .claimTask "0xab",
    .saveAndReload ⟨30, by norm_num⟩, .get "0xab", .claimTask "0xab",
    .advance ⟨30, by norm_num⟩, .cleanExpired (.cutShort .eofError), .get "0xab"]

theorem expiry_unobservable_expiring :
    trace Node.step ⟨1000, ⟨Dict.empty, false⟩, .absent⟩ expiringOps =
      trace Reference.step ⟨1000, (content .absent).get?⟩ expiringOps :=
  expiry_unobservable rfl expiringOps

end ProverNetwork.Ports.ProofManagerExpiry
