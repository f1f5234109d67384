import Mathlib.Tactic.Linarith
import ProverNetwork.Ports.ProofManager
import ProverNetwork.Verified.Run

/-!
# Runs of the task cache

One node process serves `push_task`, the claims of the prove handlers, lookups
and the background flush, while the clock only advances.  A process may crash
at any moment and start again on a cache file; every complete dump it ever
wrote is kept in `snapshots`, and a restart may find any of them.

The history of accepted pushes, successful claims and restarts is ghost state,
newest first.  No operation reads it.

## Main results

* `effect_of_step` — what a step can do to the cache, to the snapshots and to the
  history.
-/

namespace ProverNetwork.Ports.ProofManagerRun

open ProverNetwork.Verified
open ProverNetwork.Ports

/-- What the history records. -/
inductive Event
  | pushed (proofHash signature : String) (time : ℚ)
  | claimed (proofHash : String) (time : ℚ)
  | restarted (time : ℚ)
  deriving DecidableEq

def Event.time : Event → ℚ
  | pushed _ _ t => t
  | claimed _ t => t
  | restarted t => t

def Event.isRestart : Event → Bool
  | restarted _ => true
  | _ => false

/-- The requests and the background operations of a node.  A restart finds no
cache file, or the `i`-th latest of the complete dumps. -/
inductive Op
  | pushTask (proofHash signature : String)
  | claimTask (proofHash : String)
  | get (key : String)
  | saveCache (outcome : WriteOutcome)
  | cleanExpired (outcome : WriteOutcome)
  | crash
  | restart (choice : Option Nat)
  | advance (d : ℚ)

/-- The clock, the process when one is alive, every complete dump written so
far, and the history. -/
structure World where
  now : ℚ
  process : Option ProofManager
  snapshots : List Cache
  log : List Event

/-- Nothing has run and no cache file exists. -/
def World.initial (now : ℚ) : World := ⟨now, none, [], []⟩

/-- A process in its constructor's final state, with an empty history. -/
def World.booted (now : ℚ) (pm : ProofManager) : World :=
  ⟨now, some pm, [], []⟩

/-- The dumps after an operation that left `file` on disk, if it wrote. -/
def addSnapshot (snapshots : List Cache) : Option CacheFile → List Cache
  | some (.dump c) => c :: snapshots
  | _ => snapshots

/-- The file a restart finds. -/
def World.found (w : World) : Option Nat → Option CacheFile
  | none => some .absent
  | some i => (w.snapshots[i]?).map CacheFile.dump

/-- A flush or a cleanup that ended in `r`. -/
def World.flushed (w : World) (r : ProofManager × Option CacheFile) : World :=
  { w with process := some r.1, snapshots := addSnapshot w.snapshots r.2 }

/-- `push_task` on the live process `pm`. -/
def World.push (verify : String → String → Bool) (w : World)
    (pm : ProofManager) (h s : String) : World :=
  match pushTask verify pm w.now h s with
  | (.ok _, pm') =>
      { w with process := some pm', log := .pushed h s w.now :: w.log }
  | (.error _, pm') => { w with process := some pm' }

/-- `claim_task` on the live process `pm`. -/
def World.claim (w : World) (pm : ProofManager) (h : String) : World :=
  match pm.claimTask w.now h with
  | ((.yes, _), pm') =>
      { w with process := some pm', log := .claimed h w.now :: w.log }
  | ((.code _, _), pm') => { w with process := some pm' }

/-- `__init__` on the file a restart finds. -/
def World.boot (w : World) (file : CacheFile) : Option World :=
  match ProofManager.init file w.now with
  | .ok pm =>
      some { w with process := some pm, log := .restarted w.now :: w.log }
  | .error _ => none

/-- One operation.  Requests and flushes need a live process, a restart a dead
one; the clock never goes back. -/
def World.step (verify : String → String → Bool) (w : World) :
    Op → Option World
  | .pushTask h s => w.process.map (fun pm => w.push verify pm h s)
  | .claimTask h => w.process.map (fun pm => w.claim pm h)
  | .get key =>
      w.process.map (fun pm =>
        { w with process := some (pm.get w.now key).2 })
  | .saveCache outcome =>
      w.process.map (fun pm => w.flushed (pm.saveCache w.now outcome))
  | .cleanExpired outcome =>
      w.process.map (fun pm => w.flushed (pm.cleanExpired w.now outcome))
  | .crash => some { w with process := none }
  | .restart choice =>
      if w.process.isSome then none else (w.found choice).bind w.boot
  | .advance d => if 0 ≤ d then some { w with now := w.now + d } else none

/-- What a single operation can do, guards included: the cache only loses
items, except that an accepted push stores a pending item, a successful claim
a running one, and a restart loads a dump. -/
inductive Effect (verify : String → String → Bool) (w : World) :
    Op → World → Prop
  | accepted {pm pm' : ProofManager} (h s : String) :
      w.process = some pm → verify h s = true →
      (ProofManager.answer w.now (pm.cache.get? h)).truthy = false →
      (∀ k, pm'.cache.get? k =
        if k = h then some ⟨.int TASK_STATUS_PENGDING, some (w.now + 60)⟩
        else pm.cache.get? k) →
      Effect verify w (.pushTask h s)
        { w with process := some pm', log := .pushed h s w.now :: w.log }
  | claimed {pm pm' : ProofManager} (h : String) (e : Entry) :
      w.process = some pm → pm.cache.get? h = some e →
      e.live w.now = true → e.pending = true →
      (∀ k, pm'.cache.get? k =
        if k = h then some ⟨.int TASK_STATUS_RUNNING, some (w.now + 60)⟩
        else pm.cache.get? k) →
      Effect verify w (.claimTask h)
        { w with process := some pm', log := .claimed h w.now :: w.log }
  | shrunk {pm pm' : ProofManager} (op : Op) (snapshots : List Cache) :
      w.process = some pm →
      (∀ k e, pm'.cache.get? k = some e → pm.cache.get? k = some e) →
      (∀ k e, pm.cache.get? k = some e → e.live w.now = true →
        pm'.cache.get? k = some e) →
      (∀ c ∈ snapshots, c ∈ w.snapshots ∨ c = pm'.cache) →
      Effect verify w op
        { w with process := some pm', snapshots := snapshots }
  | crashed : Effect verify w .crash { w with process := none }
  | restarted {pm : ProofManager} (choice : Option Nat) :
      w.process = none →
      (∀ k e, pm.cache.get? k = some e →
        ∃ c ∈ w.snapshots, c.get? k = some e) →
      Effect verify w (.restart choice)
        { w with process := some pm, log := .restarted w.now :: w.log }
  | advanced (d : ℚ) :
      0 ≤ d → Effect verify w (.advance d) { w with now := w.now + d }

variable {verify : String → String → Bool}

/-- A lookup loses at most the item it found expired. -/
theorem get_keeps_live (pm : ProofManager) (now : ℚ) (key k : String)
    (e : Entry) (hget : pm.cache.get? k = some e) (hlive : e.live now = true) :
    (pm.get now key).2.cache.get? k = some e := by
  rw [ProofManager.get_get?]
  split
  · rw [hget, Option.filter_some_pos hlive]
  · exact hget

/-- A lookup, alone or inside a refused request, only shrinks the cache. -/
theorem effect_get {w : World} {pm : ProofManager} (hpm : w.process = some pm)
    (op : Op) (key : String) :
    Effect verify w op { w with process := some (pm.get w.now key).2 } :=
  .shrunk op w.snapshots hpm (fun _ _ h => ProofManager.get_get?_of_some h)
    (fun k e => get_keeps_live pm w.now key k e) (fun _ hc => Or.inl hc)

theorem effect_push {w : World} {pm : ProofManager}
    (hpm : w.process = some pm) (h s : String) :
    Effect verify w (.pushTask h s) (w.push verify pm h s) := by
  unfold World.push
  cases hres : (pushTask verify pm w.now h s).1 with
  | ok r =>
      obtain ⟨hverify, hanswer, hcache⟩ := ProofManager.pushTask_ok hres
      rw [show pushTask verify pm w.now h s =
        (.ok r, (pushTask verify pm w.now h s).2) from Prod.ext hres rfl]
      exact .accepted h s hpm hverify hanswer hcache
  | error e =>
      rw [show pushTask verify pm w.now h s =
        (.error e, (pushTask verify pm w.now h s).2) from Prod.ext hres rfl]
      rcases ProofManager.pushTask_refused hres with heq | heq
      · dsimp only
        rw [heq]
        exact .shrunk _ w.snapshots hpm (fun _ _ h => h) (fun _ _ h _ => h)
          (fun _ hc => Or.inl hc)
      · dsimp only
        rw [heq]
        exact effect_get hpm _ h

theorem effect_claim {w : World} {pm : ProofManager}
    (hpm : w.process = some pm) (h : String) :
    Effect verify w (.claimTask h) (w.claim pm h) := by
  unfold World.claim
  rcases hres : pm.claimTask w.now h with ⟨⟨ok, msg⟩, pm'⟩
  cases ok with
  | yes =>
      have hok : (pm.claimTask w.now h).1.1 = .yes := by rw [hres]
      obtain ⟨⟨e, hget, hlive, hpend⟩, hcache⟩ :=
        ProofManager.claimTask_yes hok
      rw [hres] at hcache
      exact .claimed h e hpm hget hlive hpend hcache
  | code n =>
      have hok : (pm.claimTask w.now h).1.1 ≠ .yes := by rw [hres]; simp
      have heq := ProofManager.claimTask_refused hok
      rw [hres] at heq
      dsimp only at heq ⊢
      rw [heq]
      exact effect_get hpm _ h

theorem effect_flushed {w : World} {pm : ProofManager}
    {r : ProofManager × Option CacheFile} (op : Op)
    (hpm : w.process = some pm)
    (hr : (∀ k e, r.1.cache.get? k = some e → pm.cache.get? k = some e) ∧
      (∀ c, r.2 = some (.dump c) → c = r.1.cache) ∧
      (∀ k e, pm.cache.get? k = some e → e.live w.now = true →
        r.1.cache.get? k = some e)) :
    Effect verify w op (w.flushed r) := by
  obtain ⟨hmem, hdump, hlive⟩ := hr
  refine .shrunk op _ hpm hmem hlive ?_
  intro c hc
  unfold addSnapshot at hc
  split at hc
  · rename_i c' hfile
    rcases List.mem_cons.1 hc with rfl | hold
    · exact Or.inr (hdump _ hfile)
    · exact Or.inl hold
  · exact Or.inl hc

theorem effect_boot {w w' : World} {choice : Option Nat}
    (hdead : w.process = none)
    (hboot : (w.found choice).bind w.boot = some w') :
    Effect verify w (.restart choice) w' := by
  obtain ⟨file, hfound, hinit⟩ := Option.bind_eq_some_iff.1 hboot
  cases choice with
  | none =>
      cases hfound
      cases hinit
      refine .restarted _ hdead ?_
      intro k e hget
      simp at hget
  | some i =>
      obtain ⟨c, hc, rfl⟩ := Option.map_eq_some_iff.1 hfound
      cases hinit
      refine .restarted _ hdead ?_
      intro k e hget
      exact ⟨c, List.mem_of_getElem? hc,
        ProofManager.dropExpired_get?_of_some hget⟩

/-- **One step.**  Every enabled operation is one of the six effects. -/
theorem effect_of_step {w w' : World} {op : Op}
    (hstep : w.step verify op = some w') : Effect verify w op w' := by
  cases op with
  | pushTask h s =>
      obtain ⟨pm, hpm, rfl⟩ := Option.map_eq_some_iff.1 hstep
      exact effect_push hpm h s
  | claimTask h =>
      obtain ⟨pm, hpm, rfl⟩ := Option.map_eq_some_iff.1 hstep
      exact effect_claim hpm h
  | get key =>
      obtain ⟨pm, hpm, rfl⟩ := Option.map_eq_some_iff.1 hstep
      exact effect_get hpm _ key
  | saveCache outcome =>
      obtain ⟨pm, hpm, rfl⟩ := Option.map_eq_some_iff.1 hstep
      exact effect_flushed _ hpm
        (ProofManager.saveCache_spec pm w.now outcome)
  | cleanExpired outcome =>
      obtain ⟨pm, hpm, rfl⟩ := Option.map_eq_some_iff.1 hstep
      exact effect_flushed _ hpm
        (ProofManager.cleanExpired_spec pm w.now outcome)
  | crash =>
      cases hstep
      exact .crashed
  | restart choice =>
      simp only [World.step] at hstep
      split at hstep
      · cases hstep
      · rename_i hdead
        exact effect_boot (by simpa using hdead) hstep
  | advance d =>
      simp only [World.step] at hstep
      split at hstep
      · rename_i hd
        cases hstep
        exact .advanced d hd
      · cases hstep

end ProverNetwork.Ports.ProofManagerRun
