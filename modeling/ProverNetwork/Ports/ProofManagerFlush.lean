import Mathlib.Tactic.Linarith
import ProverNetwork.Ports.ProofManagerFile
import ProverNetwork.Verified.Run

/-!
# The background flush between the requests

`_save_cache` runs in a thread of its own.  It tests the dirty flag, drops the
expired items, dumps the cache and clears the flag; a request may be served
between any two of these.  Run without interruption the four steps are
`saveCache`.

The flag is cleared after the dump, whatever was stored since.

## Main results

* `flush_uninterrupted` — four steps in a row are `saveCache`.
* `request_effect` — what a request does to the cache and to the flag.
* `clean_file_current` — a clean flag means that the file is up to date, in
  runs in which nothing is stored between a dump and the clearing of the flag.
* `store_after_dump_lost` — a push that is stored there is lost.
-/

namespace ProverNetwork.Ports.ProofManagerFlush

open ProverNetwork.Verified
open ProverNetwork.Ports.ProofManager

/-- How far the flush has come. -/
inductive FlushPc
  | idle
  | tested
  | dropped
  | dumped
  deriving DecidableEq

/-- The process, the file under `cache_path` and the flush. -/
structure World where
  now : ℚ
  pm : ProofManager
  file : CacheFile
  flush : FlushPc

/-- A process that was constructed on `file`. -/
def World.booted (now : ℚ) (pm : ProofManager) (file : CacheFile) : World :=
  ⟨now, pm, file, .idle⟩

/-- The requests, the next step of the flush and the clock. -/
inductive Op
  | set (key : String) (value : PyVal) (ttl : Option ℚ)
  | get (key : String)
  | claimTask (proofHash : String)
  | pushTask (proofHash signature : String)
  | flush (outcome : WriteOutcome)
  | advance (d : ℚ)

/-- The next step of `_save_cache`. -/
def World.flushStep (w : World) (outcome : WriteOutcome) : World :=
  match w.flush with
  | .idle => if w.pm.dirty then { w with flush := .tested } else w
  | .tested =>
      { w with pm := { w.pm with cache := dropExpired w.now w.pm.cache }, flush := .dropped }
  | .dropped =>
      match outcome with
      | .written => { w with file := .dump w.pm.cache, flush := .dumped }
      | .notOpened => { w with flush := .idle }
      | .cutShort e => { w with file := .cut e, flush := .idle }
  | .dumped => { w with pm := { w.pm with dirty := false }, flush := .idle }

/-- The manager after a request, where the label is one. -/
def World.request (verify : String → String → Bool) (w : World) : Op → Option ProofManager
  | .set key value ttl => some (w.pm.set w.now key value ttl)
  | .get key => some (w.pm.get w.now key).2
  | .claimTask h => some (w.pm.claimTask w.now h).2
  | .pushTask h s => some (pushTask verify w.pm w.now h s).2
  | .flush _ => none
  | .advance _ => none

/-- One step; the clock never goes back. -/
def World.step (verify : String → String → Bool) (w : World) (op : Op) : Option World :=
  match op with
  | .flush outcome => some (w.flushStep outcome)
  | .advance d => if 0 ≤ d then some { w with now := w.now + d } else none
  | op => (w.request verify op).map (fun pm => { w with pm := pm })

variable {verify : String → String → Bool}

theorem step_cases {w w' : World} {op : Op} (h : w.step verify op = some w') :
    (∃ pm', w.request verify op = some pm' ∧ w' = { w with pm := pm' }) ∨
      (∃ outcome, w' = w.flushStep outcome) ∨
      ∃ d, 0 ≤ d ∧ w' = { w with now := w.now + d } := by
  cases op with
  | flush outcome =>
      cases h
      exact Or.inr (Or.inl ⟨outcome, rfl⟩)
  | advance d =>
      simp only [World.step] at h
      split at h
      next hd =>
        cases h
        exact Or.inr (Or.inr ⟨d, hd, rfl⟩)
      next => cases h
  | _ =>
      cases h
      exact Or.inl ⟨_, rfl, rfl⟩

/-- **Four steps in a row are `saveCache`**, which leaves the file alone where
it returns none. -/
theorem flush_uninterrupted {w : World} (hidle : w.flush = .idle) (hdirty : w.pm.dirty = true)
    (outcome : WriteOutcome) :
    (run (World.step verify) w [.flush outcome, .flush outcome, .flush outcome]).bind
        (fun w' => if w'.flush = .dumped then w'.step verify (.flush outcome) else some w') =
      some { w with
        pm := (w.pm.saveCache w.now outcome).1
        file := (w.pm.saveCache w.now outcome).2.getD w.file } := by
  obtain ⟨now, ⟨cache, dirty⟩, file, flush⟩ := w
  cases hidle
  cases hdirty
  cases outcome <;> rfl

/-! ## What a request does -/

/-- The request stores an item: a `set`, a claim that finds a live pending
item, a signed push that finds no live item with a true status. -/
def World.Stores (verify : String → String → Bool) (w : World) : Op → Prop
  | .set _ _ _ => True
  | .claimTask h =>
      ∃ e, w.pm.cache.get? h = some e ∧ e.live w.now = true ∧ e.pending = true
  | .pushTask h s =>
      verify h s = true ∧ (answer w.now (w.pm.cache.get? h)).truthy = false
  | _ => False

/-- A lookup, alone or inside a refused request: nothing changes, or the flag is
set; and no item is lost that had not expired. -/
theorem lookup_effect (pm : ProofManager) (now : ℚ) (key : String) :
    ((pm.get now key).2 = pm ∨ (pm.get now key).2.dirty = true) ∧
      SameAt now (pm.get now key).2.cache pm.cache :=
  ⟨get_clean pm now key, agreeAt_of_purge le_rfl (get_purge pm now key)⟩

/-- **What a request does**: it stores an item and sets the flag, or it loses at
most expired items, and sets the flag where it does. -/
theorem request_effect {w : World} {op : Op} {pm' : ProofManager}
    (h : w.request verify op = some pm') :
    (w.Stores verify op ∧ pm'.dirty = true) ∨
      ((pm' = w.pm ∨ pm'.dirty = true) ∧ SameAt w.now pm'.cache w.pm.cache) := by
  cases op with
  | set key value ttl =>
      cases h
      exact Or.inl ⟨trivial, rfl⟩
  | get key =>
      cases h
      exact Or.inr (lookup_effect w.pm w.now key)
  | claimTask proofHash =>
      cases h
      by_cases hok : (w.pm.claimTask w.now proofHash).1.1 = .yes
      · exact Or.inl ⟨(claimTask_yes hok).1, claimTask_dirty hok⟩
      · rw [claimTask_refused hok]
        exact Or.inr (lookup_effect w.pm w.now proofHash)
  | pushTask proofHash signature =>
      cases h
      cases hres : (pushTask verify w.pm w.now proofHash signature).1 with
      | ok r =>
          obtain ⟨hverify, hanswer, -⟩ := pushTask_ok hres
          exact Or.inl ⟨⟨hverify, hanswer⟩, pushTask_dirty hres⟩
      | error e =>
          rcases pushTask_refused hres with heq | heq
          · rw [heq]
            exact Or.inr ⟨Or.inl rfl, AgreeAt.refl _⟩
          · rw [heq]
            exact Or.inr (lookup_effect w.pm w.now proofHash)
  | flush outcome => cases h
  | advance d => cases h

/-! ## The file while the flag is clean -/

/-- Between requests and with a clean flag, the file is the cache. -/
def UpToDate (w : World) : Prop :=
  w.flush = .idle → w.pm.dirty = false → SameAt w.now (content w.file) w.pm.cache

/-- Nothing is stored between a dump and the clearing of the flag. -/
def StoresOutsideDump (verify : String → String → Bool) (w : World) (op : Op) : Prop :=
  w.flush = .dumped → ¬w.Stores verify op

/-- The flag stays set until the dump, and from then on the file is the cache. -/
structure FlushInv (w : World) : Prop where
  upToDate : UpToDate w
  set_until_dump : w.flush = .tested ∨ w.flush = .dropped → w.pm.dirty = true
  dumped : w.flush = .dumped → SameAt w.now (content w.file) w.pm.cache

theorem FlushInv.booted {now : ℚ} {pm : ProofManager} {file : CacheFile}
    (h : init file now = .ok pm) : FlushInv (World.booted now pm file) where
  upToDate _ _ := (init_content le_rfl h).2.symm
  set_until_dump hflush := by simp [World.booted] at hflush
  dumped hflush := by cases hflush

theorem FlushInv.flushStep {w : World} (hinv : FlushInv w) (outcome : WriteOutcome) :
    FlushInv (w.flushStep outcome) := by
  obtain ⟨now, pm, file, flush⟩ := w
  cases flush with
  | idle =>
      by_cases hdirty : pm.dirty = true
      · simp only [World.flushStep, hdirty, if_true]
        exact ⟨by rintro ⟨⟩, fun _ => hdirty, by rintro ⟨⟩⟩
      · simp only [World.flushStep, hdirty]
        exact hinv
  | tested =>
      exact ⟨by rintro ⟨⟩, fun _ => hinv.set_until_dump (Or.inl rfl), by rintro ⟨⟩⟩
  | dropped =>
      have hset : pm.dirty = true := hinv.set_until_dump (Or.inr rfl)
      have hidle : ∀ file', FlushInv ⟨now, pm, file', .idle⟩ := fun file' =>
        ⟨fun _ hclean => absurd hset (by simp [show pm.dirty = false from hclean]),
          fun _ => hset, by rintro ⟨⟩⟩
      cases outcome with
      | written => exact ⟨by rintro ⟨⟩, fun _ => hset, fun _ => AgreeAt.refl _⟩
      | notOpened => exact hidle file
      | cutShort e => exact hidle (.cut e)
  | dumped =>
      exact ⟨fun _ _ => hinv.dumped rfl, by rintro (⟨⟨⟩⟩ | ⟨⟨⟩⟩), by rintro ⟨⟩⟩

theorem FlushInv.request {w : World} (hinv : FlushInv w) {op : Op} {pm' : ProofManager}
    (hquiet : StoresOutsideDump verify w op) (h : w.request verify op = some pm') :
    FlushInv { w with pm := pm' } := by
  rcases request_effect h with ⟨hstores, hset⟩ | ⟨hflag, hsame⟩
  · exact ⟨fun _ hclean => absurd hset (by simp [show pm'.dirty = false from hclean]),
      fun _ => hset, fun hdumped => absurd hstores (hquiet hdumped)⟩
  · refine ⟨?_, ?_, fun hdumped => (hinv.dumped hdumped).trans hsame.symm⟩
    · intro hidle hclean
      rcases hflag with rfl | hset
      · exact hinv.upToDate hidle hclean
      · exact absurd hset (by simp [show pm'.dirty = false from hclean])
    · intro hflush
      rcases hflag with rfl | hset
      · exact hinv.set_until_dump hflush
      · exact hset

theorem FlushInv.step {w w' : World} {op : Op} (hquiet : StoresOutsideDump verify w op)
    (hinv : FlushInv w) (hstep : w.step verify op = some w') : FlushInv w' := by
  rcases step_cases hstep with ⟨pm', hrequest, rfl⟩ | ⟨outcome, rfl⟩ | ⟨d, hd, rfl⟩
  · exact hinv.request hquiet hrequest
  · exact hinv.flushStep outcome
  · have hle : w.now ≤ w.now + d := by linarith
    exact ⟨fun hidle hclean => (hinv.upToDate hidle hclean).mono hle,
      hinv.set_until_dump, fun hdumped => (hinv.dumped hdumped).mono hle⟩

/-- **A clean flag means that the file is up to date**, in every state of every
run in which nothing is stored between a dump and the clearing of the flag. -/
theorem clean_file_current {now : ℚ} {pm : ProofManager} {file : CacheFile}
    (hinit : init file now = .ok pm) {ops : List Op} {w : World}
    (hquiet : Along (World.step verify) (StoresOutsideDump verify)
      (World.booted now pm file) ops)
    (hrun : run (World.step verify) (World.booted now pm file) ops = some w) :
    UpToDate w :=
  (run_invariant_along FlushInv (StoresOutsideDump verify)
    (fun _ _ _ hC hinv hstep => hinv.step hC hstep) hquiet (FlushInv.booted hinit)
    hrun).upToDate

/-! ### Two runs -/

/-- The hub's signature of the two hashes of the runs. -/
def acceptsSig (_ signature : String) : Bool := signature = "sig"

/-- A node that starts without a file. -/
def freshWorld : World := .booted 1000 ⟨Dict.empty, false⟩ .absent

/-- A flush with a lookup between the dump and the clearing of the flag. -/
def quietOps : List Op :=
  [.pushTask "0xab" "sig", .flush .written, .flush .written, .flush .written,
    .get "0xab", .flush .written]

theorem quietOps_quiet :
    Along (World.step acceptsSig) (StoresOutsideDump acceptsSig) freshWorld quietOps := by
  refine ⟨by rintro ⟨⟩, ?_⟩
  rintro _ ⟨⟩
  refine ⟨by rintro ⟨⟩, ?_⟩
  rintro _ ⟨⟩
  refine ⟨by rintro ⟨⟩, ?_⟩
  rintro _ ⟨⟩
  refine ⟨by rintro ⟨⟩, ?_⟩
  rintro _ ⟨⟩
  refine ⟨fun _ hstores => hstores, ?_⟩
  rintro _ ⟨⟩
  exact ⟨fun _ hstores => hstores, fun _ _ => trivial⟩

theorem clean_file_current_quiet :
    ∃ w, run (World.step acceptsSig) freshWorld quietOps = some w ∧ UpToDate w :=
  ⟨_, rfl, clean_file_current rfl quietOps_quiet rfl⟩

/-- The hub pushes a second task after the dump. -/
def lateOps : List Op :=
  [.pushTask "0xab" "sig", .flush .written, .flush .written, .flush .written,
    .pushTask "0xcd" "sig", .flush .written]

def lateItem : Entry := ⟨.int TASK_STATUS_PENGDING, some (1000 + 60)⟩

/-- The node at the end: the file was dumped before the second push. -/
def lateWorld : World where
  now := 1000
  pm := ⟨(Dict.empty.set "0xab" lateItem).set "0xcd" lateItem, false⟩
  file := .dump (Dict.empty.set "0xab" lateItem)
  flush := .idle

theorem lateItem_live : lateItem.live 1000 = true := by
  simp only [lateItem, Entry.live, decide_eq_true_eq]
  norm_num

/-- **A push that is stored after the dump is lost**: the flag is clean, and the
file knows nothing of the second task. -/
theorem store_after_dump_lost :
    init .absent 1000 = .ok freshWorld.pm ∧
      run (World.step acceptsSig) freshWorld lateOps = some lateWorld ∧
      lateWorld.flush = .idle ∧ lateWorld.pm.dirty = false ∧
      answer lateWorld.now (lateWorld.pm.cache.get? "0xcd") = .int TASK_STATUS_PENGDING ∧
      (content lateWorld.file).get? "0xcd" = none ∧ ¬UpToDate lateWorld := by
  refine ⟨rfl, by with_unfolding_all rfl, rfl, rfl, answer_live lateItem_live, rfl, ?_⟩
  intro huptodate
  have hsame : none = Option.filter (Entry.live 1000) (some lateItem) :=
    huptodate rfl rfl "0xcd"
  rw [Option.filter_some_pos lateItem_live] at hsame
  cases hsame

end ProverNetwork.Ports.ProofManagerFlush
