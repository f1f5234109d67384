import Mathlib.Algebra.Order.Ring.Rat
import ProverNetwork.Ports.Constant
import ProverNetwork.Ports.PyVal

/-!
# The task cache of one node

`ProofManager` keeps, for each proof hash, a status and an expiry.  A pushed
task is pending for sixty seconds; a prove handler claims it, which overwrites
it with a running status of sixty more seconds.  Expired items leave the cache
in four places: lazily in `get`, in the flush to disk, in `clean_expired` and
at load.

Every call of `time.time()` is the argument `now`.  The background thread and
the request handlers share the object; each operation below is one step of it.

## Main results

* `get_get?`, `set_get?`, `dropExpired_get?` — what each operation does to the
  lookup of the cache.
* `claimTask_yes`, `claimTask_refused` — the two outcomes of `claim_task`.
* `pushTask_ok`, `pushTask_refused` — the two outcomes of `push_task`.
-/

namespace ProverNetwork.Ports

open ProverNetwork.Verified

/-- A cached value with the time at which it stops counting. -/
structure Entry where
  value : PyVal
  expiry : Option ℚ

/-- `expiry is not None and expiry <= current_time`. -/
def Entry.expired (now : ℚ) (e : Entry) : Bool :=
  match e.expiry with
  | none => false
  | some t => t ≤ now

/-- `expiry is None or expiry > time.time()`. -/
def Entry.live (now : ℚ) (e : Entry) : Bool :=
  match e.expiry with
  | none => true
  | some t => now < t

/-- The lazy and the eager expiry tests decide the same boundary. -/
theorem Entry.expired_eq_not_live (now : ℚ) (e : Entry) :
    e.expired now = !e.live now := by
  unfold expired live
  cases e.expiry with
  | none => rfl
  | some t =>
      by_cases h : t ≤ now
      · simp [h, not_lt.2 h]
      · simp [h, not_le.1 h]

/-- The entry counts as a task that has not been claimed. -/
def Entry.pending (e : Entry) : Bool := e.value.eqInt TASK_STATUS_PENGDING

abbrev Cache := Dict String Entry

/-- What `pickle.load` raises on a file that was cut short. -/
inductive PickleFailure
  | eofError
  | unpicklingError
  deriving DecidableEq

/-- The file at `cache_path`. -/
inductive CacheFile
  | absent
  | dump (cache : Cache)
  | cut (e : PickleFailure)
  | unreadable

/-- How far a write of the cache file gets.  `notOpened` and `cutShort` end in
an `IOError`; `open(.., 'wb')` has truncated the file in the latter case. -/
inductive WriteOutcome
  | written
  | notOpened
  | cutShort (e : PickleFailure)
  deriving DecidableEq

structure ProofManager where
  cache : Cache
  dirty : Bool

namespace ProofManager

/-- `_drop_expired`: collect the expired keys, then delete them. -/
def dropExpired (now : ℚ) (cache : Cache) : Cache :=
  cache.delAll (cache.keysWhere (fun _ e => e.expired now))

/-- `_load_cache` on the empty cache set by `__init__`.  An `IOError` and a
`PickleError` are logged; an `EOFError` is neither and escapes. -/
def loadCache (file : CacheFile) (now : ℚ) : Except PickleFailure Cache :=
  match file with
  | .absent => .ok Dict.empty
  | .dump cache => .ok (dropExpired now cache)
  | .cut .unpicklingError => .ok Dict.empty
  | .cut .eofError => .error .eofError
  | .unreadable => .ok Dict.empty

/-- `__init__`. -/
def init (file : CacheFile) (now : ℚ) : Except PickleFailure ProofManager :=
  (loadCache file now).map (fun cache => ⟨cache, false⟩)

/-- `get`: a hit, or `None` with the expired item deleted. -/
def get (pm : ProofManager) (now : ℚ) (key : String) : PyVal × ProofManager :=
  match pm.cache.get? key with
  | some e =>
      if e.live now then (e.value, pm)
      else (.none, { cache := pm.cache.del key, dirty := true })
  | none => (.none, pm)

/-- `set`; every caller in the node passes a lifetime of sixty seconds. -/
def set (pm : ProofManager) (now : ℚ) (key : String) (value : PyVal)
    (ttl : Option ℚ) : ProofManager :=
  { cache := pm.cache.set key ⟨value, ttl.map (fun d => now + d)⟩
    dirty := true }

/-- `_save_cache`, with the new contents of the file where it was touched. -/
def saveCache (pm : ProofManager) (now : ℚ) (outcome : WriteOutcome) :
    ProofManager × Option CacheFile :=
  if !pm.dirty then (pm, none)
  else
    let cache := dropExpired now pm.cache
    match outcome with
    | .written => ({ cache := cache, dirty := false }, some (.dump cache))
    | .notOpened => ({ pm with cache := cache }, none)
    | .cutShort e => ({ pm with cache := cache }, some (.cut e))

/-- `clean_expired`: saves only when some key was deleted. -/
def cleanExpired (pm : ProofManager) (now : ℚ) (outcome : WriteOutcome) :
    ProofManager × Option CacheFile :=
  let keysToDelete := pm.cache.keysWhere (fun _ e => e.expired now)
  let pm' := { pm with cache := pm.cache.delAll keysToDelete }
  if keysToDelete.isEmpty then (pm', none)
  else saveCache { pm' with dirty := true } now outcome

/-- `claim_task`. -/
def claimTask (pm : ProofManager) (now : ℚ) (proofHash : String) :
    (Ok × String) × ProofManager :=
  let (status, pm) := pm.get now proofHash
  if status.isNone then
    ((.code STATUS_CODE_TASK_NOT_FOUND, "Proof hash does not exist"), pm)
  else if !status.eqInt TASK_STATUS_PENGDING then
    ((.code STATUS_CODE_TASK_INVALID, "Proof hash is invalid"), pm)
  else
    ((.yes, "Successfully"),
      pm.set now proofHash (.int TASK_STATUS_RUNNING) (some 60))

end ProofManager

structure HTTPException where
  statusCode : Int
  detail : String
  deriving DecidableEq

structure StatusResponse where
  code : Int
  msg : String
  deriving DecidableEq

/-- `POST /push_task`; `verify` is the encryptor holding the hub's public
key.  The lookup is tested for truth, and a pending status is zero. -/
def pushTask (verify : String → String → Bool) (pm : ProofManager) (now : ℚ)
    (proofHash signature : String) :
    Except HTTPException StatusResponse × ProofManager :=
  if !verify proofHash signature then
    (.error ⟨400, "invalid signature"⟩, pm)
  else
    let (status, pm) := pm.get now proofHash
    if status.truthy then (.error ⟨400, "Proof hash is exist."⟩, pm)
    else
      (.ok ⟨STATUS_CODE_SUCCESSFULLY, "Successfully"⟩,
        pm.set now proofHash (.int TASK_STATUS_PENGDING) (some 60))

namespace ProofManager

/-! ## What each operation does to the cache -/

/-- The value a lookup at time `now` answers for a stored item. -/
def answer (now : ℚ) : Option Entry → PyVal
  | some e => if e.live now then e.value else .none
  | none => .none

theorem answer_live {now : ℚ} {e : Entry} (h : e.live now = true) :
    answer now (some e) = e.value := if_pos h

theorem get_fst (pm : ProofManager) (now : ℚ) (key : String) :
    (pm.get now key).1 = answer now (pm.cache.get? key) := by
  unfold get answer
  cases pm.cache.get? key with
  | none => rfl
  | some e => dsimp only; split <;> rfl

/-- `get` deletes the item it found expired and touches nothing else. -/
theorem get_get? (pm : ProofManager) (now : ℚ) (key k : String) :
    (pm.get now key).2.cache.get? k =
      if k = key then (pm.cache.get? k).filter (Entry.live now)
      else pm.cache.get? k := by
  unfold get
  by_cases hk : k = key
  · subst hk
    rw [if_pos rfl]
    cases hget : pm.cache.get? k with
    | none => simpa using hget
    | some e =>
        by_cases hlive : e.live now = true
        · rw [Option.filter_some_pos hlive]
          simpa [hlive] using hget
        · have hdead : e.live now = false := by simpa using hlive
          rw [Option.filter_some_neg hdead]
          simp [hdead, Dict.get?_del]
  · rw [if_neg hk]
    cases pm.cache.get? key with
    | none => rfl
    | some e =>
        dsimp only
        split
        · rfl
        · rw [Dict.get?_del, if_neg hk]

/-- Whatever `get` leaves in the cache was there before. -/
theorem get_get?_of_some {pm : ProofManager} {now : ℚ} {key k : String}
    {e : Entry} (h : (pm.get now key).2.cache.get? k = some e) :
    pm.cache.get? k = some e := by
  rw [get_get?] at h
  split at h
  · exact (Option.filter_eq_some_iff.1 h).1
  · exact h

theorem set_get? (pm : ProofManager) (now : ℚ) (key k : String) (value : PyVal)
    (ttl : Option ℚ) :
    (pm.set now key value ttl).cache.get? k =
      if k = key then some ⟨value, ttl.map (fun d => now + d)⟩
      else pm.cache.get? k :=
  Dict.get?_set pm.cache key k _

theorem dropExpired_get? (now : ℚ) (cache : Cache) (k : String) :
    (dropExpired now cache).get? k =
      (cache.get? k).filter (Entry.live now) := by
  rw [dropExpired, Dict.get?_delAll_keysWhere]
  congr 1
  funext e
  rw [Entry.expired_eq_not_live, Bool.not_not]

theorem dropExpired_get?_of_some {now : ℚ} {cache : Cache} {k : String}
    {e : Entry} (h : (dropExpired now cache).get? k = some e) :
    cache.get? k = some e := by
  rw [dropExpired_get?] at h
  exact (Option.filter_eq_some_iff.1 h).1

/-- A flush only drops items from memory, and what it dumps is what it
keeps. -/
theorem saveCache_spec (pm : ProofManager) (now : ℚ) (outcome : WriteOutcome) :
    (∀ k e, (pm.saveCache now outcome).1.cache.get? k = some e →
      pm.cache.get? k = some e) ∧
    (∀ c, (pm.saveCache now outcome).2 = some (.dump c) →
      c = (pm.saveCache now outcome).1.cache) ∧
    (∀ k e, pm.cache.get? k = some e → e.live now = true →
      (pm.saveCache now outcome).1.cache.get? k = some e) := by
  have hkeep : ∀ k e, pm.cache.get? k = some e → e.live now = true →
      (dropExpired now pm.cache).get? k = some e := by
    intro k e hget hlive
    rw [dropExpired_get?, hget, Option.filter_some_pos hlive]
  unfold saveCache
  split
  · exact ⟨fun _ _ h => h, by simp, fun _ _ h _ => h⟩
  · cases outcome with
    | written =>
        exact ⟨fun _ _ h => dropExpired_get?_of_some h,
          fun c h => by simpa using h.symm, hkeep⟩
    | notOpened =>
        exact ⟨fun _ _ h => dropExpired_get?_of_some h, by simp, hkeep⟩
    | cutShort e =>
        exact ⟨fun _ _ h => dropExpired_get?_of_some h, by simp, hkeep⟩

/-- The same for `clean_expired`, which ends in a flush or drops nothing. -/
theorem cleanExpired_spec (pm : ProofManager) (now : ℚ)
    (outcome : WriteOutcome) :
    (∀ k e, (pm.cleanExpired now outcome).1.cache.get? k = some e →
      pm.cache.get? k = some e) ∧
    (∀ c, (pm.cleanExpired now outcome).2 = some (.dump c) →
      c = (pm.cleanExpired now outcome).1.cache) ∧
    (∀ k e, pm.cache.get? k = some e → e.live now = true →
      (pm.cleanExpired now outcome).1.cache.get? k = some e) := by
  have hkeep : ∀ k e, pm.cache.get? k = some e → e.live now = true →
      (dropExpired now pm.cache).get? k = some e := by
    intro k e hget hlive
    rw [dropExpired_get?, hget, Option.filter_some_pos hlive]
  unfold cleanExpired
  dsimp only
  split
  · exact ⟨fun _ _ h => dropExpired_get?_of_some h, by simp, hkeep⟩
  · obtain ⟨hmem, hdump, hlive⟩ := saveCache_spec
      { cache := dropExpired now pm.cache, dirty := true } now outcome
    exact ⟨fun k e h => dropExpired_get?_of_some (hmem k e h), hdump,
      fun k e hget hl => hlive k e (hkeep k e hget hl) hl⟩

/-! ## The two outcomes of `claim_task` and of `push_task` -/

/-- A claim succeeds exactly on a live pending item. -/
theorem claimTask_yes {pm : ProofManager} {now : ℚ} {h : String}
    (hok : (pm.claimTask now h).1.1 = .yes) :
    (∃ e, pm.cache.get? h = some e ∧ e.live now = true ∧ e.pending = true) ∧
      ∀ k, (pm.claimTask now h).2.cache.get? k =
        if k = h then some ⟨.int TASK_STATUS_RUNNING, some (now + 60)⟩
        else pm.cache.get? k := by
  have hfst := get_fst pm now h
  unfold claimTask at hok ⊢
  dsimp only at hok ⊢
  split at hok
  · simp at hok
  · split at hok
    · simp at hok
    · rename_i hnone hpend
      rw [if_neg hnone, if_neg hpend]
      constructor
      · rw [hfst] at hnone hpend
        unfold answer at hnone hpend
        cases hget : pm.cache.get? h with
        | none => simp [hget, PyVal.isNone] at hnone
        | some e =>
            rw [hget] at hnone hpend
            dsimp only at hnone hpend
            split at hnone
            · rename_i hlive
              rw [if_pos hlive] at hpend
              exact ⟨e, rfl, hlive, by simpa [Entry.pending] using hpend⟩
            · simp [PyVal.isNone] at hnone
      · intro k
        rw [set_get?, get_get?]
        split <;> rfl

/-- A refused claim changes the cache as the lookup in it does. -/
theorem claimTask_refused {pm : ProofManager} {now : ℚ} {h : String}
    (hok : (pm.claimTask now h).1.1 ≠ .yes) :
    (pm.claimTask now h).2 = (pm.get now h).2 := by
  unfold claimTask at hok ⊢
  dsimp only at hok ⊢
  split
  · rfl
  · split
    · rfl
    · rename_i hnone hpend
      rw [if_neg hnone, if_neg hpend] at hok
      exact absurd rfl hok

/-- An accepted push carries a valid signature and found no live item with a
true status. -/
theorem pushTask_ok {verify : String → String → Bool} {pm : ProofManager}
    {now : ℚ} {h s : String} {r : StatusResponse}
    (hok : (pushTask verify pm now h s).1 = .ok r) :
    verify h s = true ∧
      (answer now (pm.cache.get? h)).truthy = false ∧
      ∀ k, (pushTask verify pm now h s).2.cache.get? k =
        if k = h then some ⟨.int TASK_STATUS_PENGDING, some (now + 60)⟩
        else pm.cache.get? k := by
  have hfst := get_fst pm now h
  unfold pushTask at hok ⊢
  dsimp only at hok ⊢
  split at hok
  · simp at hok
  · rename_i hverify
    split at hok
    · simp at hok
    · rename_i hstatus
      rw [if_neg hverify, if_neg hstatus]
      refine ⟨by simpa using hverify, by simpa [hfst] using hstatus, ?_⟩
      intro k
      rw [set_get?, get_get?]
      split <;> rfl

/-- A refused push changes the cache at most by the lazy deletion. -/
theorem pushTask_refused {verify : String → String → Bool} {pm : ProofManager}
    {now : ℚ} {h s : String} {e : HTTPException}
    (hok : (pushTask verify pm now h s).1 = .error e) :
    (pushTask verify pm now h s).2 = pm ∨
      (pushTask verify pm now h s).2 = (pm.get now h).2 := by
  unfold pushTask at hok ⊢
  dsimp only at hok ⊢
  split
  · exact Or.inl rfl
  · rename_i hverify
    rw [if_neg hverify] at hok
    split
    · exact Or.inr rfl
    · rename_i hstatus
      rw [if_neg hstatus] at hok
      simp at hok

end ProofManager

end ProverNetwork.Ports
