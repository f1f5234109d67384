import Mathlib.Tactic.NormNum
import ProverNetwork.Ports.ProofManager
import ProverNetwork.Verified.Expiry

/-!
# The cache file of one node

`_save_cache` truncates the file and writes the pickle into it, so a process
that is killed on the way leaves the old file, the whole new one, or a proper
prefix of it.  `_load_cache` takes a file that `pickle` refuses for an empty
cache.

`pickle` itself is a pair of functions; what is relied on is stated for the
caches that are written.

## Main results

* `sameAt_dropExpired`, `init_content` — dropping expired items is a purge.
* `crash_restart` — what a restart finds after a kill during `_save_cache`.
* `torn_file_empties` — a kill on the way loses both snapshots.
-/

namespace ProverNetwork.Ports.ProofManager

open ProverNetwork.Verified

/-! ## Caches up to expired items -/

/-- Items count up to their expiry. -/
def lifetime : Lifetime ℚ Entry where
  live := Entry.live
  live_of_le := by
    intro s t e hle hlive
    unfold Entry.live at hlive ⊢
    cases hexpiry : e.expiry with
    | none => rfl
    | some d =>
        simp only [hexpiry, decide_eq_true_eq] at hlive ⊢
        exact lt_of_le_of_lt hle hlive

/-- The caches are equal up to items whose expiry has passed at `t`. -/
abbrev SameAt (t : ℚ) (c d : Cache) : Prop := AgreeAt lifetime t c.get? d.get?

theorem sameAt_dropExpired {now t : ℚ} (hle : now ≤ t) (c : Cache) :
    SameAt t (dropExpired now c) c :=
  agreeAt_of_purge hle (fun k => Or.inr (dropExpired_get? now c k))

theorem answer_filter (t : ℚ) (o : Option Entry) :
    answer t (o.filter (Entry.live t)) = answer t o := by
  cases o with
  | none => rfl
  | some e =>
      by_cases hlive : e.live t = true
      · rw [Option.filter_some_pos hlive]
      · rw [Option.filter_some_neg (by simpa using hlive), answer, answer, if_neg hlive]

/-- A lookup cannot tell caches apart that are the same at its time. -/
theorem SameAt.answer_eq {t : ℚ} {c d : Cache} (h : SameAt t c d) (k : String) :
    answer t (c.get? k) = answer t (d.get? k) := by
  rw [← answer_filter t (c.get? k), show (c.get? k).filter (Entry.live t) = _ from h k]
  exact answer_filter t (d.get? k)

/-- What `_load_cache` takes a file for. -/
def content : CacheFile → Cache
  | .dump c => c
  | _ => Dict.empty

/-- A process that was constructed on a file holds its content, and its flag is
clean. -/
theorem init_content {now t : ℚ} (hle : now ≤ t) {file : CacheFile} {pm : ProofManager}
    (h : init file now = .ok pm) :
    pm.dirty = false ∧ SameAt t pm.cache (content file) := by
  cases file with
  | dump c =>
      cases h
      exact ⟨rfl, sameAt_dropExpired hle c⟩
  | cut e =>
      cases e with
      | eofError => cases h
      | unpicklingError =>
          cases h
          exact ⟨rfl, AgreeAt.refl _⟩
  | _ =>
      cases h
      exact ⟨rfl, AgreeAt.refl _⟩

/-! ## What the requests do to the flag -/

/-- A lookup that changes the cache sets the flag. -/
theorem get_clean (pm : ProofManager) (now : ℚ) (key : String) :
    (pm.get now key).2 = pm ∨ (pm.get now key).2.dirty = true := by
  unfold get
  split
  · split
    · exact Or.inl rfl
    · exact Or.inr rfl
  · exact Or.inl rfl

theorem get_purge (pm : ProofManager) (now : ℚ) (key k : String) :
    (pm.get now key).2.cache.get? k = pm.cache.get? k ∨
      (pm.get now key).2.cache.get? k = (pm.cache.get? k).filter (Entry.live now) := by
  rw [get_get?]
  split
  · exact Or.inr rfl
  · exact Or.inl rfl

theorem claimTask_dirty {pm : ProofManager} {now : ℚ} {h : String}
    (hok : (pm.claimTask now h).1.1 = .yes) : (pm.claimTask now h).2.dirty = true := by
  unfold claimTask at hok ⊢
  dsimp only at hok ⊢
  split
  next hnone => simp [hnone] at hok
  next hnone =>
    split
    next hpending => simp [hnone, hpending] at hok
    next => rfl

theorem pushTask_dirty {verify : String → String → Bool} {pm : ProofManager} {now : ℚ}
    {h s : String} {r : StatusResponse} (hok : (pushTask verify pm now h s).1 = .ok r) :
    (pushTask verify pm now h s).2.dirty = true := by
  unfold pushTask at hok ⊢
  dsimp only at hok ⊢
  split
  next hverify => simp [hverify] at hok
  next hverify =>
    split
    next hstatus => simp [hverify, hstatus] at hok
    next => rfl

/-! ## The bytes of the file -/

/-- `pickle.dump` and `pickle.load` of a cache. -/
structure Pickle where
  dump : Cache → List UInt8
  load : List UInt8 → Except PickleFailure Cache

/-- A dump of `cache` loads, and no proper prefix of it does. -/
structure Pickle.Documented (p : Pickle) (cache : Cache) : Prop where
  load_dump : p.load (p.dump cache) = .ok cache
  load_cut : ∀ n < (p.dump cache).length, ∃ e, p.load ((p.dump cache).take n) = .error e

/-- What `_load_cache` finds, for the bytes under `cache_path`. -/
def Pickle.read (p : Pickle) : Option (List UInt8) → CacheFile
  | none => .absent
  | some bytes =>
      match p.load bytes with
      | .ok cache => .dump cache
      | .error e => .cut e

/-- Where `_save_cache` is killed; `open(.., 'wb')` truncates the file. -/
inductive CrashPoint
  | beforeOpen
  | writing (bytes : Nat)
  | afterWrite

/-- The file that a `_save_cache` killed at `point` leaves in place of `old`. -/
def Pickle.fileAfterCrash (p : Pickle) (pm : ProofManager) (now : ℚ)
    (old : Option (List UInt8)) (point : CrashPoint) : Option (List UInt8) :=
  if !pm.dirty then old
  else
    let bytes := p.dump (dropExpired now pm.cache)
    match point with
    | .beforeOpen => old
    | .writing n => some (bytes.take n)
    | .afterWrite => some bytes

/-- The kill came after the truncation and before the last byte. -/
def Pickle.Torn (p : Pickle) (pm : ProofManager) (now : ℚ) (point : CrashPoint) : Prop :=
  pm.dirty = true ∧
    ∃ n < (p.dump (dropExpired now pm.cache)).length, point = .writing n

theorem Pickle.read_dump {p : Pickle} {cache : Cache} (h : p.Documented cache) :
    p.read (some (p.dump cache)) = .dump cache := by
  rw [read, h.load_dump]

/-- What a kill can leave: the old file, the whole new one, or, where it tore
the file, a proper prefix. -/
theorem Pickle.fileAfterCrash_cases (p : Pickle) (pm : ProofManager) (now : ℚ)
    (old : Option (List UInt8)) (point : CrashPoint) :
    (¬p.Torn pm now point ∧ (p.fileAfterCrash pm now old point = old ∨
        p.fileAfterCrash pm now old point = some (p.dump (dropExpired now pm.cache)))) ∨
      (p.Torn pm now point ∧ ∃ n < (p.dump (dropExpired now pm.cache)).length,
        p.fileAfterCrash pm now old point =
          some ((p.dump (dropExpired now pm.cache)).take n)) := by
  unfold fileAfterCrash Torn
  by_cases hdirty : pm.dirty = true
  · rw [hdirty]
    cases point with
    | beforeOpen => simp
    | afterWrite => simp
    | writing n =>
        by_cases hn : n < (p.dump (dropExpired now pm.cache)).length
        · exact Or.inr ⟨⟨rfl, n, hn, rfl⟩, n, hn, rfl⟩
        · refine Or.inl ⟨?_, Or.inr ?_⟩
          · rintro ⟨-, m, hm, heq⟩
            cases heq
            exact hn hm
          · exact congrArg some (List.take_of_length_le (Nat.le_of_not_lt hn))
  · simp [hdirty]

/-- **A kill during `_save_cache`.**  Outside the window in which the file is
torn, the restart finds the old snapshot or the one being saved, up to items
that have expired; inside it, a file that `pickle` refuses with a
`PickleError` is taken for an empty cache. -/
theorem crash_restart {p : Pickle} {pm : ProofManager} {now later : ℚ} {old : Option Cache}
    {point : CrashPoint} (hle : now ≤ later) (hold : ∀ c, old = some c → p.Documented c)
    (hnew : p.Documented (dropExpired now pm.cache)) :
    (¬p.Torn pm now point →
      ∃ pm', init (p.read (p.fileAfterCrash pm now (old.map p.dump) point)) later = .ok pm' ∧
        (SameAt later pm'.cache (old.getD Dict.empty) ∨ SameAt later pm'.cache pm.cache)) ∧
      (p.Torn pm now point →
        p.read (p.fileAfterCrash pm now (old.map p.dump) point) = .cut .unpicklingError →
        init (p.read (p.fileAfterCrash pm now (old.map p.dump) point)) later =
          .ok ⟨Dict.empty, false⟩) := by
  refine ⟨?_, ?_⟩
  · intro huntorn
    obtain ⟨-, hfile | hfile⟩ | ⟨htorn, -⟩ :=
      p.fileAfterCrash_cases pm now (old.map p.dump) point
    · rw [hfile]
      cases old with
      | none => exact ⟨_, rfl, Or.inl (AgreeAt.refl _)⟩
      | some c =>
          rw [Option.map_some, Pickle.read_dump (hold c rfl)]
          exact ⟨_, rfl, Or.inl (sameAt_dropExpired le_rfl c)⟩
    · rw [hfile, Pickle.read_dump hnew]
      exact ⟨_, rfl, Or.inr
        ((sameAt_dropExpired le_rfl _).trans (sameAt_dropExpired hle pm.cache))⟩
    · exact absurd htorn huntorn
  · intro _ hread
    rw [hread]
    rfl

/-! ### Two dumps -/

/-- A task pushed at time 1000. -/
def pendingItem : Entry := ⟨.int TASK_STATUS_PENGDING, some 1060⟩

def oneTask : Cache := Dict.empty.set "0xab" pendingItem

def twoTasks : Cache := oneTask.set "0xcd" pendingItem

/-- What `pickle.dump` writes for the two caches, with a tuple for each key. -/
def oneTaskBytes : List UInt8 :=
  [128, 4, 149, 24, 0, 0, 0, 0, 0, 0, 0, 125, 148, 140, 4, 48, 120, 97, 98, 148, 75, 0,
    71, 64, 144, 144, 0, 0, 0, 0, 0, 134, 148, 115, 46]

def twoTasksBytes : List UInt8 :=
  [128, 4, 149, 45, 0, 0, 0, 0, 0, 0, 0, 125, 148, 40, 140, 4, 48, 120, 97, 98, 148, 75, 0,
    71, 64, 144, 144, 0, 0, 0, 0, 0, 134, 148, 140, 4, 48, 120, 99, 100, 148, 75, 0,
    71, 64, 144, 144, 0, 0, 0, 0, 0, 134, 148, 117, 46]

/-- `pickle` on these two caches and on what a torn write leaves of them: only
the empty prefix and the one that ends before the frame opcode run out of
input between two opcodes. -/
def taskPickle : Pickle where
  dump cache := if (cache.get? "0xcd").isSome then twoTasksBytes else oneTaskBytes
  load bytes :=
    if bytes = oneTaskBytes then .ok oneTask
    else if bytes = twoTasksBytes then .ok twoTasks
    else if bytes.length = 0 ∨ bytes.length = 2 then .error .eofError
    else .error .unpicklingError

theorem taskPickle_cut {bytes : List UInt8} (hone : bytes ≠ oneTaskBytes)
    (htwo : bytes ≠ twoTasksBytes) : ∃ e, taskPickle.load bytes = .error e := by
  simp only [taskPickle, if_neg hone, if_neg htwo]
  split
  · exact ⟨_, rfl⟩
  · exact ⟨_, rfl⟩

theorem taskPickle_oneTask : taskPickle.Documented oneTask where
  load_dump := rfl
  load_cut := by
    intro n hn
    have hcut : ∀ m < oneTaskBytes.length,
        oneTaskBytes.take m ≠ oneTaskBytes ∧ oneTaskBytes.take m ≠ twoTasksBytes := by
      decide +kernel
    exact taskPickle_cut (hcut n hn).1 (hcut n hn).2

theorem taskPickle_twoTasks : taskPickle.Documented twoTasks where
  load_dump := rfl
  load_cut := by
    intro n hn
    have hcut : ∀ m < twoTasksBytes.length,
        twoTasksBytes.take m ≠ oneTaskBytes ∧ twoTasksBytes.take m ≠ twoTasksBytes := by
      decide +kernel
    exact taskPickle_cut (hcut n hn).1 (hcut n hn).2

/-- The manager after the second push. -/
def twoTasksManager : ProofManager := ⟨twoTasks, true⟩

theorem pendingItem_live : pendingItem.live 1010 = true := by
  simp only [pendingItem, Entry.live, decide_eq_true_eq]
  norm_num

/-- A cache that holds the task is told from the empty one. -/
theorem not_sameAt_empty {c : Cache} {k : String} (h : c.get? k = some pendingItem) :
    ¬SameAt 1010 Dict.empty c := by
  intro hsame
  have hk : none = (some pendingItem).filter (Entry.live 1010) := h ▸ hsame k
  rw [Option.filter_some_pos pendingItem_live] at hk
  cases hk

theorem dropExpired_twoTasks : dropExpired 1005 twoTasks = twoTasks := by
  rfl

theorem crash_restart_twoTasks :
    (¬taskPickle.Torn twoTasksManager 1005 .afterWrite →
      ∃ pm', init (taskPickle.read (taskPickle.fileAfterCrash twoTasksManager 1005
          (some (taskPickle.dump oneTask)) .afterWrite)) 1010 = .ok pm' ∧
        (SameAt 1010 pm'.cache oneTask ∨ SameAt 1010 pm'.cache twoTasks)) ∧
      (taskPickle.Torn twoTasksManager 1005 .afterWrite →
        taskPickle.read (taskPickle.fileAfterCrash twoTasksManager 1005
          (some (taskPickle.dump oneTask)) .afterWrite) = .cut .unpicklingError →
        init (taskPickle.read (taskPickle.fileAfterCrash twoTasksManager 1005
          (some (taskPickle.dump oneTask)) .afterWrite)) 1010 = .ok ⟨Dict.empty, false⟩) :=
  @crash_restart taskPickle twoTasksManager 1005 1010 (some oneTask) .afterWrite (by norm_num)
    (fun c hc => Option.some.inj hc ▸ taskPickle_oneTask)
    (dropExpired_twoTasks ▸ taskPickle_twoTasks)

/-- A push at time 1000, as the request handler stores it. -/
def pushed (pm : ProofManager) (key : String) : ProofManager :=
  pm.set 1000 key (.int TASK_STATUS_PENGDING) (some 60)

theorem pushed_eq (pm : ProofManager) (key : String) :
    pushed pm key = ⟨pm.cache.set key pendingItem, true⟩ := by
  have hexpiry : (1000 : ℚ) + 60 = 1060 := by norm_num
  simp only [pushed, set, Option.map_some, hexpiry, pendingItem]

/-- **A kill on the way loses both snapshots**: after a push, a flush and a
second push, a flush is killed after twenty bytes, and the restart has neither
the task saved before nor the one being saved. -/
theorem torn_file_empties :
    (pushed ⟨Dict.empty, false⟩ "0xab").saveCache 1000 .written =
        (⟨oneTask, false⟩, some (.dump oneTask)) ∧
      pushed ⟨oneTask, false⟩ "0xcd" = twoTasksManager ∧
    ∃ pm', init (taskPickle.read (taskPickle.fileAfterCrash twoTasksManager 1005
        (some (taskPickle.dump oneTask)) (.writing 20))) 1010 = .ok pm' ∧
      ¬SameAt 1010 pm'.cache oneTask ∧ ¬SameAt 1010 pm'.cache twoTasks := by
  refine ⟨by rw [pushed_eq]; rfl, pushed_eq _ _, ⟨Dict.empty, false⟩, rfl, ?_, ?_⟩
  · exact not_sameAt_empty (k := "0xab") rfl
  · exact not_sameAt_empty (k := "0xcd") rfl

end ProverNetwork.Ports.ProofManager
