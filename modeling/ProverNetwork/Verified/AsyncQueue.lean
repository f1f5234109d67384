import Mathlib.Data.List.Basic
import Mathlib.Data.List.Perm.Basic

/-!
# Unbounded asynchronous queues

A first-in first-out queue whose `get` suspends the caller while there is no
item.  A call is suspended until a `put` wakes the oldest one; a woken call
resumes later, and suspends again when another caller took the item first.  A
cancelled call takes no item, and hands its wake-up on.

## Main results

* `items_putNowait`, `getNowait_eq_some`, `items_cancel` — what an operation
  does to the items.
* `waiting_putNowait`, `waiting_suspend`, `waiting_cancel` — which calls wait
  after it.
* `resume_cases` — a woken call returns the first item or waits on.
* `Prompt.putNowait`, `Prompt.resume`, `Prompt.cancel` — no wake-up is lost.
-/

namespace ProverNetwork.Verified

/-- The items, the suspended calls from the oldest to the newest, and the calls
that were woken and have not resumed yet. -/
structure AsyncQueue (α ι : Type*) where
  items : List α
  getters : List ι
  woken : List ι

namespace AsyncQueue

variable {α ι : Type*}

def empty : AsyncQueue α ι := ⟨[], [], []⟩

/-- The calls that have not returned. -/
def waiting (q : AsyncQueue α ι) : List ι := q.getters ++ q.woken

/-- Wake the oldest suspended call. -/
def wakeupNext (q : AsyncQueue α ι) : AsyncQueue α ι :=
  match q.getters with
  | [] => q
  | b :: rest => { q with getters := rest, woken := q.woken ++ [b] }

/-- `put_nowait`. -/
def putNowait (q : AsyncQueue α ι) (x : α) : AsyncQueue α ι :=
  wakeupNext { q with items := q.items ++ [x] }

/-- `get_nowait`; `none` stands for `QueueEmpty`. -/
def getNowait (q : AsyncQueue α ι) : Option (α × AsyncQueue α ι) :=
  match q.items with
  | [] => none
  | x :: rest => some (x, { q with items := rest })

/-- `get` on an empty queue suspends the call `b`. -/
def suspend (q : AsyncQueue α ι) (b : ι) : AsyncQueue α ι :=
  { q with getters := q.getters ++ [b] }

/-- Take every item. -/
def drain (q : AsyncQueue α ι) : List α × AsyncQueue α ι := (q.items, { q with items := [] })

section Calls

variable [DecidableEq ι]

/-- The woken call `b` goes on: it returns the first item, or suspends again. -/
def resume (q : AsyncQueue α ι) (b : ι) : Option α × AsyncQueue α ι :=
  let q := { q with woken := q.woken.erase b }
  match q.getNowait with
  | none => (none, q.suspend b)
  | some (x, q) => (some x, q)

/-- The call `b` is cancelled; where it had been woken for an item that is still
there, the next call is woken instead. -/
def cancel (q : AsyncQueue α ι) (b : ι) : AsyncQueue α ι :=
  if b ∈ q.getters then { q with getters := q.getters.erase b }
  else
    let q := { q with woken := q.woken.erase b }
    if q.items.isEmpty then q else q.wakeupNext

end Calls

/-! ## Items -/

@[simp] theorem items_wakeupNext (q : AsyncQueue α ι) : q.wakeupNext.items = q.items := by
  unfold wakeupNext
  split <;> rfl

@[simp] theorem items_putNowait (q : AsyncQueue α ι) (x : α) :
    (q.putNowait x).items = q.items ++ [x] := by
  rw [putNowait, items_wakeupNext]

@[simp] theorem items_suspend (q : AsyncQueue α ι) (b : ι) : (q.suspend b).items = q.items := rfl

theorem getNowait_eq_none {q : AsyncQueue α ι} : q.getNowait = none ↔ q.items = [] := by
  unfold getNowait
  cases q.items <;> simp

theorem getNowait_eq_some {q q' : AsyncQueue α ι} {x : α} (h : q.getNowait = some (x, q')) :
    q.items = x :: q'.items ∧ q'.getters = q.getters ∧ q'.woken = q.woken := by
  unfold getNowait at h
  cases hitems : q.items with
  | nil => simp [hitems] at h
  | cons y rest =>
      simp only [hitems, Option.some.injEq, Prod.mk.injEq] at h
      obtain ⟨rfl, rfl⟩ := h
      exact ⟨rfl, rfl, rfl⟩

@[simp] theorem items_cancel [DecidableEq ι] (q : AsyncQueue α ι) (b : ι) :
    (q.cancel b).items = q.items := by
  unfold cancel
  split
  · rfl
  · dsimp only
    split
    · rfl
    · exact items_wakeupNext _

/-! ## Waiting calls -/

theorem waiting_wakeupNext (q : AsyncQueue α ι) : q.wakeupNext.waiting.Perm q.waiting := by
  unfold wakeupNext waiting
  cases hgetters : q.getters with
  | nil => simp [hgetters]
  | cons b rest =>
      dsimp only
      rw [← List.append_assoc]
      exact List.perm_append_singleton b (rest ++ q.woken)

theorem waiting_putNowait (q : AsyncQueue α ι) (x : α) :
    (q.putNowait x).waiting.Perm q.waiting :=
  waiting_wakeupNext _

theorem waiting_suspend (q : AsyncQueue α ι) (b : ι) :
    (q.suspend b).waiting.Perm (b :: q.waiting) := by
  simp only [suspend, waiting, List.append_assoc, List.singleton_append]
  exact List.perm_middle

section Calls

variable [DecidableEq ι]

/-- A call that resumes either returns the first item or keeps waiting. -/
theorem resume_cases {q : AsyncQueue α ι} {b : ι} (hb : b ∈ q.woken) :
    (∃ x q', q.resume b = (some x, q') ∧ q.items = x :: q'.items ∧
        q.waiting.Perm (b :: q'.waiting)) ∨
      ∃ q', q.resume b = (none, q') ∧ q.items = [] ∧ q'.items = [] ∧
        q'.waiting.Perm q.waiting := by
  have hperm : q.waiting.Perm (b :: (q.getters ++ q.woken.erase b)) := by
    have hwoken := List.perm_cons_erase hb
    exact (hwoken.append_left q.getters).trans List.perm_middle
  unfold resume
  dsimp only
  cases hget : getNowait { q with woken := q.woken.erase b } with
  | none =>
      have hitems : q.items = [] :=
        (getNowait_eq_none (q := { q with woken := q.woken.erase b })).1 hget
      exact Or.inr ⟨_, rfl, hitems, hitems, (waiting_suspend _ b).trans hperm.symm⟩
  | some r =>
      obtain ⟨x, q'⟩ := r
      obtain ⟨hitems, hgetters, hwoken⟩ := getNowait_eq_some hget
      refine Or.inl ⟨x, q', rfl, hitems, ?_⟩
      show q.waiting.Perm (b :: (q'.getters ++ q'.woken))
      rw [hgetters, hwoken]
      exact hperm

/-- A cancelled call waits no longer, every other one as before. -/
theorem waiting_cancel {q : AsyncQueue α ι} {b : ι} (hb : b ∈ q.waiting) :
    q.waiting.Perm (b :: (q.cancel b).waiting) := by
  unfold cancel
  by_cases hgetter : b ∈ q.getters
  · rw [if_pos hgetter]
    exact (List.perm_cons_erase hgetter).append_right q.woken
  · have hwoken : b ∈ q.woken := (List.mem_append.1 hb).resolve_left hgetter
    have hperm : q.waiting.Perm (b :: (q.getters ++ q.woken.erase b)) :=
      ((List.perm_cons_erase hwoken).append_left q.getters).trans List.perm_middle
    rw [if_neg hgetter]
    dsimp only
    split
    · exact hperm
    · have hwake := waiting_wakeupNext { q with woken := q.woken.erase b }
      exact hperm.trans (hwake.symm.cons b)

end Calls

/-! ## Wake-ups -/

/-- While a call is suspended, no more items are there than calls were woken for
them. -/
def Prompt (q : AsyncQueue α ι) : Prop := q.getters ≠ [] → q.items.length ≤ q.woken.length

theorem length_woken_wakeupNext (q : AsyncQueue α ι) :
    q.wakeupNext.woken.length ≤ q.woken.length + 1 := by
  unfold wakeupNext
  cases q.getters with
  | nil => exact Nat.le_succ _
  | cons b rest => simp

theorem length_woken_putNowait (q : AsyncQueue α ι) (x : α) :
    (q.putNowait x).woken.length ≤ q.woken.length + 1 :=
  length_woken_wakeupNext _

/-- A wake-up makes up for one item. -/
theorem prompt_wakeupNext {q : AsyncQueue α ι}
    (h : q.getters ≠ [] → q.items.length ≤ q.woken.length + 1) : q.wakeupNext.Prompt := by
  unfold wakeupNext Prompt
  cases hgetters : q.getters with
  | nil => exact fun hsome => absurd hgetters hsome
  | cons b rest =>
      have hle := h (by rw [hgetters]; exact List.cons_ne_nil b rest)
      simpa using fun _ => hle

theorem Prompt.putNowait {q : AsyncQueue α ι} (hq : q.Prompt) (x : α) : (q.putNowait x).Prompt := by
  refine prompt_wakeupNext (fun hsome => ?_)
  have hle := hq hsome
  simpa using hle

theorem Prompt.getNowait {q q' : AsyncQueue α ι} {x : α} (hq : q.Prompt)
    (h : q.getNowait = some (x, q')) : q'.Prompt := by
  obtain ⟨hitems, hgetters, hwoken⟩ := getNowait_eq_some h
  intro hsome
  rw [hgetters] at hsome
  have hle := hq hsome
  rw [hitems, List.length_cons] at hle
  rw [hwoken]
  omega

theorem prompt_of_empty {q : AsyncQueue α ι} (h : q.items = []) : q.Prompt := by
  intro _
  rw [h]
  exact Nat.zero_le _

section Calls

variable [DecidableEq ι]

theorem woken_resume (q : AsyncQueue α ι) (b : ι) : (q.resume b).2.woken = q.woken.erase b := by
  unfold resume
  dsimp only
  cases hget : getNowait { q with woken := q.woken.erase b } with
  | none => rfl
  | some r => exact (getNowait_eq_some hget).2.2

theorem length_woken_cancel (q : AsyncQueue α ι) (b : ι) :
    (q.cancel b).woken.length ≤ q.woken.length + 1 := by
  have herase : (q.woken.erase b).length ≤ q.woken.length := List.length_erase_le
  unfold cancel
  split
  · exact Nat.le_succ _
  · dsimp only
    split
    · exact Nat.le_succ_of_le herase
    · exact Nat.le_trans (length_woken_wakeupNext _) (Nat.succ_le_succ herase)

/-- The call that goes on takes an item with it, or finds none. -/
theorem Prompt.resume {q : AsyncQueue α ι} (hq : q.Prompt) {b : ι} (hb : b ∈ q.woken) :
    (q.resume b).2.Prompt := by
  have hlength : (q.woken.erase b).length + 1 = q.woken.length := List.length_erase_add_one hb
  unfold AsyncQueue.resume
  dsimp only
  cases hget : AsyncQueue.getNowait { q with woken := q.woken.erase b } with
  | none =>
      have hempty : q.items = [] :=
        (getNowait_eq_none (q := { q with woken := q.woken.erase b })).1 hget
      exact prompt_of_empty hempty
  | some r =>
      obtain ⟨hitems, hgetters, hwoken⟩ := getNowait_eq_some hget
      intro hsome
      rw [hgetters] at hsome
      have hle := hq hsome
      dsimp only at hitems hwoken ⊢
      rw [hitems, List.length_cons] at hle
      rw [hwoken]
      omega

/-- A cancelled call hands its wake-up on where an item is left. -/
theorem Prompt.cancel {q : AsyncQueue α ι} (hq : q.Prompt) (b : ι) : (q.cancel b).Prompt := by
  have hlength : q.woken.length ≤ (q.woken.erase b).length + 1 := by
    rw [List.length_erase]
    split <;> omega
  unfold AsyncQueue.cancel
  split
  next hgetter =>
    intro _
    exact hq (List.ne_nil_of_mem hgetter)
  next =>
    dsimp only
    split
    next hempty => exact prompt_of_empty (List.isEmpty_iff.1 hempty)
    next =>
      refine prompt_wakeupNext (fun hsome => ?_)
      have hle := hq hsome
      dsimp only
      omega

end Calls

end AsyncQueue

end ProverNetwork.Verified
