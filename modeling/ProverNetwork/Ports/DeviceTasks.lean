import Mathlib.Data.BitVec
import ProverNetwork.Ports.CircomProverGuards
import ProverNetwork.Verified.Run
import ProverNetwork.Verified.Weight

/-!
# Tasks on the devices of the GPU prover

A prove handler of the GPU build asks `getDevice` for the least loaded device, counts
itself, counts its task on the device, and takes both back when it ends, by `defer`.
The fourth handler asks for no device and counts itself only.  Each count is read and
changed by one atomic operation, and nothing else orders the handlers: between two
reads of one `getDevice` any of the others may go on, also in a `getDevice` of its own.

A panic ends the process, as nothing recovers it.

## Main results

* `effect_of_step` — what one atomic operation can do.
* `counters_exact` — the counts are the handlers that hold them.
-/

namespace ProverNetwork.Ports.DeviceTasks

open ProverNetwork.Verified
open ProverNetwork.Ports.CircomProver

/-! ## The state -/

/-- Where a handler is: in the loop of `getDevice`, with the devices it has yet to read;
before, between and after the two counts; between the two deferred calls; or past all of
it, with the answer if it was refused on the way. -/
inductive Stage
  | selects (rest : List Nat) (minTasks : BitVec 32) (selectedIndex : Option Nat)
  | enters (device : Option Nat)
  | counted (device : Nat)
  | proves (device : Option Nat)
  | leaves
  | ended (answer : Option Response)

/-- A handler; `since` is the number of changes to the devices' counts before it arrived,
which the code does not keep. -/
structure Handler where
  rpc : Rpc
  req : ProveNosha256Request
  since : Nat
  stage : Stage

/-- The task counts of the devices, as values of `int32`; the count that
`GetRunningProveTasks` returns; the handlers since the process started; and the number
of changes to the devices' counts so far. -/
structure World where
  devices : Dict Nat (BitVec 32)
  runningProveTasks : BitVec 32
  handlers : List Handler
  changes : Nat

/-- The devices that are available, with no tasks. -/
def loadDevice (available : List Nat) : Dict Nat (BitVec 32) :=
  available.foldl (fun devices i => devices.set i 0) Dict.empty

/-- A process that has just started. -/
def World.initial (available : List Nat) : World := ⟨loadDevice available, 0, [], 0⟩

/-- A request arrives, and goes over the devices in some order; a handler makes its next
atomic operation; or a panic ends the process and another one starts. -/
inductive Label
  | arrive (rpc : Rpc) (req : ProveNosha256Request) (order : List Nat)
  | resume (i : Nat)
  | crash (available : List Nat)

/-! ## The steps -/

/-- The initial `minTasks`, `1<<31 - 1`. -/
def maxTasks : BitVec 32 := BitVec.ofNat 32 (2 ^ 31 - 1)

/-- The test of the input. -/
def entersWith (req : ProveNosha256Request) (device : Option Nat) : Stage :=
  if 1 < req.Input.length then .enters device
  else .ended (some ⟨-1, "Execution failed due to invalid input"⟩)

/-- One turn of the loop of `getDevice`. -/
def afterRead (rest : List Nat) (minTasks : BitVec 32) (selectedIndex : Option Nat) (i : Nat)
    (taskCount : BitVec 32) : Stage :=
  if taskCount.slt minTasks then .selects rest taskCount (some i)
  else .selects rest minTasks selectedIndex

/-- What follows `getDevice`. -/
def afterGetDevice (h : Handler) : Option Nat → Stage
  | none => .ended (some ⟨h.rpc.codes.noDevices.getD 0, "No available devices"⟩)
  | some i => entersWith h.req (some i)

section Steps

variable {C : Type} (circuits : Dict String C)

/-- A handler up to its first atomic operation. -/
def firstStage (rpc : Rpc) (req : ProveNosha256Request) (order : List Nat) : Stage :=
  match circuits.get? req.Temp with
  | none => .ended (some ⟨rpc.codes.circuitNotFound, "Circuit [" ++ req.Temp ++ "] not found"⟩)
  | some _ =>
      match rpc.codes.noDevices with
      | some _ => .selects order maxTasks none
      | none => entersWith req none

def World.arrive (w : World) (rpc : Rpc) (req : ProveNosha256Request) (order : List Nat) :
    Option World :=
  if order.Perm w.devices.keys then
    some { w with
      handlers := w.handlers ++ [⟨rpc, req, w.changes, firstStage circuits rpc req order⟩] }
  else none

/-- A handler is in another stage. -/
def World.put (w : World) (i : Nat) (h : Handler) (stage : Stage) : World :=
  { w with handlers := w.handlers.set i { h with stage := stage } }

/-- The next atomic operation of a handler. -/
def World.resume (w : World) (i : Nat) : Option World :=
  match w.handlers[i]? with
  | none => none
  | some h =>
      match h.stage with
      | .selects (d :: rest) minTasks selectedIndex =>
          (w.devices.get? d).map (fun c => w.put i h (afterRead rest minTasks selectedIndex d c))
      | .selects [] _ selectedIndex => some (w.put i h (afterGetDevice h selectedIndex))
      | .enters none =>
          some { w.put i h (.proves none) with runningProveTasks := w.runningProveTasks + 1 }
      | .enters (some d) =>
          some { w.put i h (.counted d) with runningProveTasks := w.runningProveTasks + 1 }
      | .counted d =>
          (w.devices.get? d).map (fun c =>
            { w.put i h (.proves (some d)) with
              devices := w.devices.set d (c + 1)
              changes := w.changes + 1 })
      | .proves none =>
          some { w.put i h (.ended none) with runningProveTasks := w.runningProveTasks - 1 }
      | .proves (some d) =>
          (w.devices.get? d).map (fun c =>
            { w.put i h .leaves with
              devices := w.devices.set d (c - 1)
              changes := w.changes + 1 })
      | .leaves =>
          some { w.put i h (.ended none) with runningProveTasks := w.runningProveTasks - 1 }
      | .ended _ => none

def World.step (w : World) : Label → Option World
  | .arrive rpc req order => w.arrive circuits rpc req order
  | .resume i => w.resume i
  | .crash available => some (World.initial available)

end Steps

/-! ## What a handler holds -/

/-- The handler is counted. -/
def Handler.counts (h : Handler) : Nat :=
  match h.stage with
  | .counted _ => 1
  | .proves _ => 1
  | .leaves => 1
  | _ => 0

/-- The handler has a task on the device. -/
def Handler.on (d : Nat) (h : Handler) : Nat :=
  match h.stage with
  | .proves (some d') => if d' = d then 1 else 0
  | _ => 0

/-- The devices that the handler still refers to. -/
def Stage.devices : Stage → List Nat
  | .selects rest _ selectedIndex => rest ++ selectedIndex.toList
  | .enters device => device.toList
  | .counted d => [d]
  | .proves device => device.toList
  | .leaves => []
  | .ended _ => []

/-- The handlers that are counted. -/
def World.running (w : World) : Nat := weight Handler.counts w.handlers

/-- The handlers with a task on the device. -/
def World.tasks (w : World) (d : Nat) : Nat := weight (Handler.on d) w.handlers

def Handler.at (h : Handler) (stage : Stage) : Handler := { h with stage := stage }

/-- A handler outside `getDevice` goes on: the counts change as what it holds does, and
that is a change of one device at most. -/
structure Moved (w w' : World) (i : Nat) (h : Handler) (stage : Stage) : Prop where
  get : w.handlers[i]? = some h
  handlers : w'.handlers = w.handlers.set i (h.at stage)
  running : w'.runningProveTasks + BitVec.ofNat 32 h.counts =
    w.runningProveTasks + BitVec.ofNat 32 (h.at stage).counts
  devices : ∀ d, (w'.devices.get? d).isSome = (w.devices.get? d).isSome
  tasks : ∀ d c', w'.devices.get? d = some c' → ∃ c, w.devices.get? d = some c ∧
    c' + BitVec.ofNat 32 (h.on d) = c + BitVec.ofNat 32 ((h.at stage).on d)
  changes : w.changes ≤ w'.changes
  drift : ∀ s d, (h.at stage).on s + h.on d + w.changes ≤ h.on s + (h.at stage).on d + w'.changes
  drift_one : ∀ d, (h.at stage).on d + w.changes ≤ h.on d + w'.changes ∧
    h.on d + w.changes ≤ (h.at stage).on d + w'.changes
  known : ∀ d ∈ stage.devices, d ∈ h.stage.devices

/-- What a single step can do. -/
inductive Effect (w : World) : World → Prop
  | arrived (h : Handler) : h.since = w.changes →
      (h.stage = .enters none ∨ (∃ answer, h.stage = .ended answer) ∨
        ∃ order : List Nat, order.Perm w.devices.keys ∧ h.stage = .selects order maxTasks none) →
      Effect w { w with handlers := w.handlers ++ [h] }
  | read (i : Nat) (h : Handler) (d : Nat) (rest : List Nat) (minTasks : BitVec 32)
      (selectedIndex : Option Nat) (c : BitVec 32) : w.handlers[i]? = some h →
      h.stage = .selects (d :: rest) minTasks selectedIndex → w.devices.get? d = some c →
      Effect w (w.put i h (afterRead rest minTasks selectedIndex d c))
  | chose (i : Nat) (h : Handler) (minTasks : BitVec 32) (selectedIndex : Option Nat) :
      w.handlers[i]? = some h → h.stage = .selects [] minTasks selectedIndex →
      Effect w (w.put i h (afterGetDevice h selectedIndex))
  | moved (w' : World) (i : Nat) (h : Handler) (stage : Stage) : Moved w w' i h stage →
      (∀ rest minTasks selectedIndex, stage ≠ .selects rest minTasks selectedIndex) → Effect w w'
  | crashed (available : List Nat) : Effect w (World.initial available)

section Effects

variable {C : Type} {circuits : Dict String C} {w w' : World}

theorem entersWith_cases (req : ProveNosha256Request) (device : Option Nat) :
    entersWith req device = .enters device ∨ ∃ answer, entersWith req device = .ended answer := by
  unfold entersWith
  split
  next => exact Or.inl rfl
  next => exact Or.inr ⟨_, rfl⟩

theorem effect_arrive {rpc : Rpc} {req : ProveNosha256Request} {order : List Nat}
    (hstep : w.arrive circuits rpc req order = some w') : Effect w w' := by
  unfold World.arrive at hstep
  split at hstep
  next horder =>
    cases hstep
    refine .arrived _ rfl ?_
    dsimp only
    unfold firstStage
    split
    next => exact Or.inr (Or.inl ⟨_, rfl⟩)
    next =>
      split
      next => exact Or.inr (Or.inr ⟨order, horder, rfl⟩)
      next =>
        cases entersWith_cases req none with
        | inl henters => exact Or.inl henters
        | inr hended => exact Or.inr (Or.inl hended)
  next => cases hstep

theorem isSome_set {devices : Dict Nat (BitVec 32)} {d : Nat} {c : BitVec 32}
    (hget : devices.get? d = some c) (c' : BitVec 32) (e : Nat) :
    ((devices.set d c').get? e).isSome = (devices.get? e).isSome := by
  rw [Dict.get?_set]
  split
  next he => rw [he, hget]; rfl
  next => rfl

/-- A change of the running count alone. -/
theorem moved_running {i : Nat} {h : Handler} {stage : Stage} {n : BitVec 32}
    (hget : w.handlers[i]? = some h)
    (hrunning : n + BitVec.ofNat 32 h.counts =
      w.runningProveTasks + BitVec.ofNat 32 (h.at stage).counts)
    (hon : ∀ d, (h.at stage).on d = h.on d) (hknown : ∀ d ∈ stage.devices, d ∈ h.stage.devices) :
    Moved w { w.put i h stage with runningProveTasks := n } i h stage where
  get := hget
  handlers := rfl
  running := hrunning
  devices := fun _ => rfl
  tasks := fun d c' hc' => ⟨c', hc', by rw [hon]⟩
  changes := Nat.le_refl _
  drift := fun s d => by
    show _ ≤ _ + w.changes
    rw [hon, hon]
  drift_one := fun d => by
    show _ ≤ _ + w.changes ∧ _ ≤ _ + w.changes
    rw [hon]
    exact ⟨Nat.le_refl _, Nat.le_refl _⟩
  known := hknown

/-- A change of the count of one device. -/
theorem moved_device {i : Nat} {h : Handler} {stage : Stage} {d : Nat} {c c' : BitVec 32}
    (hget : w.handlers[i]? = some h) (hc : w.devices.get? d = some c)
    (hcount : c' + BitVec.ofNat 32 (h.on d) = c + BitVec.ofNat 32 ((h.at stage).on d))
    (hcounts : (h.at stage).counts = h.counts) (hother : ∀ e, e ≠ d → (h.at stage).on e = h.on e)
    (hone : h.on d ≤ 1) (hone' : (h.at stage).on d ≤ 1)
    (hknown : ∀ d ∈ stage.devices, d ∈ h.stage.devices) :
    Moved w { w.put i h stage with
      devices := w.devices.set d c'
      changes := w.changes + 1 } i h stage where
  get := hget
  handlers := rfl
  running := by
    rw [hcounts]
    rfl
  devices := fun e => isSome_set hc c' e
  tasks := by
    intro e c₁ hc₁
    dsimp only at hc₁
    rw [Dict.get?_set] at hc₁
    split at hc₁
    next he =>
      cases hc₁
      rw [he]
      exact ⟨c, hc, hcount⟩
    next he => exact ⟨c₁, hc₁, by rw [hother e he]⟩
  changes := Nat.le_succ _
  drift := by
    intro a b
    have ha := hother a
    have hb := hother b
    dsimp only
    by_cases had : a = d <;> by_cases hbd : b = d
    · subst had hbd
      omega
    · subst had
      rw [hb hbd]
      omega
    · subst hbd
      rw [ha had]
      omega
    · rw [ha had, hb hbd]
      omega
  drift_one := by
    intro e
    have he := hother e
    dsimp only
    by_cases hed : e = d
    · subst hed
      omega
    · rw [he hed]
      omega
  known := hknown

theorem effect_resume {i : Nat} (hstep : w.resume i = some w') : Effect w w' := by
  unfold World.resume at hstep
  split at hstep
  next => cases hstep
  next h hget =>
    split at hstep
    next d rest minTasks selectedIndex hstage =>
      obtain ⟨c, hc, rfl⟩ := Option.map_eq_some_iff.1 hstep
      exact .read i h d rest minTasks selectedIndex c hget hstage hc
    next minTasks selectedIndex hstage =>
      cases hstep
      exact .chose i h minTasks selectedIndex hget hstage
    next hstage =>
      cases hstep
      refine .moved _ i h _ (moved_running hget ?_ ?_ ?_) (fun _ _ _ heq => by cases heq)
      · simp [Handler.counts, Handler.at, hstage]
      · simp [Handler.on, Handler.at, hstage]
      · simp [Stage.devices]
    next d hstage =>
      cases hstep
      refine .moved _ i h _ (moved_running hget ?_ ?_ ?_) (fun _ _ _ heq => by cases heq)
      · simp [Handler.counts, Handler.at, hstage]
      · simp [Handler.on, Handler.at, hstage]
      · simp [Stage.devices, hstage]
    next d hstage =>
      obtain ⟨c, hc, rfl⟩ := Option.map_eq_some_iff.1 hstep
      refine .moved _ i h _ (moved_device hget hc ?_ ?_ ?_ ?_ ?_ ?_) (fun _ _ _ heq => by cases heq)
      · simp [Handler.on, Handler.at, hstage]
      · simp [Handler.counts, Handler.at, hstage]
      · intro e he
        simp [Handler.on, Handler.at, hstage, Ne.symm he]
      · simp [Handler.on, hstage]
      · simp [Handler.on, Handler.at]
      · simp [Stage.devices, hstage]
    next hstage =>
      cases hstep
      refine .moved _ i h _ (moved_running hget ?_ ?_ ?_) (fun _ _ _ heq => by cases heq)
      · simp [Handler.counts, Handler.at, hstage]
      · simp [Handler.on, Handler.at, hstage]
      · simp [Stage.devices]
    next d hstage =>
      obtain ⟨c, hc, rfl⟩ := Option.map_eq_some_iff.1 hstep
      refine .moved _ i h _ (moved_device hget hc ?_ ?_ ?_ ?_ ?_ ?_) (fun _ _ _ heq => by cases heq)
      · simp [Handler.on, Handler.at, hstage]
      · simp [Handler.counts, Handler.at, hstage]
      · intro e he
        simp [Handler.on, Handler.at, hstage, Ne.symm he]
      · simp [Handler.on, hstage]
      · simp [Handler.on, Handler.at]
      · simp [Stage.devices]
    next hstage =>
      cases hstep
      refine .moved _ i h _ (moved_running hget ?_ ?_ ?_) (fun _ _ _ heq => by cases heq)
      · simp [Handler.counts, Handler.at, hstage]
      · simp [Handler.on, Handler.at, hstage]
      · simp [Stage.devices]
    next => cases hstep

/-- **One step.** -/
theorem effect_of_step {label : Label} (hstep : w.step circuits label = some w') :
    Effect w w' := by
  cases label with
  | arrive rpc req order => exact effect_arrive hstep
  | resume i => exact effect_resume hstep
  | crash available =>
      cases hstep
      exact .crashed available

end Effects

/-! ## The counts are exact -/

/-- Every count is the number of the handlers that hold it, modulo `2 ^ 32`, and every
device that a handler refers to is in the map. -/
structure CountInv (w : World) : Prop where
  running : w.runningProveTasks = BitVec.ofNat 32 w.running
  tasks : ∀ d c, w.devices.get? d = some c → c = BitVec.ofNat 32 (w.tasks d)
  known : ∀ h ∈ w.handlers, ∀ d ∈ h.stage.devices, (w.devices.get? d).isSome = true

section Counting

variable {C : Type} {circuits : Dict String C} {w w' : World}

theorem foldl_set_zero (available : List Nat) {devices : Dict Nat (BitVec 32)}
    (hzero : ∀ d c, devices.get? d = some c → c = 0) (d : Nat) (c : BitVec 32)
    (hc : (available.foldl (fun devices i => devices.set i 0) devices).get? d = some c) :
    c = 0 := by
  induction available generalizing devices with
  | nil => exact hzero d c hc
  | cons i available ih =>
      refine ih ?_ hc
      intro d c hc
      rw [Dict.get?_set] at hc
      split at hc
      next =>
        cases hc
        rfl
      next => exact hzero d c hc

theorem loadDevice_get? (available : List Nat) (d : Nat) (c : BitVec 32)
    (hc : (loadDevice available).get? d = some c) : c = 0 :=
  foldl_set_zero available (fun _ _ h => by cases h) d c hc

theorem initial_countInv (available : List Nat) : CountInv (World.initial available) where
  running := rfl
  tasks := loadDevice_get? available
  known := fun _ h => by cases h

/-- A handler in `getDevice` or before it holds nothing. -/
theorem holds_nothing {h : Handler}
    (hstage : (∃ device, h.stage = .enters device) ∨ (∃ answer, h.stage = .ended answer) ∨
      ∃ order minTasks selectedIndex, h.stage = .selects order minTasks selectedIndex) :
    h.counts = 0 ∧ ∀ d, h.on d = 0 := by
  unfold Handler.counts Handler.on
  obtain ⟨_, hstage⟩ | ⟨_, hstage⟩ | ⟨_, _, _, hstage⟩ := hstage <;> rw [hstage] <;>
    exact ⟨rfl, fun _ => rfl⟩

/-- A handler that moves changes what is held by what it holds. -/
theorem weight_at {f : Handler → Nat} {i : Nat} {h : Handler} (hget : w.handlers[i]? = some h)
    (stage : Stage) :
    weight f (w.handlers.set i (h.at stage)) + f h = weight f w.handlers + f (h.at stage) :=
  weight_set f hget (h.at stage)

/-- Equal amounts can be taken from a count and from a number. -/
theorem count_of_change {c c' : BitVec 32} {m n a b : Nat} (hc : c = BitVec.ofNat 32 m)
    (hchange : c' + BitVec.ofNat 32 a = c + BitVec.ofNat 32 b) (hnum : n + a = m + b) :
    c' = BitVec.ofNat 32 n := by
  have hsum : c' + BitVec.ofNat 32 a = BitVec.ofNat 32 n + BitVec.ofNat 32 a := by
    rw [hchange, hc, ← BitVec.ofNat_add, ← BitVec.ofNat_add, hnum]
  exact (BitVec.add_left_inj _).1 hsum

theorem afterGetDevice_cases (h : Handler) (selectedIndex : Option Nat) :
    ((∃ device, afterGetDevice h selectedIndex = .enters device) ∨
      ∃ answer, afterGetDevice h selectedIndex = .ended answer) ∧
    ∀ d ∈ (afterGetDevice h selectedIndex).devices, d ∈ selectedIndex.toList := by
  cases selectedIndex with
  | none => exact ⟨Or.inr ⟨_, rfl⟩, fun _ hd => by cases hd⟩
  | some i =>
      cases entersWith_cases h.req (some i) with
      | inl henters =>
          rw [afterGetDevice, henters]
          exact ⟨Or.inl ⟨_, rfl⟩, fun _ hd => hd⟩
      | inr hended =>
          obtain ⟨answer, hended⟩ := hended
          rw [afterGetDevice, hended]
          exact ⟨Or.inr ⟨_, rfl⟩, fun _ hd => by cases hd⟩

/-- A handler that reads, or has chosen, holds nothing before and after. -/
theorem CountInv.put (hinv : CountInv w) {i : Nat} {h : Handler} {stage : Stage}
    (hget : w.handlers[i]? = some h) (hbefore : h.counts = 0 ∧ ∀ d, h.on d = 0)
    (hafter : (h.at stage).counts = 0 ∧ ∀ d, (h.at stage).on d = 0)
    (hknown : ∀ d ∈ stage.devices, (w.devices.get? d).isSome = true) :
    CountInv (w.put i h stage) where
  running := by
    have hweight := weight_at (f := Handler.counts) hget stage
    rw [hbefore.1, hafter.1] at hweight
    rw [show (w.put i h stage).runningProveTasks = w.runningProveTasks from rfl, hinv.running]
    exact congrArg _ hweight.symm
  tasks := by
    intro d c hc
    have hweight := weight_at (f := Handler.on d) hget stage
    rw [hbefore.2, hafter.2] at hweight
    rw [hinv.tasks d c hc]
    exact congrArg _ hweight.symm
  known := by
    intro h' hmem d hd
    cases List.mem_or_eq_of_mem_set hmem with
    | inl hold => exact hinv.known h' hold d hd
    | inr heq =>
        subst heq
        exact hknown d hd

/-- **Step lemma.** -/
theorem CountInv.of_effect (hinv : CountInv w) (heff : Effect w w') : CountInv w' := by
  cases heff with
  | crashed available => exact initial_countInv available
  | arrived h hsince hstage =>
      have hnothing : h.counts = 0 ∧ ∀ d, h.on d = 0 := by
        apply holds_nothing
        obtain henters | hended | ⟨order, -, hselects⟩ := hstage
        · exact Or.inl ⟨none, henters⟩
        · exact Or.inr (Or.inl hended)
        · exact Or.inr (Or.inr ⟨order, _, _, hselects⟩)
      refine ⟨?_, ?_, ?_⟩
      · simp only [World.running, weight_append, weight_cons, weight_nil, hnothing.1]
        exact hinv.running
      · intro d c hc
        simp only [World.tasks, weight_append, weight_cons, weight_nil, hnothing.2]
        exact hinv.tasks d c hc
      · intro h' hmem d hd
        cases List.mem_append.1 hmem with
        | inl hold => exact hinv.known h' hold d hd
        | inr hnew =>
            cases List.mem_singleton.1 hnew
            obtain henters | ⟨_, hended⟩ | ⟨order, hperm, hselects⟩ := hstage
            · rw [henters] at hd
              cases hd
            · rw [hended] at hd
              cases hd
            · rw [hselects, Stage.devices, Option.toList_none, List.append_nil, hperm.mem_iff,
                Dict.mem_keys] at hd
              exact Option.isSome_iff_exists.2 hd
  | read i h d rest minTasks selectedIndex c hget hstage hc =>
      have hread : ∃ m s, afterRead rest minTasks selectedIndex d c = .selects rest m s ∧
          ∀ e ∈ s.toList, e = d ∨ e ∈ selectedIndex.toList := by
        unfold afterRead
        split
        next => exact ⟨_, _, rfl, fun e he => Or.inl (by simpa using he)⟩
        next => exact ⟨_, _, rfl, fun e he => Or.inr he⟩
      obtain ⟨m, s, hafter, hselected⟩ := hread
      have hmem := List.mem_of_getElem? hget
      refine hinv.put hget (holds_nothing (Or.inr (Or.inr ⟨_, _, _, hstage⟩)))
        (holds_nothing (Or.inr (Or.inr ⟨_, _, _, hafter⟩))) ?_
      intro e he
      rw [hafter, Stage.devices, List.mem_append] at he
      cases he with
      | inl hrest =>
          refine hinv.known h hmem e ?_
          rw [hstage, Stage.devices]
          exact List.mem_append_left _ (List.mem_cons_of_mem d hrest)
      | inr hsel =>
          cases hselected e hsel with
          | inl heq => rw [heq, hc]; rfl
          | inr hold =>
              refine hinv.known h hmem e ?_
              rw [hstage, Stage.devices]
              exact List.mem_append_right _ hold
  | chose i h minTasks selectedIndex hget hstage =>
      have hbefore := holds_nothing (Or.inr (Or.inr ⟨_, _, _, hstage⟩))
      obtain ⟨hafter, hdevices⟩ := afterGetDevice_cases h selectedIndex
      refine hinv.put hget hbefore (holds_nothing (hafter.imp_right Or.inl)) ?_
      intro d hd
      refine hinv.known h (List.mem_of_getElem? hget) d ?_
      rw [hstage, Stage.devices, List.nil_append]
      exact hdevices d hd
  | moved _ i h stage hmoved hstage =>
      refine ⟨?_, ?_, ?_⟩
      · refine count_of_change hinv.running hmoved.running ?_
        rw [World.running, hmoved.handlers]
        exact weight_at hmoved.get stage
      · intro d c' hc'
        obtain ⟨c, hc, hchange⟩ := hmoved.tasks d c' hc'
        refine count_of_change (hinv.tasks d c hc) hchange ?_
        rw [World.tasks, hmoved.handlers]
        exact weight_at hmoved.get stage
      · intro h' hmem d hd
        rw [hmoved.devices]
        rw [hmoved.handlers] at hmem
        cases List.mem_or_eq_of_mem_set hmem with
        | inl hold => exact hinv.known h' hold d hd
        | inr heq =>
            subst heq
            exact hinv.known h (List.mem_of_getElem? hmoved.get) d (hmoved.known d hd)

/-- **Run lemma.** -/
theorem run_countInv {available : List Nat} {labels : List Label}
    (hrun : run (World.step circuits) (World.initial available) labels = some w) : CountInv w :=
  run_invariant CountInv (fun _ => True)
    (fun _ _ _ _ hinv hstep => hinv.of_effect (effect_of_step hstep)) (fun _ _ => trivial)
    (initial_countInv available) hrun

theorem on_le_counts (d : Nat) (h : Handler) : h.on d ≤ h.counts := by
  unfold Handler.on Handler.counts
  cases h.stage with
  | proves device =>
      cases device with
      | none => exact Nat.zero_le 1
      | some d' =>
          dsimp only
          split
          next => exact Nat.le_refl 1
          next => exact Nat.zero_le 1
  | _ => exact Nat.zero_le _

theorem tasks_le_running (w : World) (d : Nat) : w.tasks d ≤ w.running :=
  weight_mono (fun h _ => on_le_counts d h)

/-- The device on which the handler has a task. -/
def Handler.device (h : Handler) : Option Nat :=
  match h.stage with
  | .proves device => device
  | _ => none

theorem on_eq (d : Nat) (h : Handler) :
    h.on d = if h.device = some d then h.counts else 0 := by
  unfold Handler.on Handler.device Handler.counts
  cases h.stage with
  | proves device => cases device <;> simp
  | _ => rfl

/-- The tasks of all devices are no more than the counted handlers. -/
theorem tasks_of_devices_le (w : World) : weight w.tasks w.devices.keys ≤ w.running := by
  have hnodup : (w.devices.keys.map some).Nodup :=
    (List.nodup_map_iff (Option.some_injective Nat)).2 w.devices.nodup
  have hsplit := weight_split_le Handler.counts Handler.device hnodup w.handlers
  rw [weight_map] at hsplit
  simp only [← on_eq] at hsplit
  exact hsplit

theorem toNat_of_few {n : Nat} (hn : n < 2 ^ 31) : (BitVec.ofNat 32 n).toNat = n := by
  rw [BitVec.toNat_ofNat]
  exact Nat.mod_eq_of_lt (by omega)

/-- A number below `2 ^ 31` is a value of `int32`. -/
theorem toInt_of_few {n : Nat} (hn : n < 2 ^ 31) : (BitVec.ofNat 32 n).toInt = n := by
  rw [BitVec.toInt_eq_toNat_of_lt, toNat_of_few hn]
  rw [toNat_of_few hn]
  omega

/-- A handler that has not ended has a next operation: the devices it refers to are in
the map. -/
theorem CountInv.resume_isSome (hinv : CountInv w) {i : Nat} {h : Handler}
    (hget : w.handlers[i]? = some h) (hopen : ∀ answer, h.stage ≠ .ended answer) :
    (w.resume i).isSome = true := by
  have hknown := hinv.known h (List.mem_of_getElem? hget)
  unfold World.resume
  rw [hget]
  dsimp only
  cases hstage : h.stage with
  | ended answer => exact absurd hstage (hopen answer)
  | leaves => rfl
  | counted d =>
      rw [hstage] at hknown
      rw [Option.isSome_map]
      exact hknown d (List.mem_singleton_self d)
  | enters device => cases device <;> rfl
  | proves device =>
      cases device with
      | none => rfl
      | some d =>
          rw [hstage] at hknown
          dsimp only
          rw [Option.isSome_map]
          exact hknown d (List.mem_singleton_self d)
  | selects rest minTasks selectedIndex =>
      cases rest with
      | nil => rfl
      | cons d rest =>
          rw [hstage] at hknown
          dsimp only
          rw [Option.isSome_map]
          exact hknown d (List.mem_append_left _ List.mem_cons_self)

/-- **The counts are exact**, in every interleaving and after any number of panics.
As long as fewer than `2 ^ 31` handlers are counted, `runningProveTasks` is their
number, the count of each device is the number of those with a task on it, the devices
together have no more tasks than there are counted handlers, and every handler that has
not ended can go on. -/
theorem counters_exact {available : List Nat} {labels : List Label}
    (hrun : run (World.step circuits) (World.initial available) labels = some w)
    (hfew : w.running < 2 ^ 31) :
    w.runningProveTasks.toInt = w.running ∧
      (∀ d c, w.devices.get? d = some c → c.toInt = w.tasks d) ∧
      weight w.tasks w.devices.keys ≤ w.running ∧
      ∀ i h, w.handlers[i]? = some h → (∀ answer, h.stage ≠ .ended answer) →
        (w.resume i).isSome = true := by
  have hinv : CountInv w := run_countInv hrun
  refine ⟨?_, fun d c hc => ?_, tasks_of_devices_le w, fun i h hget hopen =>
    hinv.resume_isSome hget hopen⟩
  · rw [hinv.running]
    exact toInt_of_few hfew
  · rw [hinv.tasks d c hc]
    exact toInt_of_few (Nat.lt_of_le_of_lt (tasks_le_running w d) hfew)

end Counting

end ProverNetwork.Ports.DeviceTasks
