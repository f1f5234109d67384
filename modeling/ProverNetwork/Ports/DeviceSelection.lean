import ProverNetwork.Ports.DeviceTasks

/-!
# How far `getDevice` may be off

`getDevice` reads the task counts one after the other, and by the time it has read the
last one the first may have changed.  The device it chooses has no more tasks than any
other, up to one for each change of a count since it began: with no change it is a least
loaded one.  It finds none only where there are none.

## Main results

* `Chosen` — what a handler in the loop knows of its choice so far.
* `selection_balanced` — what it knows at the end.
-/

namespace ProverNetwork.Ports.DeviceTasks

open ProverNetwork.Verified
open ProverNetwork.Ports.CircomProver

/-- The changes of the devices' counts since then. -/
def World.drift (w : World) (since : Nat) : Nat := w.changes - since

/-- What a handler knows of its choice among the devices it has read: `minTasks` was the
count of the chosen one, and no larger than any other, up to the changes since. -/
def Chosen (w : World) (since : Nat) (rest : List Nat) (minTasks : BitVec 32) :
    Option Nat → Prop
  | none => minTasks = maxTasks ∧ ∀ d ∈ w.devices.keys, d ∈ rest
  | some s => minTasks.toNat < 2 ^ 31 - 1 ∧ s ∈ w.devices.keys ∧
      w.tasks s ≤ minTasks.toNat + w.drift since ∧
      ∀ d ∈ w.devices.keys, d ∉ rest →
        minTasks.toNat ≤ w.tasks d + w.drift since ∧ w.tasks s ≤ w.tasks d + w.drift since

/-- Every handler in the loop knows that of its choice. -/
structure BalanceInv (w : World) : Prop where
  past : ∀ h ∈ w.handlers, h.since ≤ w.changes
  chosen : ∀ h ∈ w.handlers, ∀ rest minTasks selectedIndex,
    h.stage = .selects rest minTasks selectedIndex →
      Chosen w h.since rest minTasks selectedIndex

/-- The devices stay, and their tasks change no more than is counted, also against each
other. -/
structure Drifts (w w' : World) : Prop where
  keys : ∀ d, d ∈ w'.devices.keys ↔ d ∈ w.devices.keys
  changes : w.changes ≤ w'.changes
  single : ∀ d, w'.tasks d + w.changes ≤ w.tasks d + w'.changes ∧
    w.tasks d + w.changes ≤ w'.tasks d + w'.changes
  pair : ∀ s d, w'.tasks s + w.tasks d + w.changes ≤ w.tasks s + w'.tasks d + w'.changes

section Selection

variable {C : Type} {circuits : Dict String C} {w w' : World}

theorem Chosen.mono {since : Nat} {rest : List Nat} {minTasks : BitVec 32}
    {selectedIndex : Option Nat} (h : Chosen w since rest minTasks selectedIndex)
    (hpast : since ≤ w.changes) (hdrifts : Drifts w w') :
    Chosen w' since rest minTasks selectedIndex := by
  have hchanges := hdrifts.changes
  cases selectedIndex with
  | none => exact ⟨h.1, fun d hd => h.2 d ((hdrifts.keys d).1 hd)⟩
  | some s =>
      obtain ⟨hmin, hs, hread, hother⟩ := h
      have hsingle := hdrifts.single s
      refine ⟨hmin, (hdrifts.keys s).2 hs, ?_, ?_⟩
      · unfold World.drift at hread ⊢
        omega
      · intro d hd hrest
        obtain ⟨hle, hbelow⟩ := hother d ((hdrifts.keys d).1 hd) hrest
        have hd' := hdrifts.single d
        have hpair := hdrifts.pair s d
        unfold World.drift at hle hbelow ⊢
        omega

/-- Nothing changes for the others where a handler takes up or ends its loop. -/
theorem drifts_of_tasks (hdevices : w'.devices = w.devices) (hchanges : w'.changes = w.changes)
    (htasks : ∀ d, w'.tasks d = w.tasks d) : Drifts w w' where
  keys := fun d => by rw [hdevices]
  changes := by rw [hchanges]
  single := fun d => by
    rw [hchanges, htasks]
    exact ⟨Nat.le_refl _, Nat.le_refl _⟩
  pair := fun s d => by rw [hchanges, htasks, htasks]

theorem drifts_put {i : Nat} {h : Handler} {stage : Stage} (hget : w.handlers[i]? = some h)
    (hbefore : ∀ d, h.on d = 0) (hafter : ∀ d, (h.at stage).on d = 0) :
    Drifts w (w.put i h stage) := by
  refine drifts_of_tasks rfl rfl (fun d => ?_)
  have hweight := weight_at (f := Handler.on d) hget stage
  rw [hbefore, hafter] at hweight
  exact hweight

theorem Moved.drifts {i : Nat} {h : Handler} {stage : Stage} (hmoved : Moved w w' i h stage) :
    Drifts w w' := by
  have htasks : ∀ d, w'.tasks d + h.on d = w.tasks d + (h.at stage).on d := by
    intro d
    rw [World.tasks, hmoved.handlers]
    exact weight_at hmoved.get stage
  refine ⟨fun d => ?_, hmoved.changes, fun d => ?_, fun s d => ?_⟩
  · rw [Dict.mem_keys, Dict.mem_keys, ← Option.isSome_iff_exists, ← Option.isSome_iff_exists,
      hmoved.devices]
  · have hd := htasks d
    have hone := hmoved.drift_one d
    omega
  · have hs := htasks s
    have hd := htasks d
    have hpair := hmoved.drift s d
    omega

/-- The others keep what they know, and the handler that went on is told for itself. -/
theorem BalanceInv.set (hinv : BalanceInv w) {i : Nat} {h : Handler} {stage : Stage}
    (hget : w.handlers[i]? = some h) (hhandlers : w'.handlers = w.handlers.set i (h.at stage))
    (hdrifts : Drifts w w')
    (hnew : ∀ rest minTasks selectedIndex, stage = .selects rest minTasks selectedIndex →
      Chosen w' h.since rest minTasks selectedIndex) : BalanceInv w' := by
  have hchanges := hdrifts.changes
  refine ⟨?_, ?_⟩
  · intro h' hmem
    rw [hhandlers] at hmem
    cases List.mem_or_eq_of_mem_set hmem with
    | inl hold => exact Nat.le_trans (hinv.past h' hold) hchanges
    | inr heq =>
        subst heq
        exact Nat.le_trans (hinv.past h (List.mem_of_getElem? hget)) hchanges
  · intro h' hmem rest minTasks selectedIndex hstage
    rw [hhandlers] at hmem
    cases List.mem_or_eq_of_mem_set hmem with
    | inl hold =>
        exact (hinv.chosen h' hold rest minTasks selectedIndex hstage).mono (hinv.past h' hold)
          hdrifts
    | inr heq =>
        subst heq
        exact hnew rest minTasks selectedIndex hstage

/-- **One turn of the loop** keeps what is known: a smaller count is the new minimum, and
any other is no smaller than the old one. -/
theorem Chosen.read (hcount : CountInv w) (hfew : w.running < 2 ^ 31 - 1) {since d : Nat}
    {rest : List Nat} {minTasks c : BitVec 32} {selectedIndex : Option Nat}
    (h : Chosen w since (d :: rest) minTasks selectedIndex) (hc : w.devices.get? d = some c)
    {rest' : List Nat} {minTasks' : BitVec 32} {selectedIndex' : Option Nat}
    (hafter : afterRead rest minTasks selectedIndex d c =
      .selects rest' minTasks' selectedIndex') :
    Chosen w since rest' minTasks' selectedIndex' := by
  have htasks : c.toNat = w.tasks d := by
    rw [hcount.tasks d c hc]
    exact toNat_of_few (by have := tasks_le_running w d; omega)
  have hsmall : w.tasks d < 2 ^ 31 - 1 := Nat.lt_of_le_of_lt (tasks_le_running w d) hfew
  have hcint : c.toInt = w.tasks d := by
    rw [BitVec.toInt_eq_toNat_of_lt, htasks]
    omega
  have hmin : minTasks.toInt = minTasks.toNat := by
    apply BitVec.toInt_eq_toNat_of_lt
    cases selectedIndex with
    | none =>
        rw [h.1]
        decide
    | some s =>
        have hlt := h.1
        omega
  have hslt : c.slt minTasks = true ↔ w.tasks d < minTasks.toNat := by
    rw [BitVec.slt_iff_toInt_lt, hcint, hmin]
    exact Int.ofNat_lt
  unfold afterRead at hafter
  split at hafter
  next hless =>
    cases hafter
    have hlt := hslt.1 hless
    refine ⟨by omega, Dict.mem_keys.2 ⟨c, hc⟩, by omega, ?_⟩
    intro e he hrest
    by_cases hed : e = d
    · subst hed
      omega
    · have hnew : e ∉ d :: rest := fun hmem => hrest ((List.mem_cons.1 hmem).resolve_left hed)
      cases selectedIndex with
      | none => exact absurd (h.2 e he) hnew
      | some s =>
          have hle := (h.2.2.2 e he hnew).1
          omega
  next hnot =>
    cases hafter
    have hge : minTasks.toNat ≤ w.tasks d := Nat.not_lt.1 (fun hlt => hnot (hslt.2 hlt))
    cases selectedIndex with
    | none =>
        -- The initial `minTasks` is larger than any count.
        have hmax : minTasks.toNat = 2 ^ 31 - 1 := by
          rw [h.1]
          decide
        omega
    | some s =>
        obtain ⟨hlt, hs, hread, hother⟩ := h
        refine ⟨hlt, hs, hread, ?_⟩
        intro e he hrest
        by_cases hed : e = d
        · subst hed
          omega
        · exact hother e he (fun hmem => hrest ((List.mem_cons.1 hmem).resolve_left hed))

/-- **Step lemma.** -/
theorem BalanceInv.of_effect (hinv : BalanceInv w) (hcount : CountInv w)
    (hfew : w.running < 2 ^ 31 - 1) (heff : Effect w w') : BalanceInv w' := by
  cases heff with
  | crashed available => exact ⟨fun _ h => (by cases h), fun _ h => (by cases h)⟩
  | arrived h hsince hstage =>
      have hnothing : ∀ d, h.on d = 0 := by
        unfold Handler.on
        obtain hstage | ⟨_, hstage⟩ | ⟨_, _, hstage⟩ := hstage <;> rw [hstage] <;>
          exact fun _ => rfl
      have hdrifts : Drifts w { w with handlers := w.handlers ++ [h] } := by
        refine drifts_of_tasks rfl rfl (fun d => ?_)
        simp only [World.tasks, weight_append, weight_cons, weight_nil, hnothing]
        rfl
      refine ⟨?_, ?_⟩
      · intro h' hmem
        cases List.mem_append.1 hmem with
        | inl hold => exact hinv.past h' hold
        | inr hnew =>
            cases List.mem_singleton.1 hnew
            exact Nat.le_of_eq hsince
      · intro h' hmem rest minTasks selectedIndex hselects
        cases List.mem_append.1 hmem with
        | inl hold =>
            exact (hinv.chosen h' hold rest minTasks selectedIndex hselects).mono
              (hinv.past h' hold) hdrifts
        | inr hnew =>
            cases List.mem_singleton.1 hnew
            rw [hselects] at hstage
            obtain henters | ⟨_, hended⟩ | ⟨order, hperm, hfirst⟩ := hstage
            · cases henters
            · cases hended
            · cases hfirst
              exact ⟨rfl, fun d hd => hperm.mem_iff.2 hd⟩
  | read i h d rest minTasks selectedIndex c hget hstage hc =>
      have hmem := List.mem_of_getElem? hget
      have hread : ∃ m s, afterRead rest minTasks selectedIndex d c = .selects rest m s := by
        unfold afterRead
        split <;> exact ⟨_, _, rfl⟩
      obtain ⟨m, s, hafter⟩ := hread
      have hdrifts := drifts_put hget
        (holds_nothing (Or.inr (Or.inr ⟨_, _, _, hstage⟩))).2
        (holds_nothing (Or.inr (Or.inr ⟨_, _, _, hafter⟩))).2
      refine hinv.set hget rfl hdrifts ?_
      intro rest' minTasks' selectedIndex' hselects
      have hbefore := hinv.chosen h hmem _ _ _ hstage
      exact (hbefore.read hcount hfew hc hselects).mono (hinv.past h hmem) hdrifts
  | chose i h minTasks selectedIndex hget hstage =>
      have hafter := (afterGetDevice_cases h selectedIndex).1
      refine hinv.set hget rfl (drifts_put hget
        (holds_nothing (Or.inr (Or.inr ⟨_, _, _, hstage⟩))).2
        (holds_nothing (hafter.imp_right Or.inl)).2) ?_
      intro rest' minTasks' selectedIndex' hselects
      obtain ⟨_, henters⟩ | ⟨_, hended⟩ := hafter
      · cases henters.symm.trans hselects
      · cases hended.symm.trans hselects
  | moved _ i h stage hmoved hstage =>
      exact hinv.set hmoved.get hmoved.handlers hmoved.drifts
        (fun _ _ _ hselects => absurd hselects (hstage _ _ _))

/-- **The choice of a device**, in every interleaving in which fewer handlers than
`int32` can count are counted at any time.  When the loop of `getDevice` ends, it has
found no device only where there is none; and the device it has found has no more tasks
than any other device, up to one for each change of a count since it began. -/
theorem selection_balanced {available : List Nat} {labels : List Label}
    (hrun : run (World.step circuits) (World.initial available) labels = some w)
    (hfew : Along (World.step circuits) (fun w _ => w.running < 2 ^ 31 - 1)
      (World.initial available) labels) {h : Handler} {minTasks : BitVec 32}
    {selectedIndex : Option Nat} (hmem : h ∈ w.handlers)
    (hended : h.stage = .selects [] minTasks selectedIndex) :
    (selectedIndex = none → w.devices.keys = []) ∧
      ∀ s, selectedIndex = some s → s ∈ w.devices.keys ∧
        ∀ d ∈ w.devices.keys, w.tasks s ≤ w.tasks d + (w.changes - h.since) := by
  have hinv : CountInv w ∧ BalanceInv w :=
    run_invariant_along (fun w => CountInv w ∧ BalanceInv w) (fun w _ => w.running < 2 ^ 31 - 1)
      (fun _ _ _ hsmall hinv hstep => ⟨hinv.1.of_effect (effect_of_step hstep),
        hinv.2.of_effect hinv.1 hsmall (effect_of_step hstep)⟩) hfew
      ⟨initial_countInv available, fun _ h => (by cases h), fun _ h => (by cases h)⟩ hrun
  have hchosen := hinv.2.chosen h hmem [] minTasks selectedIndex hended
  constructor
  · intro hnone
    subst hnone
    exact List.eq_nil_iff_forall_not_mem.2 (fun d hd => by cases hchosen.2 d hd)
  · intro s hs
    subst hs
    obtain ⟨-, hkey, -, hother⟩ := hchosen
    exact ⟨hkey, fun d hd => (hother d hd (fun h => by cases h)).2⟩

/-! ## Few handlers -/

theorem counts_le_one (h : Handler) : h.counts ≤ 1 := by
  unfold Handler.counts
  cases h.stage <;> first | exact Nat.le_refl 1 | exact Nat.zero_le 1

theorem running_le_length (w : World) : w.running ≤ w.handlers.length := by
  have hle := weight_le_mul (f := Handler.counts) (c := 1) (l := w.handlers)
    (fun h _ => counts_le_one h)
  rw [Nat.one_mul] at hle
  exact hle

/-- A step adds one handler at most. -/
theorem length_of_effect (heff : Effect w w') : w'.handlers.length ≤ w.handlers.length + 1 := by
  cases heff with
  | arrived h hsince hstage =>
      rw [List.length_append]
      exact Nat.le_refl _
  | read i h d rest minTasks selectedIndex c hget hstage hc =>
      rw [World.put, List.length_set]
      exact Nat.le_succ _
  | chose i h minTasks selectedIndex hget hstage =>
      rw [World.put, List.length_set]
      exact Nat.le_succ _
  | moved _ i h stage hmoved hstage =>
      rw [hmoved.handlers, List.length_set]
      exact Nat.le_succ _
  | crashed available => exact Nat.zero_le _

/-- A short run never has many handlers counted. -/
theorem few_of_length {labels : List Label}
    (hshort : w.handlers.length + labels.length < 2 ^ 31 - 1) :
    Along (World.step circuits) (fun w _ => w.running < 2 ^ 31 - 1) w labels := by
  induction labels generalizing w with
  | nil => trivial
  | cons label labels ih =>
      have hrunning := running_le_length w
      rw [List.length_cons] at hshort
      refine ⟨by omega, fun w' hstep => ?_⟩
      have hlength := length_of_effect (effect_of_step hstep)
      exact ih (by omega)

end Selection

/-! ## Two handlers -/

def smallCircuits : Dict String Unit := Dict.empty.set "10001" ()

def smallRequest : ProveNosha256Request := ⟨[123, 125], "10001", 0⟩

/-- The first handler takes device 0 before the second one has read its count. -/
def smallLabels : List Label :=
  [.arrive .ProveV2 smallRequest [0, 1], .arrive .ProveNosha256 smallRequest [1, 0], .resume 1,
    .resume 0, .resume 0, .resume 0, .resume 0, .resume 0, .resume 1]

theorem run_small_isSome :
    (run (World.step smallCircuits) (World.initial [0, 1]) smallLabels).isSome = true := by
  decide +kernel

def smallEnd : World :=
  (run (World.step smallCircuits) (World.initial [0, 1]) smallLabels).get run_small_isSome

theorem run_small :
    run (World.step smallCircuits) (World.initial [0, 1]) smallLabels = some smallEnd :=
  (Option.some_get run_small_isSome).symm

theorem counters_exact_small : smallEnd.running = 1 ∧ smallEnd.runningProveTasks.toInt = 1 := by
  have hrunning : smallEnd.running = 1 := by decide +kernel
  refine ⟨hrunning, ?_⟩
  rw [(counters_exact run_small (by rw [hrunning]; decide)).1, hrunning]
  rfl

/-- The handler is at the end of its loop, with the device. -/
def Handler.found (d : Nat) (h : Handler) : Bool :=
  match h.stage with
  | .selects [] _ selectedIndex => selectedIndex = some d
  | _ => false

theorem selection_balanced_small : ∃ h ∈ smallEnd.handlers, h.found 1 = true ∧
    smallEnd.tasks 1 ≤ smallEnd.tasks 0 + (smallEnd.changes - h.since) := by
  have hfound : smallEnd.handlers.any (Handler.found 1) = true := by decide +kernel
  obtain ⟨h, hmem, hh⟩ := List.any_eq_true.1 hfound
  refine ⟨h, hmem, hh, ?_⟩
  unfold Handler.found at hh
  split at hh
  next minTasks selectedIndex hended =>
    have hkeys : smallEnd.devices.keys = [0, 1] := by decide +kernel
    have hbalanced := selection_balanced run_small
      (few_of_length (by decide)) hmem hended
    refine (hbalanced.2 1 (of_decide_eq_true hh)).2 0 ?_
    rw [hkeys]
    exact List.mem_cons_self
  next => cases hh

end ProverNetwork.Ports.DeviceTasks
