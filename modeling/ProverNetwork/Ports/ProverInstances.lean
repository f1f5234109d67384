import Mathlib.Data.Rat.Defs
import ProverNetwork.Ports.ConnectionPoolRun
import ProverNetwork.Verified.Decimal

/-!
# Shared prover clients

`CircomProver` and the two `PrivateProver` classes hand out one object for each
address and pool size: `__new__` looks the pair up in a table of the class and
makes an object only when there is none.  What else the call asks for counts
the first time only, and an object stays in the table when its pool is closed.

An object is named by the number of objects made before it.

## Main results

* `key_inj` — the text of the table key determines the pair.
* `InstancesInv` — what the tables and the objects say of the history.
* `constructed_is_first` — what a construction returns.
* `settings_ignored` — a construction that asks for other settings.
-/

namespace ProverNetwork.Ports.ProverInstances

open ProverNetwork.Verified
open ProverNetwork.Ports

/-! ## The table key -/

/-- `f"{address}::{max_connections}"`. -/
def key (address : String) (max_connections : Int) : String :=
  address ++ "::" ++ toString max_connections

/-- **The key determines the address and the size**, whatever the address holds. -/
theorem key_inj {address address' : String} {size size' : Int}
    (h : key address size = key address' size') : address = address' ∧ size = size' := by
  have hlist := congrArg String.toList h
  simp only [key, String.toList_append, List.append_assoc] at hlist
  have hsep : ∀ (a : String) (n : Int), a.toList ++ ("::".toList ++ (toString n).toList) =
      (a.toList ++ [':']) ++ ':' :: (toString n).toList := by
    intro a n
    rw [List.append_assoc]
    rfl
  rw [hsep, hsep] at hlist
  have hcolon : ∀ n : Int, ':' ∉ (toString n).toList := notMem_toString (by decide) (by decide)
  obtain ⟨haddress, hsize⟩ := append_sep_inj (hcolon size) (hcolon size') hlist
  refine ⟨String.toList_inj.1 (List.append_cancel_right haddress), ?_⟩
  exact toString_inj hsize

/-! ## The classes and their objects -/

inductive ProverClass
  | circom
  | gnarkPrivate
  | privatePrivate
  deriving DecidableEq

/-- The keyword arguments of a construction. -/
structure Kwargs where
  verify_tls : Bool := false
  tls_certfile : String := ""
  pool_initial_size : Int := 0
  rpc_timeout_sec : ℚ := 30
  max_retries : Int := 2
  base_backoff_ms : Int := 150

structure Prover (ι : Type*) where
  cls : ProverClass
  address : String
  connection_pool : ConnectionPoolRun.World ι
  rpc_timeout_sec : ℚ
  max_retries : Int
  base_backoff_ms : Int

/-- `_init`. -/
def Prover.init {ι : Type*} (cls : ProverClass) (address : String) (max_connections : Int)
    (kwargs : Kwargs) : Prover ι where
  cls := cls
  address := address
  connection_pool := .init address max_connections kwargs.pool_initial_size kwargs.verify_tls
    kwargs.tls_certfile
  rpc_timeout_sec := kwargs.rpc_timeout_sec
  max_retries := kwargs.max_retries
  base_backoff_ms := kwargs.base_backoff_ms

/-- The warm-up creates no channel, or channels can be created. -/
def warms (max_connections : Int) (kwargs : Kwargs) (opens : Bool) : Bool :=
  opens || min kwargs.pool_initial_size max_connections ≤ 0

/-- Constructions, ends of `async with` blocks, `close` calls and what the RPCs do
with the pool of an object. -/
inductive Label (ι : Type*)
  | construct (cls : ProverClass) (address : String) (max_connections : Int) (kwargs : Kwargs)
      (opens : Bool)
  | aexit (id : Nat)
  | close (id : Nat)
  | rpc (id : Nat) (call : ConnectionPoolRun.Label ι)

/-- The table of each class, the objects in the order they were made, and the
labels so far. -/
structure World (ι : Type*) where
  instances : ProverClass → Dict String Nat
  objects : List (Prover ι)
  history : List (Label ι)

def World.initial {ι : Type*} : World ι := ⟨fun _ => Dict.empty, [], []⟩

section Steps

variable {ι : Type*} [DecidableEq ι]

/-- `__new__`, with the object it returns; `none` where the warm-up raises. -/
def World.new (w : World ι) (cls : ProverClass) (address : String) (max_connections : Int)
    (kwargs : Kwargs) (opens : Bool) : Option Nat × World ι :=
  match (w.instances cls).get? (key address max_connections) with
  | some id => (some id, w)
  | none =>
      if warms max_connections kwargs opens then
        let id := w.objects.length
        (some id, { w with
          instances := fun c =>
            if c = cls then (w.instances cls).set (key address max_connections) id
            else w.instances c
          objects := w.objects ++ [.init cls address max_connections kwargs] })
      else (none, w)

/-- A step of the pool of an object. -/
def World.poolStep (w : World ι) (id : Nat) (call : ConnectionPoolRun.Label ι) :
    Option (World ι) :=
  match w.objects[id]? with
  | none => none
  | some p =>
      (p.connection_pool.step call).map (fun pool =>
        { w with objects := w.objects.set id { p with connection_pool := pool } })

/-- An RPC acquires, waits, is cancelled and releases; it does not close the
pool. -/
def isRpc : ConnectionPoolRun.Label ι → Bool
  | .close => false
  | _ => true

def World.act (w : World ι) : Label ι → Option (World ι)
  | .construct cls address max_connections kwargs opens =>
      some (w.new cls address max_connections kwargs opens).2
  | .aexit id => w.poolStep id .close
  | .close id => w.poolStep id .close
  | .rpc id call => if isRpc call then w.poolStep id call else none

def World.step (w : World ι) (label : Label ι) : Option (World ι) :=
  (w.act label).map (fun w' => { w' with history := w'.history ++ [label] })

/-! ## What the tables say of the history -/

/-- The keyword arguments of a construction that makes the object of the class
for the address and size, if none is there. -/
def Label.makes (cls : ProverClass) (address : String) (max_connections : Int) :
    Label ι → Option Kwargs
  | .construct c a n kwargs opens =>
      if c = cls ∧ a = address ∧ n = max_connections ∧ warms n kwargs opens = true then
        some kwargs
      else none
  | _ => none

/-- What the first of them asked for. -/
def firstMade (history : List (Label ι)) (cls : ProverClass) (address : String)
    (max_connections : Int) : Option Kwargs :=
  history.findSome? (Label.makes cls address max_connections)

/-- The object was closed. -/
def Closes (history : List (Label ι)) (id : Nat) : Prop :=
  .aexit id ∈ history ∨ .close id ∈ history

/-- The object is of the class, for the address and the size, and its pool has
the settings that `kwargs` asks for. -/
structure MadeFor (p : Prover ι) (cls : ProverClass) (address : String) (max_connections : Int)
    (kwargs : Kwargs) : Prop where
  cls : p.cls = cls
  address : p.connection_pool.pool.address = address
  max_connections : p.connection_pool.pool.max_connections = max_connections
  verify_tls : p.connection_pool.pool.verify_tls = kwargs.verify_tls
  tls_certfile : p.connection_pool.pool.tls_certfile = kwargs.tls_certfile

/-- A table holds the object that the first construction for its key made, and
only a closed object has a closed pool. -/
structure InstancesInv (w : World ι) : Prop where
  found : ∀ cls address size id, (w.instances cls).get? (key address size) = some id →
    ∃ p kwargs, w.objects[id]? = some p ∧
      firstMade w.history cls address size = some kwargs ∧
      MadeFor p cls address size kwargs
  missing : ∀ cls address size, (w.instances cls).get? (key address size) = none →
    firstMade w.history cls address size = none
  closed : ∀ id p, w.objects[id]? = some p → p.connection_pool.pool.closed = true →
    Closes w.history id

omit [DecidableEq ι] in
theorem firstMade_append (history : List (Label ι)) (label : Label ι) (cls : ProverClass)
    (address : String) (size : Int) :
    firstMade (history ++ [label]) cls address size =
      (firstMade history cls address size).or (label.makes cls address size) := by
  rw [firstMade, List.findSome?_append]
  congr 1
  simp only [List.findSome?_cons, List.findSome?_nil]
  cases label.makes cls address size <;> rfl

omit [DecidableEq ι] in
theorem Closes.append {history : List (Label ι)} {id : Nat} (h : Closes history id)
    (label : Label ι) : Closes (history ++ [label]) id :=
  h.imp (List.mem_append_left _) (List.mem_append_left _)

omit [DecidableEq ι] in
theorem Prover.init_madeFor (cls : ProverClass) (address : String) (size : Int)
    (kwargs : Kwargs) :
    MadeFor (Prover.init (ι := ι) cls address size kwargs) cls address size kwargs := by
  obtain ⟨haddress, htls, hcert⟩ := ConnectionPool.init_settings (ι := ι) address size
    kwargs.pool_initial_size kwargs.verify_tls kwargs.tls_certfile
  have hwarm := ConnectionPool.init_spec (ι := ι) address size
    kwargs.pool_initial_size kwargs.verify_tls kwargs.tls_certfile
  exact ⟨rfl, haddress, hwarm.max_connections, htls, hcert⟩

omit [DecidableEq ι] in
theorem initial_instancesInv : InstancesInv (World.initial (ι := ι)) where
  found cls address size id h := by cases h
  missing cls address size h := rfl
  closed id p h := by cases h

/-! ## One step -/

/-- A step of a pool finds the object it is about. -/
theorem poolStep_cases {w w' : World ι} {id : Nat} {call : ConnectionPoolRun.Label ι}
    (h : w.poolStep id call = some w') :
    ∃ p pool, w.objects[id]? = some p ∧
      ConnectionPoolRun.Effect p.connection_pool call pool ∧
      w' = { w with objects := w.objects.set id { p with connection_pool := pool } } := by
  unfold World.poolStep at h
  cases hp : w.objects[id]? with
  | none => simp [hp] at h
  | some p =>
      simp only [hp, Option.map_eq_some_iff] at h
      obtain ⟨pool, hstep, rfl⟩ := h
      exact ⟨p, pool, rfl, ConnectionPoolRun.effect_of_step hstep, rfl⟩

/-- What a single step can do to the tables and the objects, guards included. -/
inductive Effect (w : World ι) : Label ι → World ι → Prop
  | found (cls : ProverClass) (address : String) (size : Int) (kwargs : Kwargs) (opens : Bool)
      (id : Nat) : (w.instances cls).get? (key address size) = some id →
      Effect w (.construct cls address size kwargs opens) w
  | failed (cls : ProverClass) (address : String) (size : Int) (kwargs : Kwargs)
      (opens : Bool) : (w.instances cls).get? (key address size) = none →
      warms size kwargs opens = false →
      Effect w (.construct cls address size kwargs opens) w
  | made (cls : ProverClass) (address : String) (size : Int) (kwargs : Kwargs) (opens : Bool) :
      (w.instances cls).get? (key address size) = none → warms size kwargs opens = true →
      Effect w (.construct cls address size kwargs opens) { w with
        instances := fun c =>
          if c = cls then (w.instances cls).set (key address size) w.objects.length
          else w.instances c
        objects := w.objects ++ [.init cls address size kwargs] }
  | pool (label : Label ι) (id : Nat) (call : ConnectionPoolRun.Label ι) (p : Prover ι)
      (pool : ConnectionPoolRun.World ι) : w.objects[id]? = some p →
      ConnectionPoolRun.Effect p.connection_pool call pool →
      (∀ cls address size, label.makes cls address size = none) →
      (call = .close → label = .aexit id ∨ label = .close id) →
      Effect w label
        { w with objects := w.objects.set id { p with connection_pool := pool } }

theorem effect_new (w : World ι) (cls : ProverClass) (address : String) (size : Int)
    (kwargs : Kwargs) (opens : Bool) :
    Effect w (.construct cls address size kwargs opens)
      (w.new cls address size kwargs opens).2 := by
  unfold World.new
  cases hget : (w.instances cls).get? (key address size) with
  | some id => exact .found cls address size kwargs opens id hget
  | none =>
      dsimp only
      by_cases hwarms : warms size kwargs opens = true
      · rw [if_pos hwarms]
        exact .made cls address size kwargs opens hget hwarms
      · rw [if_neg hwarms]
        exact .failed cls address size kwargs opens hget (by simpa using hwarms)

/-- Every enabled step is one of the effects. -/
theorem effect_of_act {w w' : World ι} {label : Label ι} (hact : w.act label = some w') :
    Effect w label w' := by
  cases label with
  | construct cls address size kwargs opens =>
      cases hact
      exact effect_new w cls address size kwargs opens
  | aexit id =>
      obtain ⟨p, pool, hp, heff, rfl⟩ := poolStep_cases hact
      exact .pool _ id .close p pool hp heff (fun _ _ _ => rfl) (fun _ => Or.inl rfl)
  | close id =>
      obtain ⟨p, pool, hp, heff, rfl⟩ := poolStep_cases hact
      exact .pool _ id .close p pool hp heff (fun _ _ _ => rfl) (fun _ => Or.inr rfl)
  | rpc id call =>
      simp only [World.act] at hact
      split at hact
      next hrpc =>
        obtain ⟨p, pool, hp, heff, rfl⟩ := poolStep_cases hact
        refine .pool _ id call p pool hp heff (fun _ _ _ => rfl) ?_
        rintro rfl
        cases hrpc
      next => cases hact

/-! ## The invariant -/

omit [DecidableEq ι] in
/-- A label that makes nothing the tables lack leaves them true of the history. -/
theorem InstancesInv.relabel {w : World ι} {label : Label ι} {objects : List (Prover ι)}
    (hinv : InstancesInv w)
    (hmakes : ∀ cls address size, (w.instances cls).get? (key address size) = none →
      label.makes cls address size = none)
    (hobjects : ∀ (id : Nat) (p : Prover ι), w.objects[id]? = some p →
      ∃ p' : Prover ι, objects[id]? = some p' ∧
        ∀ cls address size kwargs, MadeFor p cls address size kwargs →
          MadeFor p' cls address size kwargs)
    (hclosed : ∀ (id : Nat) (p' : Prover ι), objects[id]? = some p' →
      p'.connection_pool.pool.closed = true → Closes (w.history ++ [label]) id) :
    InstancesInv { w with objects := objects, history := w.history ++ [label] } := by
  refine ⟨?_, ?_, hclosed⟩
  · intro cls address size id hget
    obtain ⟨p, kwargs, hp, hfirst, hmade⟩ := hinv.found cls address size id hget
    obtain ⟨p', hp', hkeep⟩ := hobjects id p hp
    refine ⟨p', kwargs, hp', ?_, hkeep cls address size kwargs hmade⟩
    rw [firstMade_append, hfirst]
    rfl
  · intro cls address size hget
    rw [firstMade_append, hinv.missing cls address size hget, hmakes cls address size hget]
    rfl

omit [DecidableEq ι] in
/-- The label of a step that changes nothing. -/
theorem InstancesInv.skip {w : World ι} {label : Label ι} (hinv : InstancesInv w)
    (hmakes : ∀ cls address size, (w.instances cls).get? (key address size) = none →
      label.makes cls address size = none) :
    InstancesInv { w with history := w.history ++ [label] } :=
  hinv.relabel hmakes (fun _ p hp => ⟨p, hp, fun _ _ _ _ hmade => hmade⟩)
    (fun id p hp hclosed => (hinv.closed id p hp hclosed).append label)

omit [DecidableEq ι] in
/-- A new object is in the table under its key only. -/
theorem made_get? (w : World ι) (cls cls' : ProverClass) (address address' : String)
    (size size' : Int) :
    (if cls' = cls then (w.instances cls).set (key address size) w.objects.length
      else w.instances cls').get? (key address' size') =
      if cls' = cls ∧ address' = address ∧ size' = size then some w.objects.length
      else (w.instances cls').get? (key address' size') := by
  by_cases hcls : cls' = cls
  · subst hcls
    rw [if_pos rfl, Dict.get?_set]
    by_cases hkey : key address' size' = key address size
    · rw [if_pos hkey, if_pos ⟨rfl, key_inj hkey⟩]
    · rw [if_neg hkey, if_neg]
      rintro ⟨-, rfl, rfl⟩
      exact hkey rfl
  · rw [if_neg hcls, if_neg (fun h => hcls h.1)]

omit [DecidableEq ι] in
/-- A construction that warms its pool is the first for its key where there was none. -/
theorem firstMade_construct (history : List (Label ι)) {cls : ProverClass} {address : String}
    {size : Int} {kwargs : Kwargs} {opens : Bool} (hwarms : warms size kwargs opens = true)
    (cls' : ProverClass) (address' : String) (size' : Int) :
    firstMade (history ++ [.construct cls address size kwargs opens]) cls' address' size' =
      (firstMade history cls' address' size').or
        (if cls' = cls ∧ address' = address ∧ size' = size then some kwargs else none) := by
  rw [firstMade_append, Label.makes]
  congr 1
  by_cases hsame : cls' = cls ∧ address' = address ∧ size' = size
  · obtain ⟨rfl, rfl, rfl⟩ := hsame
    rw [if_pos ⟨rfl, rfl, rfl, hwarms⟩, if_pos ⟨rfl, rfl, rfl⟩]
  · rw [if_neg hsame, if_neg]
    exact fun h => hsame ⟨h.1.symm, h.2.1.symm, h.2.2.1.symm⟩

omit [DecidableEq ι] in
/-- What a construction adds to the tables, the objects and the history. -/
theorem InstancesInv.made {w : World ι} (hinv : InstancesInv w) {cls : ProverClass}
    {address : String} {size : Int} {kwargs : Kwargs} {opens : Bool}
    (hget : (w.instances cls).get? (key address size) = none)
    (hwarms : warms size kwargs opens = true) :
    InstancesInv
      { instances := fun c =>
          if c = cls then (w.instances cls).set (key address size) w.objects.length
          else w.instances c
        objects := w.objects ++ [.init cls address size kwargs]
        history := w.history ++ [.construct cls address size kwargs opens] } := by
  refine ⟨?_, ?_, ?_⟩
  · intro cls' address' size' id hget'
    rw [made_get?] at hget'
    rw [firstMade_construct _ hwarms]
    split at hget'
    next hsame =>
      cases hget'
      obtain ⟨rfl, rfl, rfl⟩ := hsame
      refine ⟨.init cls' address' size' kwargs, kwargs, by simp, ?_,
        Prover.init_madeFor cls' address' size' kwargs⟩
      rw [hinv.missing cls' address' size' hget, if_pos ⟨rfl, rfl, rfl⟩]
      rfl
    next =>
      obtain ⟨p, kwargs', hp, hfirst, hmade⟩ := hinv.found cls' address' size' id hget'
      refine ⟨p, kwargs', ?_, ?_, hmade⟩
      · rw [List.getElem?_append_left (List.getElem?_eq_some_iff.1 hp).1, hp]
      · rw [hfirst]
        rfl
  · intro cls' address' size' hget'
    rw [made_get?] at hget'
    split at hget'
    next => cases hget'
    next hother =>
      rw [firstMade_construct _ hwarms, hinv.missing cls' address' size' hget', if_neg hother]
      rfl
  · intro id p hp hclosed
    rw [List.getElem?_append] at hp
    split at hp
    next => exact (hinv.closed id p hp hclosed).append _
    next =>
      have hnew : p = .init cls address size kwargs :=
        List.mem_singleton.1 (List.mem_of_getElem? hp)
      rw [hnew] at hclosed
      cases (ConnectionPool.init_spec address size kwargs.pool_initial_size kwargs.verify_tls
        kwargs.tls_certfile).closed.symm.trans hclosed

/-- **Step lemma.** -/
theorem InstancesInv.step {w w' : World ι} {label : Label ι} (hinv : InstancesInv w)
    (hstep : w.step label = some w') : InstancesInv w' := by
  obtain ⟨v, hact, rfl⟩ := Option.map_eq_some_iff.1 hstep
  cases effect_of_act hact with
  | found cls address size kwargs opens id hget =>
      refine hinv.skip ?_
      intro cls' address' size' hnone
      rw [Label.makes, if_neg]
      rintro ⟨rfl, rfl, rfl, -⟩
      cases hget.symm.trans hnone
  | failed cls address size kwargs opens hget hwarms =>
      refine hinv.skip ?_
      intro cls' address' size' _
      rw [Label.makes, if_neg]
      rintro ⟨-, -, rfl, hwarm⟩
      cases hwarms.symm.trans hwarm
  | made cls address size kwargs opens hget hwarms => exact hinv.made hget hwarms
  | pool _ id call p pool hp heff hmakes hclose =>
      obtain ⟨haddress, hmax, htls, hcert, hclosed⟩ := ConnectionPoolRun.effect_settings heff
      have hlt := (List.getElem?_eq_some_iff.1 hp).1
      refine hinv.relabel (fun cls address size _ => hmakes cls address size) ?_ ?_
      · intro id' p' hp'
        by_cases hid : id' = id
        · subst hid
          cases hp.symm.trans hp'
          refine ⟨_, List.getElem?_set_self hlt, ?_⟩
          intro cls address size kwargs hmade
          exact ⟨hmade.cls, haddress.trans hmade.address, hmax.trans hmade.max_connections,
            htls.trans hmade.verify_tls, hcert.trans hmade.tls_certfile⟩
        · refine ⟨p', ?_, fun _ _ _ _ hmade => hmade⟩
          rw [List.getElem?_set_ne (Ne.symm hid), hp']
      · intro id' p' hp' hshut
        by_cases hid : id' = id
        · subst hid
          rw [List.getElem?_set_self hlt, Option.some.injEq] at hp'
          subst hp'
          rcases hclosed hshut with hbefore | hcall
          · exact (hinv.closed id' p hp hbefore).append label
          · rcases hclose hcall with rfl | rfl
            · exact Or.inl (List.mem_append_right _ (List.mem_singleton_self _))
            · exact Or.inr (List.mem_append_right _ (List.mem_singleton_self _))
        · rw [List.getElem?_set_ne (Ne.symm hid)] at hp'
          exact (hinv.closed id' p' hp' hshut).append label

/-- **Run lemma.** -/
theorem instancesInv_of_run {w : World ι} {labels : List (Label ι)}
    (hrun : run World.step World.initial labels = some w) : InstancesInv w :=
  run_invariant InstancesInv (fun _ => True) (fun _ _ _ _ hinv hstep => hinv.step hstep)
    (fun _ _ => trivial) initial_instancesInv hrun

/-- The history of a run is its labels. -/
theorem history_of_run {v w : World ι} {labels : List (Label ι)}
    (hrun : run World.step v labels = some w) : w.history = v.history ++ labels := by
  induction labels generalizing v with
  | nil =>
      cases hrun
      exact (List.append_nil _).symm
  | cons label rest ih =>
      obtain ⟨v', hstep, hrest⟩ := run_cons_eq_some.1 hrun
      obtain ⟨u, hact, rfl⟩ := Option.map_eq_some_iff.1 hstep
      have hkeep : u.history = v.history := by
        cases effect_of_act hact <;> rfl
      rw [ih hrest, hkeep, List.append_assoc]
      rfl

/-! ## What a construction returns -/

/-- **A construction returns the object of the first one** for the class, the
address and the size.  Its pool has that address and size and the settings the
first construction asked for, and is open unless the object was closed. -/
theorem constructed_is_first {labels : List (Label ι)} {w w' : World ι} {cls : ProverClass}
    {address : String} {max_connections : Int} {kwargs : Kwargs} {opens : Bool} {id : Nat}
    (hrun : run World.step World.initial labels = some w)
    (hnew : w.new cls address max_connections kwargs opens = (some id, w')) :
    ∃ p, w'.objects[id]? = some p ∧
      MadeFor p cls address max_connections
        ((firstMade labels cls address max_connections).getD kwargs) ∧
      (firstMade labels cls address max_connections = none ∨ ¬ Closes labels id →
        p.connection_pool.pool.closed = false) := by
  have hinv := instancesInv_of_run hrun
  have hhistory : w.history = labels := history_of_run hrun
  subst hhistory
  unfold World.new at hnew
  cases hget : (w.instances cls).get? (key address max_connections) with
  | some found =>
      rw [hget] at hnew
      cases hnew
      obtain ⟨p, first, hp, hfirst, hmade⟩ := hinv.found cls address max_connections id hget
      refine ⟨p, hp, ?_, ?_⟩
      · rw [hfirst]
        exact hmade
      · rintro (hnone | hopen)
        · cases hfirst.symm.trans hnone
        · exact Bool.eq_false_iff.2 (fun hclosed => hopen (hinv.closed id p hp hclosed))
  | none =>
      rw [hget] at hnew
      dsimp only at hnew
      split at hnew
      next =>
        cases hnew
        refine ⟨.init cls address max_connections kwargs, by simp, ?_, fun _ => ?_⟩
        · rw [hinv.missing cls address max_connections hget]
          exact Prover.init_madeFor cls address max_connections kwargs
        · exact (ConnectionPool.init_spec address max_connections kwargs.pool_initial_size
            kwargs.verify_tls kwargs.tls_certfile).closed
      next => cases hnew

end Steps

/-! ## Two constructions -/

/-- A client without TLS verification. -/
abbrev plain : Label String := .construct .circom "prover:50051" 100 {} true

/-- The table after it. -/
abbrev afterPlain : World String :=
  { (World.initial.new .circom "prover:50051" 100 {} true).2 with history := [plain] }

theorem constructed_is_first_plain :
    ∃ p, afterPlain.objects[0]? = some p ∧
      MadeFor p .circom "prover:50051" 100
        ((firstMade [plain] .circom "prover:50051" 100).getD { verify_tls := true }) ∧
      (firstMade [plain] .circom "prover:50051" 100 = none ∨ ¬ Closes [plain] 0 →
        p.connection_pool.pool.closed = false) :=
  @constructed_is_first String _ [plain] afterPlain afterPlain .circom "prover:50051" 100
    { verify_tls := true } true 0 rfl rfl

/-- The second construction asks for TLS verification and gets the pool of the
first, which has none. -/
theorem settings_ignored :
    ∃ p, run World.step World.initial [plain] = some afterPlain ∧
      afterPlain.new .circom "prover:50051" 100 { verify_tls := true } true =
        (some 0, afterPlain) ∧
      afterPlain.objects[0]? = some p ∧ p.connection_pool.pool.verify_tls = false :=
  ⟨_, rfl, rfl, rfl, rfl⟩

end ProverNetwork.Ports.ProverInstances
