import ProverNetwork.Ports.CircomAnswer
import ProverNetwork.Verified.Component

/-!
# Requests of the circom prover at the same time

The handlers share one disk.  Each saves its input, and a process of its own, the
witness generator of the circuit, reads the input and writes the file of wires,
which the handler reads when the generator has ended; the names of both files hold
an id that the handler has drawn.  No file is removed.  A panic ends the server and
its handlers, and leaves the generators that were started.

While no id is drawn twice, no handler comes near the files of another: it answers
what it could answer with the disk to itself.

## Main results

* `stepOf_frame`, `stepOf_kept` — what a step of one request does.
* `answers_alone` — requests at the same time answer as they would alone.
* `answers_proved` — a proof is for the input of its own request.
* `restart_loads` — what the next start of the server loads is what it was.
-/

namespace ProverNetwork.Ports.CircomRequests

open ProverNetwork.Verified
open ProverNetwork.Verified.FileStore
open ProverNetwork.Ports.CircomProver
open ProverNetwork.Ports.CircomExport
open ProverNetwork.Ports.CircomR1CS (CircuitData)

/-! ## The state -/

/-- Where a request is: with the checks; with its generator, which has been started, has
read the input, or has ended; or answered.  `D` is the type of a circuit. -/
inductive Stage (D : Type)
  | received
  | started (circuit : D) (id : UUID)
  | loaded (circuit : D) (id : UUID) (input : List UInt8)
  | exited (circuit : D) (id : UUID) (success : Bool)
  | ended (answer : Answer)

/-- A request, with the tasks of the devices that its handler saw; `alive` while the
server process that it came to has not stopped. -/
structure Job (D : Type) where
  rpc : Rpc
  devices : List Int
  req : ProveNosha256Request
  alive : Bool
  stage : Stage D

structure World (D : Type) where
  files : Dict String (List UInt8)
  jobs : List (Job D)

/-- A disk, and no request so far. -/
def World.initial {D : Type} (files : Dict String (List UInt8)) : World D := ⟨files, []⟩

/-- A request arrives; its handler makes the checks and saves the input under the id that
it draws; its generator reads the input, and ends; its handler goes on to the answer; or
the server stops, and is started again. -/
inductive Label (Rand : Type)
  | arrive (rpc : Rpc) (devices : List Int) (req : ProveNosha256Request)
  | save (i : Nat) (id : UUID) (written : Written (List UInt8))
  | load (i : Nat)
  | emit (i : Nat) (written : Written (List UInt8))
  | conclude (i : Nat) (readError : Option String) (rand : Rand)
  | crash

/-! ## The steps -/

section Steps

variable {PK VK CS Secret Proof Rand : Type} (s : Setup PK VK CS Secret Proof Rand)
  (files : Dict String (List UInt8)) (job : Job (CircuitData PK VK CS))

/-- The checks, and the call of `ioutil.WriteFile`. -/
def Setup.save (id : UUID) (written : Written (List UInt8)) :
    Go (Dict String (List UInt8) × Stage (CircuitData PK VK CS)) :=
  match s.validate job.rpc job.devices job.req with
  | .halt e => .error e
  | .respond r => .ok (files, .ended (failed r job.rpc))
  | .next v =>
      let saved := write files (jsonPath v.circuitData.CircuitPath id) job.req.Input written
      if saved.1 then .ok (saved.2, .started v.circuitData id)
      else .ok (saved.2, .ended (failed (notSaved job.rpc) job.rpc))

/-- The generator reads the input. -/
def load (circuit : CircuitData PK VK CS) (id : UUID) : Stage (CircuitData PK VK CS) :=
  match files.get? (jsonPath circuit.CircuitPath id) with
  | some input => .loaded circuit id input
  | none => .exited circuit id false

/-- The generator writes the wires and ends; where it makes none, it may leave an empty
or another file. -/
def Setup.emit (circuit : CircuitData PK VK CS) (id : UUID) (input : List UInt8)
    (written : Written (List UInt8)) :
    Dict String (List UInt8) × Stage (CircuitData PK VK CS) :=
  let path := wtnsPath circuit.CircuitPath id
  match s.generate (join circuit.CircuitPath GenerateWitnessFilename) input with
  | some output =>
      ((write files path output written).2, .exited circuit id (write files path output written).1)
  | none => ((write files path [] written).2, .exited circuit id false)

/-- The handler after `cmd.Run`. -/
def Setup.finish (circuit : CircuitData PK VK CS) (id : UUID) (success : Bool)
    (readError : Option String) (rand : Rand) : Go (Stage (CircuitData PK VK CS)) :=
  if success then
    (settle job.rpc (s.conclude job.rpc circuit
      (readFile readError (files.get? (wtnsPath circuit.CircuitPath id))) rand)).map .ended
  else .ok (.ended (failed (notGenerated job.rpc) job.rpc))

/-- A step of one request; the steps of its handler only while the server is there. -/
def Setup.stepOf (label : Label Rand) :
    Option (Go (Dict String (List UInt8) × Stage (CircuitData PK VK CS))) :=
  match label, job.stage with
  | .save _ id written, .received =>
      if job.alive then some (s.save files job id written) else none
  | .load _, .started circuit id => some (.ok (files, load files circuit id))
  | .emit _ written, .loaded circuit id input =>
      some (.ok (s.emit files circuit id input written))
  | .conclude _ readError rand, .exited circuit id success =>
      if job.alive then
        some ((s.finish files job circuit id success readError rand).map (files, ·))
      else none
  | _, _ => none

end Steps

def Label.job {Rand : Type} : Label Rand → Option Nat
  | .arrive _ _ _ => none
  | .save i _ _ => some i
  | .load i => some i
  | .emit i _ => some i
  | .conclude i _ _ => some i
  | .crash => none

section System

variable {PK VK CS Secret Proof Rand : Type}

/-- The server stops. -/
def World.stopped (w : World (CircuitData PK VK CS)) : World (CircuitData PK VK CS) :=
  { w with jobs := w.jobs.map (fun job => { job with alive := false }) }

/-- What a step of request `i` leads to; a panic stops the server. -/
def World.after (w : World (CircuitData PK VK CS)) (i : Nat) (job : Job (CircuitData PK VK CS)) :
    Go (Dict String (List UInt8) × Stage (CircuitData PK VK CS)) → World (CircuitData PK VK CS)
  | .ok r => ⟨r.1, w.jobs.set i { job with stage := r.2 }⟩
  | .error _ => w.stopped

def World.step (s : Setup PK VK CS Secret Proof Rand) (w : World (CircuitData PK VK CS))
    (label : Label Rand) : Option (World (CircuitData PK VK CS)) :=
  match label with
  | .arrive rpc devices req =>
      some { w with jobs := w.jobs ++ [⟨rpc, devices, req, true, .received⟩] }
  | .crash => some w.stopped
  | label =>
      label.job.bind (fun i => w.jobs[i]?.bind (fun job =>
        (s.stepOf w.files job label).map (w.after i job)))

end System

/-! ## What a step does -/

/-- The ids that are drawn. -/
def Label.id {Rand : Type} : Label Rand → Option UUID
  | .save _ id _ => some id
  | _ => none

/-- The id that a request goes by, from its draw to its end. -/
def Stage.id {D : Type} : Stage D → Option UUID
  | .received => none
  | .started _ id => some id
  | .loaded _ id _ => some id
  | .exited _ id _ => some id
  | .ended _ => none

def Stage.answer {D : Type} : Stage D → Option Answer
  | .ended answer => some answer
  | _ => none

theorem Stage.answer_eq_some {D : Type} {stage : Stage D} {answer : Answer} :
    stage.answer = some answer ↔ stage = .ended answer := by
  cases stage <;> simp [Stage.answer]

/-- Only the two files of the id have changed. -/
def Changes (id : UUID) (files files' : Dict String (List UInt8)) : Prop :=
  ∀ path, (∀ c, path ≠ jsonPath c id ∧ path ≠ wtnsPath c id) →
    files'.get? path = files.get? path

theorem Changes.refl (id : UUID) (files : Dict String (List UInt8)) : Changes id files files :=
  fun _ _ => rfl

theorem changes_json (files : Dict String (List UInt8)) (c : String) (id : UUID)
    (content : List UInt8) (written : Written (List UInt8)) :
    Changes id files (write files (jsonPath c id) content written).2 :=
  fun _ hpath => get?_write_of_ne files (hpath c).1 content written

theorem changes_wtns (files : Dict String (List UInt8)) (c : String) (id : UUID)
    (content : List UInt8) (written : Written (List UInt8)) :
    Changes id files (write files (wtnsPath c id) content written).2 :=
  fun _ hpath => get?_write_of_ne files (hpath c).2 content written

section Moves

variable {PK VK CS Secret Proof Rand : Type} {s : Setup PK VK CS Secret Proof Rand}
  {files files' : Dict String (List UInt8)} {job : Job (CircuitData PK VK CS)}

/-- The request gets through its checks, for that circuit. -/
def Passes (s : Setup PK VK CS Secret Proof Rand) (job : Job (CircuitData PK VK CS))
    (circuit : CircuitData PK VK CS) : Prop :=
  ∃ v, s.validate job.rpc job.devices job.req = .next v ∧ v.circuitData = circuit

/-- What the disk holds for a request, by where it is; an answer is one that the request
could get with the disk to itself. -/
def Kept (s : Setup PK VK CS Secret Proof Rand) (files : Dict String (List UInt8))
    (job : Job (CircuitData PK VK CS)) : Prop :=
  match job.stage with
  | .received => True
  | .started circuit id =>
      Passes s job circuit ∧ files.get? (jsonPath circuit.CircuitPath id) = some job.req.Input
  | .loaded circuit _ input => Passes s job circuit ∧ input = job.req.Input
  | .exited circuit id success =>
      Passes s job circuit ∧ (success = true → ∃ output,
        s.generate (join circuit.CircuitPath GenerateWitnessFilename) job.req.Input =
          some output ∧
        files.get? (wtnsPath circuit.CircuitPath id) = some output)
  | .ended answer =>
      ∃ course, settle job.rpc (s.alone job.rpc job.devices job.req course) = .ok answer

/-- **A request is not touched** by a step under another id. -/
theorem Kept.changes {id : UUID} (hkept : Kept s files job) (hchanges : Changes id files files')
    (hid : job.stage.id ≠ some id) : Kept s files' job := by
  unfold Kept at hkept ⊢
  cases hstage : job.stage with
  | received => trivial
  | started circuit d =>
      rw [hstage] at hkept hid
      have hd : d ≠ id := fun h => hid (congrArg some h)
      refine ⟨hkept.1, (hchanges _ (fun c => ⟨fun h => hd (jsonPath_inj h), ?_⟩)).trans hkept.2⟩
      exact jsonPath_ne_wtnsPath _ c d id
  | loaded circuit d input =>
      rw [hstage] at hkept
      exact hkept
  | exited circuit d success =>
      rw [hstage] at hkept hid
      have hd : d ≠ id := fun h => hid (congrArg some h)
      refine ⟨hkept.1, fun hsuccess => ?_⟩
      obtain ⟨output, hgenerate, hfile⟩ := hkept.2 hsuccess
      refine ⟨output, hgenerate, (hchanges _ (fun c => ⟨?_, fun h => hd (wtnsPath_inj h)⟩)).trans
        hfile⟩
      exact (jsonPath_ne_wtnsPath c _ id d).symm
  | ended answer =>
      rw [hstage] at hkept
      exact hkept

/-! ### One request -/

theorem map_eq_ok {ε α β : Type} {x : Except ε α} {f : α → β} {b : β} :
    x.map f = .ok b ↔ ∃ a, x = .ok a ∧ f a = b := by
  cases x <;> simp [Except.map]

/-- A step of one request under an id: it changes only the files of the id, and the
request goes by no other id afterwards. -/
structure Frame (files : Dict String (List UInt8)) (id : UUID)
    (r : Dict String (List UInt8) × Stage (CircuitData PK VK CS)) : Prop where
  changes : Changes id files r.1
  id_eq : ∀ d, r.2.id = some d → d = id

theorem Frame.answers {id : UUID} (hchanges : Changes id files files') (answer : Answer) :
    Frame files id (files', (.ended answer : Stage (CircuitData PK VK CS))) where
  changes := hchanges
  id_eq _ hd := nomatch hd

variable {r : Dict String (List UInt8) × Stage (CircuitData PK VK CS)}

theorem save_frame {id : UUID} {written : Written (List UInt8)}
    (h : s.save files job id written = .ok r) : Frame files id r := by
  unfold Setup.save at h
  split at h
  next => cases h
  next =>
    cases h
    exact .answers (.refl id files) _
  next v _ =>
    have hchanges := changes_json files v.circuitData.CircuitPath id job.req.Input written
    dsimp only at h
    split at h
    next =>
      cases h
      exact ⟨hchanges, fun d hd => (Option.some.inj hd).symm⟩
    next =>
      cases h
      exact .answers hchanges _

theorem load_frame (circuit : CircuitData PK VK CS) (id : UUID) :
    Frame files id (files, load files circuit id) := by
  refine ⟨.refl id files, fun d hd => ?_⟩
  unfold load at hd
  split at hd
  next => exact (Option.some.inj hd).symm
  next => exact (Option.some.inj hd).symm

variable (s files) in
theorem emit_frame (circuit : CircuitData PK VK CS) (id : UUID) (input : List UInt8)
    (written : Written (List UInt8)) : Frame files id (s.emit files circuit id input written) := by
  unfold Setup.emit
  dsimp only
  split
  next output _ =>
    exact ⟨changes_wtns files circuit.CircuitPath id output written,
      fun d hd => (Option.some.inj hd).symm⟩
  next =>
    exact ⟨changes_wtns files circuit.CircuitPath id [] written,
      fun d hd => (Option.some.inj hd).symm⟩

theorem finish_frame {circuit : CircuitData PK VK CS} {id : UUID} {success : Bool}
    {readError : Option String} {rand : Rand} {stage : Stage (CircuitData PK VK CS)}
    (h : s.finish files job circuit id success readError rand = .ok stage) :
    Frame files id (files, stage) := by
  unfold Setup.finish at h
  split at h
  next =>
    obtain ⟨answer, -, rfl⟩ := map_eq_ok.1 h
    exact .answers (.refl id files) answer
  next =>
    cases h
    exact .answers (.refl id files) _

/-- **Frame of a step**: the id is the one that the request draws or goes by. -/
theorem stepOf_frame {label : Label Rand} (h : s.stepOf files job label = some (.ok r)) :
    ∃ id, (label.id = some id ∨ job.stage.id = some id) ∧ Frame files id r := by
  obtain ⟨rpc, devices, req, alive, stage⟩ := job
  unfold Setup.stepOf at h
  split at h
  next i id written hstage =>
    split at h
    next => exact ⟨id, Or.inl rfl, save_frame (Option.some.inj h)⟩
    next => cases h
  next i circuit id hstage =>
    cases hstage
    cases h
    exact ⟨id, Or.inr rfl, load_frame circuit id⟩
  next i written circuit id input hstage =>
    cases hstage
    cases h
    exact ⟨id, Or.inr rfl, emit_frame s files circuit id input written⟩
  next i readError rand circuit id success hstage =>
    cases hstage
    split at h
    next =>
      obtain ⟨stage, hfinish, rfl⟩ := map_eq_ok.1 (Option.some.inj h)
      exact ⟨id, Or.inr rfl, finish_frame hfinish⟩
    next => cases h
  next => cases h

section Kept

variable [Inhabited Rand]

theorem save_kept {id : UUID} {written : Written (List UInt8)}
    (h : s.save files job id written = .ok r) : Kept s r.1 { job with stage := r.2 } := by
  unfold Setup.save at h
  cases hvalidate : s.validate job.rpc job.devices job.req with
  | halt e =>
      rw [hvalidate] at h
      cases h
  | respond answer =>
      rw [hvalidate] at h
      cases h
      exact ⟨⟨true, true, none, default⟩, alone_refused hvalidate _⟩
  | next v =>
      rw [hvalidate] at h
      dsimp only at h
      split at h
      next hsaved =>
        cases h
        exact ⟨⟨v, hvalidate, rfl⟩, get?_write_self hsaved⟩
      next =>
        cases h
        exact ⟨⟨false, true, none, default⟩, alone_notSaved hvalidate rfl⟩

omit [Inhabited Rand] in
theorem load_kept {circuit : CircuitData PK VK CS} {id : UUID}
    (hkept : Kept s files { job with stage := .started circuit id }) :
    Kept s files { job with stage := load files circuit id } := by
  obtain ⟨hpasses, hfile⟩ := hkept
  have hload : load files circuit id = .loaded circuit id job.req.Input := by
    rw [load, hfile]
  rw [hload]
  exact ⟨hpasses, rfl⟩

omit [Inhabited Rand] in
theorem emit_kept {circuit : CircuitData PK VK CS} {id : UUID} {input : List UInt8}
    (hkept : Kept s files { job with stage := .loaded circuit id input })
    (written : Written (List UInt8)) :
    Kept s (s.emit files circuit id input written).1
      { job with stage := (s.emit files circuit id input written).2 } := by
  obtain ⟨hpasses, hinput⟩ := hkept
  dsimp only at hinput
  subst hinput
  unfold Setup.emit
  dsimp only
  cases houtput : s.generate (join circuit.CircuitPath GenerateWitnessFilename) job.req.Input with
  | none => exact ⟨hpasses, fun hfalse => nomatch hfalse⟩
  | some output => exact ⟨hpasses, fun hwritten => ⟨output, houtput, get?_write_self hwritten⟩⟩

theorem finish_kept {circuit : CircuitData PK VK CS} {id : UUID} {success : Bool}
    (hkept : Kept s files { job with stage := .exited circuit id success })
    {readError : Option String} {rand : Rand} {stage : Stage (CircuitData PK VK CS)}
    (h : s.finish files job circuit id success readError rand = .ok stage) :
    Kept s files { job with stage := stage } := by
  obtain ⟨⟨v, hvalidate, rfl⟩, hfile⟩ := hkept
  unfold Setup.finish at h
  cases success with
  | false =>
      cases h
      exact ⟨⟨true, false, none, default⟩, alone_notGenerated hvalidate rfl rfl⟩
  | true =>
      obtain ⟨output, houtput, hcontent⟩ := hfile rfl
      have halone : s.alone job.rpc job.devices job.req ⟨true, true, readError, rand⟩ =
          s.conclude job.rpc v.circuitData (readFile readError (some output)) rand :=
        alone_generated hvalidate rfl rfl houtput
      rw [if_pos rfl, hcontent, ← halone] at h
      obtain ⟨answer, hanswer, rfl⟩ := map_eq_ok.1 h
      exact ⟨_, hanswer⟩

/-- **A step keeps the request's part of the disk as it should be.** -/
theorem stepOf_kept (hkept : Kept s files job) {label : Label Rand}
    (h : s.stepOf files job label = some (.ok r)) : Kept s r.1 { job with stage := r.2 } := by
  obtain ⟨rpc, devices, req, alive, stage⟩ := job
  unfold Setup.stepOf at h
  split at h
  next i id written hstage =>
    split at h
    next => exact save_kept (Option.some.inj h)
    next => cases h
  next i circuit id hstage =>
    cases hstage
    cases h
    exact load_kept hkept
  next i written circuit id input hstage =>
    cases hstage
    cases h
    exact emit_kept hkept written
  next i readError rand circuit id success hstage =>
    cases hstage
    split at h
    next =>
      obtain ⟨stage, hfinish, rfl⟩ := map_eq_ok.1 (Option.some.inj h)
      exact finish_kept hkept hfinish
    next => cases h
  next => cases h

end Kept

end Moves

/-! ## Runs -/

section Runs

variable {PK VK CS Secret Proof Rand : Type} {s : Setup PK VK CS Secret Proof Rand}
  {w w' : World (CircuitData PK VK CS)} {label : Label Rand}

/-- What a step of the whole server can be. -/
inductive Effect (s : Setup PK VK CS Secret Proof Rand) (w : World (CircuitData PK VK CS)) :
    Label Rand → World (CircuitData PK VK CS) → Prop
  | arrived (rpc : Rpc) (devices : List Int) (req : ProveNosha256Request) :
      Effect s w (.arrive rpc devices req)
        { w with jobs := w.jobs ++ [⟨rpc, devices, req, true, .received⟩] }
  | stopped (label : Label Rand) : Effect s w label w.stopped
  | moved (i : Nat) (job : Job (CircuitData PK VK CS)) (label : Label Rand)
      (r : Dict String (List UInt8) × Stage (CircuitData PK VK CS)) (hjob : w.jobs[i]? = some job)
      (hmove : s.stepOf w.files job label = some (.ok r)) :
      Effect s w label ⟨r.1, w.jobs.set i { job with stage := r.2 }⟩

theorem effect_of_step (h : w.step s label = some w') : Effect s w label w' := by
  have hmoved : ∀ {l : Label Rand}, l.job.bind (fun i => w.jobs[i]?.bind (fun job =>
      (s.stepOf w.files job l).map (w.after i job))) = some w' → Effect s w l w' := by
    intro l h
    obtain ⟨i, -, h⟩ := Option.bind_eq_some_iff.1 h
    obtain ⟨job, hjob, h⟩ := Option.bind_eq_some_iff.1 h
    obtain ⟨r, hmove, rfl⟩ := Option.map_eq_some_iff.1 h
    cases r with
    | error e => exact .stopped l
    | ok r => exact .moved i job l r hjob hmove
  cases label with
  | arrive rpc devices req =>
      cases h
      exact .arrived rpc devices req
  | crash =>
      cases h
      exact .stopped _
  | save i id written => exact hmoved h
  | load i => exact hmoved h
  | emit i written => exact hmoved h
  | conclude i readError rand => exact hmoved h

/-- Each request has its part of the disk as it should be, and an id of its own. -/
structure Separate (s : Setup PK VK CS Secret Proof Rand) (w : World (CircuitData PK VK CS)) :
    Prop where
  kept : ∀ job ∈ w.jobs, Kept s w.files job
  apart : ∀ (i j : Nat) (x y : Job (CircuitData PK VK CS)) (d : UUID), w.jobs[i]? = some x →
    w.jobs[j]? = some y → x.stage.id = some d → y.stage.id = some d → i = j

/-- The id that is drawn is none that a request goes by. -/
def Fresh (w : World (CircuitData PK VK CS)) (label : Label Rand) : Prop :=
  ∀ id, label.id = some id → ∀ job ∈ w.jobs, job.stage.id ≠ some id

theorem getElem?_stopped {j : Nat} {y : Job (CircuitData PK VK CS)}
    (h : w.stopped.jobs[j]? = some y) :
    ∃ x, w.jobs[j]? = some x ∧ y = { x with alive := false } := by
  rw [World.stopped, List.getElem?_map] at h
  obtain ⟨x, hx, rfl⟩ := Option.map_eq_some_iff.1 h
  exact ⟨x, hx, rfl⟩

variable [Inhabited Rand]

/-- **Step lemma.** -/
theorem Separate.step (hinv : Separate s w) (hfresh : Fresh w label)
    (hstep : w.step s label = some w') : Separate s w' := by
  cases effect_of_step hstep with
  | arrived rpc devices req =>
      refine ⟨?_, ?_⟩
      · intro job hjob
        cases List.mem_append.1 hjob with
        | inl hold => exact hinv.kept job hold
        | inr hnew =>
            cases List.mem_singleton.1 hnew
            trivial
      · intro i j x y d hx hy hxd hyd
        have hold : ∀ {i : Nat} {x : Job (CircuitData PK VK CS)},
            (w.jobs ++ [⟨rpc, devices, req, true, .received⟩])[i]? = some x →
            x.stage.id = some d → w.jobs[i]? = some x := by
          intro i x hx hxd
          cases getElem?_concat_cases hx with
          | inl hold => exact hold
          | inr hnew =>
              rw [hnew.2] at hxd
              cases hxd
        exact hinv.apart i j x y d (hold hx hxd) (hold hy hyd) hxd hyd
  | stopped =>
      refine ⟨?_, ?_⟩
      · intro job hjob
        obtain ⟨old, hold, rfl⟩ := List.mem_map.1 hjob
        exact hinv.kept old hold
      · intro i j x y d hx hy hxd hyd
        obtain ⟨x₀, hx₀, rfl⟩ := getElem?_stopped hx
        obtain ⟨y₀, hy₀, rfl⟩ := getElem?_stopped hy
        exact hinv.apart i j x₀ y₀ d hx₀ hy₀ hxd hyd
  | moved i job _ r hjob hmove =>
      obtain ⟨id, hid, hframe⟩ := stepOf_frame hmove
      have hkept := stepOf_kept (hinv.kept job (List.mem_of_getElem? hjob)) hmove
      -- nobody else goes by the id
      have hothers : ∀ j y, j ≠ i → w.jobs[j]? = some y → y.stage.id ≠ some id := by
        intro j y hne hy hyd
        cases hid with
        | inl hdrawn => exact hfresh id hdrawn y (List.mem_of_getElem? hy) hyd
        | inr hheld => exact hne (hinv.apart j i y job id hy hjob hyd hheld)
      refine ⟨?_, ?_⟩
      · intro x hx
        obtain ⟨j, hj⟩ := List.getElem?_of_mem hx
        obtain ⟨-, rfl⟩ | ⟨hne, hold⟩ := getElem?_set_cases hj
        · exact hkept
        · exact (hinv.kept x (List.mem_of_getElem? hold)).changes hframe.changes
            (hothers j x hne hold)
      · intro j k x y d hx hy hxd hyd
        obtain ⟨hj, rfl⟩ | ⟨hj, hx⟩ := getElem?_set_cases hx
        · obtain ⟨hk, -⟩ | ⟨hk, hy⟩ := getElem?_set_cases hy
          · exact hj.trans hk.symm
          · exact absurd (hframe.id_eq d hxd ▸ hyd) (hothers k y hk hy)
        · obtain ⟨hk, rfl⟩ | ⟨hk, hy⟩ := getElem?_set_cases hy
          · exact absurd (hframe.id_eq d hyd ▸ hxd) (hothers j x hj hx)
          · exact hinv.apart j k x y d hx hy hxd hyd

omit [Inhabited Rand] in
/-- A request goes by an id that it drew. -/
theorem id_of_step (hstep : w.step s label = some w') {job : Job (CircuitData PK VK CS)}
    (hjob : job ∈ w'.jobs) {d : UUID} (hd : job.stage.id = some d) :
    label.id = some d ∨ ∃ old ∈ w.jobs, old.stage.id = some d := by
  cases effect_of_step hstep with
  | arrived rpc devices req =>
      cases List.mem_append.1 hjob with
      | inl hold => exact Or.inr ⟨job, hold, hd⟩
      | inr hnew =>
          cases List.mem_singleton.1 hnew
          cases hd
  | stopped =>
      obtain ⟨old, hold, rfl⟩ := List.mem_map.1 hjob
      exact Or.inr ⟨old, hold, hd⟩
  | moved i old _ r hold hmove =>
      obtain ⟨j, hj⟩ := List.getElem?_of_mem hjob
      obtain ⟨-, rfl⟩ | ⟨-, hj⟩ := getElem?_set_cases hj
      · obtain ⟨id, hid, hframe⟩ := stepOf_frame hmove
        obtain rfl := hframe.id_eq d hd
        exact hid.imp_right (fun hheld => ⟨old, List.mem_of_getElem? hold, hheld⟩)
      · exact Or.inr ⟨job, List.mem_of_getElem? hj, hd⟩

/-- **Run lemma**: the ids of the run are pairwise different, and none is in use. -/
theorem Separate.run {labels : List (Label Rand)} (hinv : Separate s w)
    (hnodup : (labels.filterMap Label.id).Nodup)
    (hnew : ∀ id ∈ labels.filterMap Label.id, ∀ job ∈ w.jobs, job.stage.id ≠ some id)
    (hrun : run (World.step s) w labels = some w') : Separate s w' := by
  induction labels generalizing w with
  | nil =>
      cases hrun
      exact hinv
  | cons label rest ih =>
      obtain ⟨v, hstep, hrest⟩ := run_cons_eq_some.1 hrun
      have hfresh : Fresh w label := by
        intro id hid
        exact hnew id (by simp [hid])
      refine ih (hinv.step hfresh hstep) ?_ ?_ hrest
      · rw [List.filterMap_cons] at hnodup
        cases hid : label.id with
        | none => simpa only [hid] using hnodup
        | some id =>
            rw [hid] at hnodup
            exact (List.nodup_cons.1 hnodup).2
      · intro id hid job hjob hd
        cases id_of_step hstep hjob hd with
        | inl hdrawn =>
            rw [List.filterMap_cons, hdrawn] at hnodup
            exact (List.nodup_cons.1 hnodup).1 hid
        | inr hold =>
            obtain ⟨old, hmem, hold⟩ := hold
            refine hnew id ?_ old hmem hold
            rw [List.filterMap_cons]
            cases label.id with
            | none => exact hid
            | some _ => exact List.mem_cons_of_mem _ hid

theorem run_kept {files : Dict String (List UInt8)} {labels : List (Label Rand)}
    (hids : (labels.filterMap Label.id).Nodup)
    (hrun : run (World.step s) (World.initial files) labels = some w)
    {job : Job (CircuitData PK VK CS)} (hjob : job ∈ w.jobs) : Kept s w.files job := by
  have hstart : Separate s (World.initial files) :=
    ⟨fun x hx => absurd hx List.not_mem_nil, fun i j x y d hx => by cases hx⟩
  exact (hstart.run hids (fun _ _ x hx => absurd hx List.not_mem_nil) hrun).kept job hjob

variable {files : Dict String (List UInt8)} {labels : List (Label Rand)}
  {job : Job (CircuitData PK VK CS)} {answer : Answer}

/-- **Requests at the same time answer as they would alone**: in every run of the
server in which no id is drawn twice, whatever else is on the disk, whichever writes
and generators fail, and however often the server stops. -/
theorem answers_alone (hids : (labels.filterMap Label.id).Nodup)
    (hrun : run (World.step s) (World.initial files) labels = some w) (hjob : job ∈ w.jobs)
    (hended : job.stage = .ended answer) :
    ∃ course, settle job.rpc (s.alone job.rpc job.devices job.req course) = .ok answer := by
  have hkept := run_kept hids hrun hjob
  rw [Kept, hended] at hkept
  exact hkept

/-- **A proof is for the input of its own request**: in every such run, an answer without
an error code is made of a proof for the wires that the generator of the request's
circuit makes of the request's input. -/
theorem answers_proved (hids : (labels.filterMap Label.id).Nodup)
    (hrun : run (World.step s) (World.initial files) labels = some w) (hjob : job ∈ w.jobs)
    (hended : job.stage = .ended answer) (hcode : answer.code = 0) :
    ∃ v output, s.validate job.rpc job.devices job.req = .next v ∧
      s.generate (join v.circuitData.CircuitPath GenerateWitnessFilename) job.req.Input =
        some output ∧
      Proved s job.rpc v.circuitData output answer := by
  have hkept := run_kept hids hrun hjob
  rw [Kept, hended] at hkept
  obtain ⟨course, halone⟩ := hkept
  exact alone_proved halone hcode

end Runs

/-! ### Two requests at the same time -/

theorem smallJson_ne : "\x7b\x7d" ≠ "" := by decide

theorem smallBytes_ne : [(0 : UInt8)] ≠ [] := List.cons_ne_nil 0 []

def smallProofs : Proofs Unit where
  nosha256 := ()
  withWitnessJson := "\x7b\x7d"
  offchainBytes := [0]
  v2 := ()
  v2Json := "\x7b\x7d"
  v2Bytes := [0]
  v2PublicWitnessBytes := []
  withWitnessJson_ne := smallJson_ne
  offchainBytes_ne := smallBytes_ne
  v2Json_ne := smallJson_ne

/-- The file of the wires 1 and `n`, for an input that starts with `n`. -/
def smallGenerate (_ : String) : List UInt8 → Option (List UInt8)
  | [] => none
  | n :: _ => some (CircomR1CS.encodeWtns 2 [1, n.toNat])

/-- Two inputs, both with the hash of no bytes, and one circuit with one output. -/
def smallSetup : Setup Unit Unit Unit Unit Unit Unit where
  host := hostOf [([3, 0], requestData [] []), ([5, 0], requestData [] [])] []
  circuits := Dict.empty.set "10001" ⟨(), (), some (), 1, 0, "template/10001"⟩
  generate := smallGenerate
  buffer := Slice.ofList
  newWitness _ _ := .ok ()
  prove _ _ _ _ := .ok smallProofs
  gnark := ⟨fun _ => .ok [], fun _ => [], fun _ => .ok []⟩

def smallId (n : Nat) : UUID :=
  ⟨String.ofList (List.replicate 36 (Nat.digitChar n)), by simp⟩

def smallLabels : List (Label Unit) :=
  [.arrive .ProveNosha256Offchain [] ⟨[3, 0], "10001", 0⟩,
    .arrive .ProveNosha256WithWitness [] ⟨[5, 0], "10001", 0⟩,
    .save 0 (smallId 0) .whole, .save 1 (smallId 1) .whole, .load 1, .load 0,
    .emit 0 .whole, .emit 1 .whole, .conclude 1 none (), .conclude 0 none ()]

/-- The world after the run, the first request, and its answer, which is a proof. -/
def smallRun : Option (World (CircuitData Unit Unit Unit) ×
    Job (CircuitData Unit Unit Unit) × Answer) :=
  (run (World.step smallSetup) (World.initial Dict.empty) smallLabels).bind (fun w =>
    w.jobs[0]?.bind (fun job => job.stage.answer.bind (fun answer =>
      if answer.code = 0 then some (w, job, answer) else none)))

theorem smallRun_isSome : smallRun.isSome = true := by decide +kernel

theorem exists_smallRun :
    ∃ w job answer, run (World.step smallSetup) (World.initial Dict.empty) smallLabels = some w ∧
      job ∈ w.jobs ∧ job.stage = .ended answer ∧ answer.code = 0 := by
  obtain ⟨r, hr⟩ := Option.isSome_iff_exists.1 smallRun_isSome
  obtain ⟨w, hw, hr⟩ := Option.bind_eq_some_iff.1 hr
  obtain ⟨job, hjob, hr⟩ := Option.bind_eq_some_iff.1 hr
  obtain ⟨answer, hanswer, hr⟩ := Option.bind_eq_some_iff.1 hr
  obtain ⟨hcode, -⟩ := Option.ite_none_right_eq_some.1 hr
  exact ⟨w, job, answer, hw, List.mem_of_getElem? hjob, Stage.answer_eq_some.1 hanswer, hcode⟩

theorem answers_alone_small :
    ∃ w job answer, run (World.step smallSetup) (World.initial Dict.empty) smallLabels = some w ∧
      job ∈ w.jobs ∧ ∃ course,
        settle job.rpc (smallSetup.alone job.rpc job.devices job.req course) = .ok answer := by
  obtain ⟨w, job, answer, hrun, hjob, hended, -⟩ := exists_smallRun
  exact ⟨w, job, answer, hrun, hjob, answers_alone (by decide) hrun hjob hended⟩

theorem answers_proved_small :
    ∃ w job answer, run (World.step smallSetup) (World.initial Dict.empty) smallLabels = some w ∧
      job ∈ w.jobs ∧ ∃ v output,
        smallSetup.validate job.rpc job.devices job.req = .next v ∧
        smallGenerate "" job.req.Input = some output ∧
        Proved smallSetup job.rpc v.circuitData output answer := by
  obtain ⟨w, job, answer, hrun, hjob, hended, hcode⟩ := exists_smallRun
  exact ⟨w, job, answer, hrun, hjob, answers_proved (by decide) hrun hjob hended hcode⟩

/-! ## The files of the circuits -/

section Circuits

variable {PK VK CS Secret Proof Rand : Type} {s : Setup PK VK CS Secret Proof Rand}
  {w w' : World (CircuitData PK VK CS)} {label : Label Rand}

/-- **Frame of the server**: a path that is no file of a request keeps its content. -/
theorem kept_apart {path : String} (hpath : EndsApart path) (hstep : w.step s label = some w') :
    w'.files.get? path = w.files.get? path := by
  cases effect_of_step hstep with
  | arrived rpc devices req => rfl
  | stopped => rfl
  | moved i job _ r hjob hmove =>
      obtain ⟨id, -, hframe⟩ := stepOf_frame hmove
      exact hframe.changes path (fun c => ⟨hpath.ne_jsonPath c id, hpath.ne_wtnsPath c id⟩)

theorem run_kept_apart {files : Dict String (List UInt8)} {labels : List (Label Rand)}
    (hrun : run (World.step s) (World.initial files) labels = some w) {path : String}
    (hpath : EndsApart path) : w.files.get? path = files.get? path :=
  run_invariant (fun v => v.files.get? path = files.get? path) (fun _ => True)
    (fun _ _ _ _ hsame hstep => (kept_apart hpath hstep).trans hsame) (fun _ _ => trivial) rfl
    hrun

/-- How the server is started: the entries of a directory on the disk, and the decoders
of the keys.  A directory of templates is listed alike on disks that differ in files of
requests only, which are in the directories of the circuits. -/
structure Loader (PK VK CS : Type) where
  ReadDir : Dict String (List UInt8) → String → Except String (List CircomR1CS.FileInfo)
  ReadDir_apart : ∀ files files' : Dict String (List UInt8),
    (∀ path, EndsApart path → files'.get? path = files.get? path) → ReadDir files' = ReadDir files
  provingKey : List UInt8 → Except String PK
  verifyingKey : List UInt8 → Except String VK
  compile : CircomR1CS.R1CSCircuit Unit → List Nat → Option CS × Option String
  buffer : List UInt8 → Slice UInt8

/-- The host of a start that finds that disk. -/
def Loader.host (loader : Loader PK VK CS) (files : Dict String (List UInt8)) :
    CircomR1CS.Host PK VK where
  ReadDir := loader.ReadDir files
  join := join
  provingKey path := (readFile none (files.get? path)).bind loader.provingKey
  verifyingKey path := (readFile none (files.get? path)).bind loader.verifyingKey
  ReadFile path := (readFile none (files.get? path)).map loader.buffer

/-- What a start of the server loads. -/
def Loader.load (loader : Loader PK VK CS) (files : Dict String (List UInt8))
    (templateDir : String) (g : CircomR1CS.Globals) :=
  CircomR1CS.loadAllCircuits loader.compile (loader.host files) templateDir g

theorem loadCircuit_eq (loader : Loader PK VK CS) {files files' : Dict String (List UInt8)}
    (h : ∀ path, EndsApart path → files'.get? path = files.get? path) (templateDir : String) :
    CircomR1CS.loadCircuit loader.compile (loader.host files') templateDir =
      CircomR1CS.loadCircuit loader.compile (loader.host files) templateDir := by
  funext state dir
  unfold CircomR1CS.loadCircuit CircomR1CS.Host.r1cs Loader.host
  dsimp only
  rw [h _ (endsApart_pk _), h _ (endsApart_vk _), h _ (endsApart_r1cs _)]

/-- **What the next start loads**: in every run of the server, whatever requests arrive
and however their writes fail, every later start loads the circuits that a start before
the run would have loaded, and the generators of all circuits are what they were. -/
theorem restart_loads {files : Dict String (List UInt8)} {labels : List (Label Rand)}
    (hrun : run (World.step s) (World.initial files) labels = some w)
    (loader : Loader PK VK CS) (templateDir : String) (g : CircomR1CS.Globals) :
    loader.load w.files templateDir g = loader.load files templateDir g ∧
      ∀ circuitPath, w.files.get? (join circuitPath GenerateWitnessFilename) =
        files.get? (join circuitPath GenerateWitnessFilename) := by
  have hsame : ∀ path, EndsApart path → w.files.get? path = files.get? path :=
    fun path hpath => run_kept_apart hrun hpath
  refine ⟨?_, fun circuitPath => hsame _ (endsApart_generator circuitPath)⟩
  unfold Loader.load CircomR1CS.loadAllCircuits
  rw [loadCircuit_eq loader hsame templateDir]
  unfold Loader.host
  rw [loader.ReadDir_apart files w.files hsame]

end Circuits

/-- A loader of a directory with one circuit, whose files are missing. -/
def smallLoader : Loader Unit Unit Unit where
  ReadDir _ _ := .ok [⟨"10001", true⟩]
  ReadDir_apart _ _ _ := rfl
  provingKey _ := .ok ()
  verifyingKey _ := .ok ()
  compile _ _ := (some (), none)
  buffer := Slice.ofList

theorem restart_loads_small :
    ∃ w, run (World.step smallSetup) (World.initial Dict.empty) smallLabels = some w ∧
      smallLoader.load w.files "template" CircomR1CS.freshGlobals =
        smallLoader.load Dict.empty "template" CircomR1CS.freshGlobals := by
  obtain ⟨w, -, -, hrun, -⟩ := exists_smallRun
  exact ⟨w, hrun, (restart_loads hrun smallLoader "template" CircomR1CS.freshGlobals).1⟩

end ProverNetwork.Ports.CircomRequests
