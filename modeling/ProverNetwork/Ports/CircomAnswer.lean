import ProverNetwork.Ports.CircomExport
import ProverNetwork.Ports.CircomProverGuards
import ProverNetwork.Ports.LoadAllCircuits
import ProverNetwork.Verified.FileStore

/-!
# A handler of the circom prover, from the request to the response

A handler that got through its checks saves the input, has the witness generator
of the circuit make a file of it, reads the wires from the file, and lets gnark
make the witness and the proof.  The copies of the handler differ in their codes
and in one message, and two of them make the public witness before the proof.

`alone` is a handler with the disk to itself: what it answers depends on the
request, and on what the disk and chance do to it.

The generator and gnark are parameters.

## Main results

* `jsonPath_inj`, `wtnsPath_inj` — requests with two ids have different files.
* `endsApart_pk`, `endsApart_r1cs` — the files of a circuit are none of these.
* `alone_generated` — from the generator on, all is in the file that it has made.
* `alone_proved` — an answer without an error code has a proof for the input.
-/

namespace ProverNetwork.Ports.CircomRequests

open ProverNetwork.Verified
open ProverNetwork.Verified.FileStore
open ProverNetwork.Ports.ProveService
open ProverNetwork.Ports.CircomProver
open ProverNetwork.Ports.CircomExport
open ProverNetwork.Ports.CircomR1CS (CircuitData parseWtns)

def STATUS_CODE_TO_WITNESS_ERROR : Int := 100005
def STATUS_CODE_TO_SECRET_WITNESS_ERROR : Int := 100006
def STATUS_CODE_GENERATE_PROOF_ERROR : Int := 100008

def InputFolderPath : String := "input"
def WtnsFolderPath : String := "wtns"
def GenerateWitnessFilename : String := "generate_witness"

/-! ## The files of a request -/

/-- What `uuid.New().String()` returns. -/
structure UUID where
  text : String
  length_eq : text.length = 36
  deriving DecidableEq

/-- `GenerateUniqueFilename`. -/
def generateUniqueFilename (base ext id : String) : String := base ++ "_" ++ id ++ "." ++ ext

def jsonPath (circuitPath : String) (id : UUID) : String :=
  join (join circuitPath InputFolderPath) (generateUniqueFilename "input" "json" id.text)

def wtnsPath (circuitPath : String) (id : UUID) : String :=
  join (join circuitPath WtnsFolderPath) (generateUniqueFilename "output" "wtns" id.text)

/-- A path that ends in the id and an extension. -/
theorem path_eq (dir base ext id : String) :
    join dir (generateUniqueFilename base ext id) =
      dir ++ "/" ++ base ++ "_" ++ (id ++ ("." ++ ext)) := by
  simp only [join, generateUniqueFilename, String.append_assoc]

theorem path_inj {dir dir' base ext : String} {id id' : UUID}
    (h : join dir (generateUniqueFilename base ext id.text) =
      join dir' (generateUniqueFilename base ext id'.text)) : id = id' := by
  rw [path_eq, path_eq] at h
  have hlength : (id.text ++ ("." ++ ext)).length = (id'.text ++ ("." ++ ext)).length := by
    rw [String.length_append, String.length_append id'.text, id.length_eq, id'.length_eq]
  have htexts := (append_eq_append hlength h).2
  have hsame : id.text = id'.text := (append_eq_append rfl htexts).1
  cases id
  cases id'
  cases hsame
  rfl

/-- **Requests with two ids have different files.** -/
theorem jsonPath_inj {c c' : String} {id id' : UUID} (h : jsonPath c id = jsonPath c' id') :
    id = id' := path_inj h

theorem wtnsPath_inj {c c' : String} {id id' : UUID} (h : wtnsPath c id = wtnsPath c' id') :
    id = id' := path_inj h

/-- The path is no file of a request, by its last letters. -/
def EndsApart (path : String) : Prop :=
  ∃ start ending : String, path = start ++ ending ∧ ending.length = 4 ∧ ending ≠ "json" ∧
    ending ≠ "wtns"

theorem jsonPath_eq (c : String) (id : UUID) : ∃ start, jsonPath c id = start ++ "json" := by
  refine ⟨join c InputFolderPath ++ "/" ++ "input" ++ "_" ++ id.text ++ ".", ?_⟩
  rw [jsonPath, path_eq]
  simp only [String.append_assoc]

theorem wtnsPath_eq (c : String) (id : UUID) : ∃ start, wtnsPath c id = start ++ "wtns" := by
  refine ⟨join c WtnsFolderPath ++ "/" ++ "output" ++ "_" ++ id.text ++ ".", ?_⟩
  rw [wtnsPath, path_eq]
  simp only [String.append_assoc]

theorem jsonPath_ne_wtnsPath (c c' : String) (id id' : UUID) :
    jsonPath c id ≠ wtnsPath c' id' := by
  obtain ⟨start, hjson⟩ := jsonPath_eq c id
  obtain ⟨start', hwtns⟩ := wtnsPath_eq c' id'
  rw [hjson, hwtns]
  exact append_ne_append start start' (by decide) (by decide)

theorem EndsApart.ne_jsonPath {path : String} (h : EndsApart path) (c : String) (id : UUID) :
    path ≠ jsonPath c id := by
  obtain ⟨start, ending, rfl, hlength, hjson, -⟩ := h
  obtain ⟨start', hpath⟩ := jsonPath_eq c id
  rw [hpath]
  exact append_ne_append start start' hlength hjson

theorem EndsApart.ne_wtnsPath {path : String} (h : EndsApart path) (c : String) (id : UUID) :
    path ≠ wtnsPath c id := by
  obtain ⟨start, ending, rfl, hlength, -, hwtns⟩ := h
  obtain ⟨start', hpath⟩ := wtnsPath_eq c id
  rw [hpath]
  exact append_ne_append start start' hlength hwtns

theorem endsApart_join (dir : String) {file start ending : String} (hfile : file = start ++ ending)
    (hlength : ending.length = 4) (hjson : ending ≠ "json") (hwtns : ending ≠ "wtns") :
    EndsApart (join dir file) := by
  refine ⟨dir ++ "/" ++ start, ending, ?_, hlength, hjson, hwtns⟩
  rw [hfile]
  simp only [join, String.append_assoc]

/-- **The files of a circuit are no files of a request.** -/
theorem endsApart_pk (dir : String) : EndsApart (join dir CircomR1CS.PkFileName) :=
  endsApart_join dir (show _ = "pk" ++ ".key" by decide) (by decide) (by decide) (by decide)

theorem endsApart_vk (dir : String) : EndsApart (join dir CircomR1CS.VkFileName) :=
  endsApart_join dir (show _ = "vk" ++ ".key" by decide) (by decide) (by decide) (by decide)

theorem endsApart_r1cs (dir : String) : EndsApart (join dir CircomR1CS.R1csFileName) :=
  endsApart_join dir (show _ = "circuit." ++ "r1cs" by decide) (by decide) (by decide) (by decide)

theorem endsApart_generator (dir : String) : EndsApart (join dir GenerateWitnessFilename) :=
  endsApart_join dir (show _ = "generate_wit" ++ "ness" by decide) (by decide) (by decide)
    (by decide)

/-! ## The second half of the handlers -/

/-- What the copies of the handler answer from the generator on. -/
structure WitnessCodes where
  toWitness : Int
  toSecretWitness : Int
  secretWitnessMsg : String
  generateProof : Int
  /-- the public witness is made before the proof -/
  exportsPublic : Bool

def proveV2Witness : WitnessCodes where
  toWitness := STATUS_CODE_TO_WITNESS_ERROR
  toSecretWitness := STATUS_CODE_TO_SECRET_WITNESS_ERROR
  secretWitnessMsg := "Error secretWitness"
  generateProof := STATUS_CODE_GENERATE_PROOF_ERROR
  exportsPublic := true

def proveNosha256Witness : WitnessCodes where
  toWitness := STATUS_CODE_TO_WITNESS_ERROR
  toSecretWitness := STATUS_CODE_TO_SECRET_WITNESS_ERROR
  secretWitnessMsg := "Error secretWitness"
  generateProof := STATUS_CODE_GENERATE_PROOF_ERROR
  exportsPublic := true

def proveNosha256OffchainWitness : WitnessCodes where
  toWitness := STATUS_CODE_TO_WITNESS_ERROR
  toSecretWitness := STATUS_CODE_TO_SECRET_WITNESS_ERROR
  secretWitnessMsg := "Error secretWitness"
  generateProof := STATUS_CODE_GENERATE_PROOF_ERROR
  exportsPublic := false

def proveNosha256WithWitnessWitness : WitnessCodes where
  toWitness := -1
  toSecretWitness := -1
  secretWitnessMsg := "Error New Witness"
  generateProof := -1
  exportsPublic := false

def witnessCodes : Rpc → WitnessCodes
  | .ProveV2 => proveV2Witness
  | .ProveNosha256 => proveNosha256Witness
  | .ProveNosha256Offchain => proveNosha256OffchainWitness
  | .ProveNosha256WithWitness => proveNosha256WithWitnessWitness

/-- A response of one of the handlers. -/
inductive Answer
  | v2 (response : ProveResponseV2)
  | nosha256 (response : ProveResponse)
  | offchain (response : ProveNosha256OffchainResponse)
  | withWitness (response : ProveNosha256WithWitnessResponse)

/-- A response without a proof. -/
def failed (r : Response) : Rpc → Answer
  | .ProveV2 => .v2 ⟨r.Code, r.Msg, "", "", [], "", []⟩
  | .ProveNosha256 => .nosha256 ⟨r.Code, r.Msg, ""⟩
  | .ProveNosha256Offchain => .offchain ⟨r.Code, r.Msg, "", []⟩
  | .ProveNosha256WithWitness => .withWitness ⟨r.Code, r.Msg, "", ""⟩

/-- How the sequence of a handler ends: with an answer, or with the process. -/
def settle (rpc : Rpc) : Reply Response Answer → Go Answer
  | .next answer => .ok answer
  | .respond r => .ok (failed r rpc)
  | .halt e => .error e

/-- What the prover runs on: the host of the checks, the circuits that were loaded, the
generators by their paths, `ioutil.ReadFile` as it stores what it read, and gnark, with
the randomness of a proof. -/
structure Setup (PK VK CS Secret Proof Rand : Type) where
  host : CircomProver.Host
  circuits : Dict String (CircuitData PK VK CS)
  /-- the file that the generator makes of an input -/
  generate : String → List UInt8 → Option (List UInt8)
  buffer : List UInt8 → Slice UInt8
  newWitness : List Nat → List (Option Nat) → Except String Secret
  prove : Option CS → PK → Secret → Rand → Except String (Proofs Proof)
  gnark : Gnark Proof

section Handler

variable {PK VK CS Secret Proof Rand : Type} (s : Setup PK VK CS Secret Proof Rand)

/-- The host of the checks while the devices have some tasks. -/
def Setup.hostWith (devices : List Int) : CircomProver.Host := { s.host with devices := devices }

/-- The checks, up to the comparison of the hash. -/
def Setup.validate (rpc : Rpc) (devices : List Int) (req : ProveNosha256Request) :
    Reply Response (Validated (CircuitData PK VK CS)) :=
  CircomProver.validate rpc.codes (s.hostWith devices) s.circuits req

def notSaved (rpc : Rpc) : Response :=
  ⟨rpc.codes.notSaved, "Execution failed: could not save input as JSON"⟩

def notGenerated (rpc : Rpc) : Response :=
  ⟨(witnessCodes rpc).toWitness, "Execution failed: could not generate witness"⟩

/-- A proof, as the response of the handler. -/
def Setup.response (proofs : Proofs Proof) (witnessPublic : List (Option Nat)) :
    Rpc → Go Answer
  | .ProveV2 => (proveV2Response s.gnark proofs witnessPublic).map .v2
  | .ProveNosha256 => (proveNosha256Response s.gnark proofs witnessPublic).map .nosha256
  | .ProveNosha256Offchain => .ok (.offchain (proveNosha256OffchainResponse proofs witnessPublic))
  | .ProveNosha256WithWitness =>
      .ok (.withWitness (proveNosha256WithWitnessResponse proofs witnessPublic))

/-- A handler from `ParseWtns` on. -/
def Setup.conclude (rpc : Rpc) (circuit : CircuitData PK VK CS)
    (file : Except String (List UInt8)) (rand : Rand) : Reply Response Answer := do
  let codes := witnessCodes rpc
  let parsed ← .ofGo (parseWtns (file.map s.buffer) circuit.NumOutput circuit.NumInPublic)
  let w ← .ofExcept ⟨codes.toWitness, "Error Parse wtns"⟩ parsed
  let secretWitness ← .ofExcept ⟨codes.toSecretWitness, codes.secretWitnessMsg⟩
    (s.newWitness w.1 w.2)
  .require ⟨STATUS_CODE_TO_PUBLIC_WITNESS_ERROR, "Error Public Witness"⟩
    (codes.exportsPublic = true → (s.gnark.newPublicWitness w.2).isOk = true)
  let proofs ← .ofExcept ⟨codes.generateProof, "Error Prove"⟩
    (s.prove circuit.Ccs circuit.Pk secretWitness rand)
  .ofGo (s.response proofs w.2 rpc)

/-- What the disk and chance do to a request: whether its input is saved and its
generator gets through, the error of reading the file of wires, and the randomness of
the proof. -/
structure Course (Rand : Type) where
  saves : Bool
  generates : Bool
  readError : Option String
  rand : Rand

/-- What `ioutil.ReadFile` returns of a file with that content. -/
def readFile (readError : Option String) (content : Option (List UInt8)) :
    Except String (List UInt8) :=
  match readError, content with
  | some err, _ => .error err
  | none, some bytes => .ok bytes
  | none, none => .error "no such file or directory"

/-- A handler that has the disk to itself. -/
def Setup.alone (rpc : Rpc) (devices : List Int) (req : ProveNosha256Request)
    (course : Course Rand) : Reply Response Answer := do
  let validated ← s.validate rpc devices req
  .require (notSaved rpc) (course.saves = true)
  let output ← .ofOption (notGenerated rpc)
    (if course.generates then
      s.generate (join validated.circuitData.CircuitPath GenerateWitnessFilename) req.Input
    else none)
  s.conclude rpc validated.circuitData (readFile course.readError (some output)) course.rand

end Handler

/-! ## The courses of a request -/

section Alone

variable {PK VK CS Secret Proof Rand : Type} {s : Setup PK VK CS Secret Proof Rand}
  {rpc : Rpc} {devices : List Int} {req : ProveNosha256Request}

theorem alone_refused {r : Response} (h : s.validate rpc devices req = .respond r)
    (course : Course Rand) : settle rpc (s.alone rpc devices req course) = .ok (failed r rpc) := by
  rw [Setup.alone, h]
  rfl

variable {v : Validated (CircuitData PK VK CS)}

theorem alone_notSaved (h : s.validate rpc devices req = .next v) {course : Course Rand}
    (hsaves : course.saves = false) :
    settle rpc (s.alone rpc devices req course) = .ok (failed (notSaved rpc) rpc) := by
  rw [Setup.alone, h, hsaves]
  rfl

theorem alone_notGenerated (h : s.validate rpc devices req = .next v) {course : Course Rand}
    (hsaves : course.saves = true) (hgenerates : course.generates = false) :
    settle rpc (s.alone rpc devices req course) = .ok (failed (notGenerated rpc) rpc) := by
  rw [Setup.alone, h, hsaves, hgenerates]
  rfl

/-- From the generator on, all is in the file that it has made. -/
theorem alone_generated (h : s.validate rpc devices req = .next v) {course : Course Rand}
    (hsaves : course.saves = true) (hgenerates : course.generates = true) {output : List UInt8}
    (houtput : s.generate (join v.circuitData.CircuitPath GenerateWitnessFilename) req.Input =
      some output) :
    s.alone rpc devices req course =
      s.conclude rpc v.circuitData (readFile course.readError (some output)) course.rand := by
  rw [Setup.alone, h, hsaves, hgenerates, Reply.next_bind, if_pos rfl, houtput]
  rfl

end Alone

/-! ## Answers with a proof -/

def Answer.code : Answer → Int
  | .v2 r => r.code
  | .nosha256 r => r.code
  | .offchain r => r.code
  | .withWitness r => r.code

@[simp] theorem code_failed (r : Response) (rpc : Rpc) : (failed r rpc).code = r.Code := by
  cases rpc <;> rfl

structure WitnessCodes.Failing (codes : WitnessCodes) : Prop where
  toWitness : codes.toWitness ≠ 0
  toSecretWitness : codes.toSecretWitness ≠ 0
  generateProof : codes.generateProof ≠ 0

theorem witnessCodes_failing (rpc : Rpc) : (witnessCodes rpc).Failing := by
  cases rpc <;> constructor <;> decide

section Proved

variable {PK VK CS Secret Proof Rand : Type} (s : Setup PK VK CS Secret Proof Rand)

theorem checkIssuer_refuses {codes : Codes} (hf : codes.Failing) (host : CircomProver.Host)
    (segments : List (List String)) :
    (checkIssuer codes host segments).Refuses (fun r => r.Code ≠ 0) := by
  simp [checkIssuer, hf.invalidInput, hf.jsonFormat]

theorem guardIssuer_refuses {codes : Codes} (hf : codes.Failing) (host : CircomProver.Host)
    (circuitId : String) (segments : List (List String)) :
    (guardIssuer codes host circuitId segments).Refuses (fun r => r.Code ≠ 0) := by
  unfold guardIssuer
  split
  · exact checkIssuer_refuses hf host segments
  · exact Reply.refuses_next ()

theorem checkDevice_refuses {codes : Codes} (hf : codes.Failing) (host : CircomProver.Host) :
    (checkDevice codes host).Refuses (fun r => r.Code ≠ 0) := by
  intro r hr
  have hends := checkDevice_ends hf host
  rw [Answers, hr, Reply.ends_respond] at hends
  exact hends

/-- The checks refuse with the code of a failure. -/
theorem validate_refuses (rpc : Rpc) (devices : List Int) (req : ProveNosha256Request) :
    (s.validate rpc devices req).Refuses (fun r => r.Code ≠ 0) := by
  have hf := failing rpc
  simp [Setup.validate, CircomProver.validate, checkDevice_refuses hf, guardIssuer_refuses hf,
    hf.circuitNotFound, hf.jsonFormat, hf.invalidInput, hf.sha256NotMatch]

theorem conclude_refuses (rpc : Rpc) (circuit : CircuitData PK VK CS)
    (file : Except String (List UInt8)) (rand : Rand) :
    (s.conclude rpc circuit file rand).Refuses (fun r => r.Code ≠ 0) := by
  have hf := witnessCodes_failing rpc
  simp [Setup.conclude, hf.toWitness, hf.toSecretWitness, hf.generateProof,
    STATUS_CODE_TO_PUBLIC_WITNESS_ERROR]

theorem alone_refuses (rpc : Rpc) (devices : List Int) (req : ProveNosha256Request)
    (course : Course Rand) :
    (s.alone rpc devices req course).Refuses (fun r => r.Code ≠ 0) := by
  have hsaved : (notSaved rpc).Code ≠ 0 := (failing rpc).notSaved
  have hgenerated : (notGenerated rpc).Code ≠ 0 := (witnessCodes_failing rpc).toWitness
  simp [Setup.alone, validate_refuses, conclude_refuses, hsaved, hgenerated]

/-- The answer is made of a proof for the wires in the file. -/
def Proved (rpc : Rpc) (circuit : CircuitData PK VK CS) (output : List UInt8) (answer : Answer) :
    Prop :=
  ∃ witness witnessPublic secretWitness rand proofs,
    parseWtns (.ok (s.buffer output)) circuit.NumOutput circuit.NumInPublic =
      .ok (.ok (witness, witnessPublic)) ∧
    s.newWitness witness witnessPublic = .ok secretWitness ∧
    s.prove circuit.Ccs circuit.Pk secretWitness rand = .ok proofs ∧
    s.response proofs witnessPublic rpc = .ok answer

variable {s}

theorem eq_next_of_settle {rpc : Rpc} {x : Reply Response Answer} {answer : Answer}
    (hrefuses : x.Refuses (fun r => r.Code ≠ 0)) (h : settle rpc x = .ok answer)
    (hcode : answer.code = 0) : x = .next answer := by
  cases x with
  | next a => exact congrArg Reply.next (Except.ok.inj h)
  | respond r =>
      cases h
      exact absurd ((code_failed r rpc).symm.trans hcode) (hrefuses r rfl)
  | halt e => cases h

theorem conclude_proved {rpc : Rpc} {circuit : CircuitData PK VK CS}
    {readError : Option String} {output : List UInt8} {rand : Rand} {answer : Answer}
    (h : s.conclude rpc circuit (readFile readError (some output)) rand = .next answer) :
    Proved s rpc circuit output answer := by
  simp only [Setup.conclude, Reply.bind_eq_next, Reply.ofGo_eq_next, Reply.ofExcept_eq_next,
    Reply.require_eq_next] at h
  obtain ⟨parsed, hparsed, w, hw, secretWitness, hsecret, -, -, proofs, hproofs, hanswer⟩ := h
  cases readError with
  | some err =>
      cases hparsed
      cases hw
  | none =>
      rw [hw] at hparsed
      exact ⟨w.1, w.2, secretWitness, rand, proofs, hparsed, hsecret, hproofs, hanswer⟩

/-- **An answer without an error code** is made of a proof for the wires that the
generator makes of the input. -/
theorem alone_proved {rpc : Rpc} {devices : List Int} {req : ProveNosha256Request}
    {course : Course Rand} {answer : Answer}
    (h : settle rpc (s.alone rpc devices req course) = .ok answer) (hcode : answer.code = 0) :
    ∃ v output, s.validate rpc devices req = .next v ∧
      s.generate (join v.circuitData.CircuitPath GenerateWitnessFilename) req.Input =
        some output ∧
      Proved s rpc v.circuitData output answer := by
  have hnext := eq_next_of_settle (alone_refuses s rpc devices req course) h hcode
  simp only [Setup.alone, Reply.bind_eq_next, Reply.ofOption_eq_next,
    Reply.require_eq_next] at hnext
  obtain ⟨v, hvalidate, -, -, output, houtput, hconclude⟩ := hnext
  have hgenerated : s.generate (join v.circuitData.CircuitPath GenerateWitnessFilename) req.Input =
      some output := by
    split at houtput
    · exact houtput
    · cases houtput
  exact ⟨v, output, hvalidate, hgenerated, conclude_proved hconclude⟩

end Proved

end ProverNetwork.Ports.CircomRequests
