import ProverNetwork.Ports.GnarkProver
import ProverNetwork.Verified.GoSlice

/-!
# When the gnark prover answers

Every failing step of a handler is an error response, up to two kinds of exit:
the Merkle handler calls `log.Fatal` on an input that does not decode or
convert, and the export of a proof panics on bytes of an unexpected layout.
gnark writes the layout the export expects, so only the first kind is left.

## Main results

* `runProveExportResult_returns_iff` — the layouts the export accepts.
* `answers_iff` — which requests are answered.
* `empty_object_exits` — `{}` ends the server.
-/

namespace ProverNetwork.Ports.GnarkProver

open ProverNetwork.Verified

/-! ## The layouts that can be exported -/

theorem readWords_returns_iff (bytes : List UInt8) (msg : String) (n offset : Nat) :
    Go.Returns (readWords bytes msg n offset) (fun _ => True) ↔
      n = 0 ∨ offset + 32 * n ≤ bytes.length := by
  induction n generalizing offset with
  | zero => simp [readWords]
  | succ n ih =>
      simp only [readWords, Go.returns_ite, Go.returns_bind, Go.returns_ok,
        Go.returns_error, and_false, false_or, ih]
      omega

theorem exportInputs_returns_iff (marshalBinary : Except String (List UInt8))
    (nbPublicInputs : Nat) :
    Go.Returns (exportInputs marshalBinary nbPublicInputs) (fun _ => True) ↔
      ∃ bytes, marshalBinary = .ok bytes ∧ bytes.length = 12 + 32 * nbPublicInputs := by
  cases marshalBinary with
  | error err => simp [exportInputs]
  | ok bytes =>
      simp only [exportInputs, Go.returns_ite, Go.returns_ok, Go.returns_error,
        and_false, false_or, and_true, List.length_drop, Except.ok.injEq,
        exists_eq_left']
      omega

/-- The two reads of a commitment section ask for 64 bytes each. -/
theorem exportCommitments_returns_iff (proofBytes : List UInt8) :
    Go.Returns (exportCommitments proofBytes) (fun _ => True) ↔
      proofBytes.length ≤ 256 ∨ 388 ≤ proofBytes.length := by
  simp only [exportCommitments, Go.returns_ite, Go.returns_bind, Go.returns_ok,
    Go.returns_error, and_false, and_true, false_or, readWords_returns_iff]
  rw [Go.returns_const, readWords_returns_iff]
  omega

theorem runProveExportResult_returns_iff (proofBytes : List UInt8)
    (marshalBinary : Except String (List UInt8)) (nbPublicInputs : Nat) :
    Go.Returns (runProveExportResult proofBytes marshalBinary nbPublicInputs)
        (fun _ => True) ↔
      (∃ bytes, marshalBinary = .ok bytes ∧ bytes.length = 12 + 32 * nbPublicInputs) ∧
        (proofBytes.length = 256 ∨ 388 ≤ proofBytes.length) := by
  have hRest : Go.Returns (exportCommitments proofBytes) (fun _ => True) ∧
      ¬proofBytes.length < 32 * 8 ↔
        proofBytes.length = 256 ∨ 388 ≤ proofBytes.length := by
    rw [exportCommitments_returns_iff]
    omega
  simp only [runProveExportResult, Go.returns_bind, Go.returns_ite, Go.returns_ok,
    Go.returns_error, and_false, false_or]
  rw [Go.returns_const, exportInputs_returns_iff, and_comm (a := ¬_), hRest]

/-! ## The tail of the handlers -/

section Handlers

variable {C Secret Public Proof R : Type}

/-- What gnark documents about the bytes it writes: `Public` splits every
witness, a binary witness is three 4-byte counters and the words of its vector,
and a Solidity proof is eight words, followed by the counted commitments and
their proof of knowledge where the circuit commits. -/
structure Gnark.Documented (gnark : Gnark C Secret Public Proof) : Prop where
  publicPart : ∀ secret, gnark.publicPart secret ≠ none
  marshalBinary : ∀ p, ∃ bytes, gnark.marshalBinary p = .ok bytes ∧
    bytes.length = 12 + 32 * gnark.vectorLength p
  marshalSolidity : ∀ proof, ∃ commitments, (gnark.marshalSolidity proof).length =
    if commitments = 0 then 256 else 256 + 4 + 64 * commitments + 64

variable (gnark : Gnark C Secret Public Proof)

/-- The response carries a proof of the assignment. -/
def Proved (build : Build) (circuitData : C) (assignment : Assignment)
    (response : ProveResponseV2) : Prop :=
  ∃ secret rawProof, gnark.newWitness assignment = .ok secret ∧
    gnark.prove build circuitData secret = .ok rawProof ∧
    gnark.marshalProof rawProof = .ok response.Proof ∧
    gnark.proofWriteTo rawProof = .ok response.ProofBytes

theorem export_returns (documented : gnark.Documented) (rawProof : Proof) (p : Public) :
    Go.Returns (runProveExportResult (gnark.marshalSolidity rawProof)
      (gnark.marshalBinary p) (gnark.vectorLength p)) (fun _ => True) := by
  rw [runProveExportResult_returns_iff]
  obtain ⟨commitments, hLength⟩ := documented.marshalSolidity rawProof
  refine ⟨documented.marshalBinary p, ?_⟩
  split at hLength <;> omega

theorem exportProof_returns (documented : gnark.Documented) (rawProof : Proof)
    (p : Public) :
    Go.Returns (exportProof gnark rawProof (some p)) (fun response =>
      response.Code = 0 → gnark.marshalProof rawProof = .ok response.Proof ∧
        gnark.proofWriteTo rawProof = .ok response.ProofBytes) := by
  obtain ⟨solidity, hSolidity, -⟩ := export_returns gnark documented rawProof p
  unfold exportProof
  cases hProof : gnark.marshalProof rawProof with
  | error err => simp [STATUS_CODE_GENERATE_PROOF_ERROR]
  | ok proof =>
      cases hVector : gnark.marshalVector p with
      | error err => simp [hVector, STATUS_CODE_GENERATE_PROOF_ERROR]
      | ok witnessJson =>
          cases hBytes : gnark.proofWriteTo rawProof with
          | error err => simp [hVector]
          | ok proofBytes =>
              simp only [hVector, hSolidity, Go.ok_bind]
              cases gnark.marshalStrings solidity with
              | error err => simp [STATUS_CODE_GENERATE_PROOF_ERROR]
              | ok proofSolidity =>
                  cases gnark.publicWriteTo p with
                  | error err => simp [STATUS_CODE_TO_PUBLIC_WITNESS_ERROR]
                  | ok publicWitnessBytes => simp

theorem proveAssignment_returns (documented : gnark.Documented) (build : Build)
    (circuitData : C) (assignment : Assignment) :
    Go.Returns (proveAssignment gnark build circuitData assignment) (fun response =>
      response.Code = 0 → Proved gnark build circuitData assignment response) := by
  unfold proveAssignment
  cases hSecret : gnark.newWitness assignment with
  | error err => simp [STATUS_CODE_TO_SECRET_WITNESS_ERROR]
  | ok secret =>
      cases hProve : gnark.prove build circuitData secret with
      | error err => simp [hProve, STATUS_CODE_GENERATE_PROOF_ERROR]
      | ok rawProof =>
          simp only [hProve]
          cases hPublic : gnark.publicPart secret with
          | none => exact absurd hPublic (documented.publicPart secret)
          | some p =>
              apply (exportProof_returns gnark documented rawProof p).mono
              intro response hProved hCode
              exact ⟨secret, rawProof, hSecret, hProve, hProved hCode⟩

/-! ## The handlers -/

inductive Handler
  | tiga
  | binance
  | merkle
  deriving DecidableEq

variable (inputs : Inputs R) (build : Build) (circuits : Dict String C)

def decode (handler : Handler) : String → Go (Except ProveResponseV2 Assignment) :=
  match handler with
  | .tiga => decodeTiga inputs
  | .binance => decodeBinance inputs build
  | .merkle => decodeMerkle inputs

def handle (handler : Handler) (req : ProveRequest) : Go ProveResponseV2 :=
  match handler with
  | .tiga => proveTigaOffchain gnark inputs build circuits req
  | .binance => proveBinanceOffchain gnark inputs build circuits req
  | .merkle => proveMerkleOffchain gnark inputs build circuits req

theorem handle_eq (handler : Handler) (req : ProveRequest) :
    handle gnark inputs build circuits handler req =
      proveOffchain gnark build circuits (decode inputs build handler) req := by
  cases handler <;> rfl

/-- The input decodes, and converts, to the assignment. -/
def DecodesTo (handler : Handler) (input : String) (assignment : Assignment) : Prop :=
  match handler with
  | .tiga => ∃ jsonData, inputs.decodeObject input = .ok jsonData ∧
      assignment = .tiga (tigaAssignment (toStringMap inputs.printFloat jsonData))
  | .binance => ∃ data, inputs.load = .ok data ∧
      assignment = .zbFr (binanceAssignment inputs.ops build input data)
  | .merkle => ∃ raw circuit, inputs.unmarshalRaw input = .ok raw ∧
      convert raw = .ok circuit ∧ assignment = .fancaster circuit

def Decodes (handler : Handler) (input : String) : Prop :=
  ∃ assignment, DecodesTo inputs build handler input assignment

/-- What every request is owed: a response, whose code is 0 only with a proof
in it and not 0 where the input does not decode and convert. -/
def Answers (handler : Handler) (req : ProveRequest) : Prop :=
  Go.Returns (handle gnark inputs build circuits handler req) (fun response =>
    (response.Code = 0 → ∃ circuitData assignment,
      circuits.get? req.temp = some circuitData ∧
      DecodesTo inputs build handler req.input assignment ∧
      Proved gnark build circuitData assignment response) ∧
    (¬Decodes inputs build handler req.input → response.Code ≠ 0))

/-- **The three exits of decoding**: an assignment, an error response, and the
Merkle handler's `log.Fatal`. -/
theorem decode_cases (handler : Handler) (input : String) :
    (∃ assignment, decode inputs build handler input = .ok (.ok assignment) ∧
      DecodesTo inputs build handler input assignment) ∨
    (∃ response, decode inputs build handler input = .ok (.error response) ∧
      response.Code ≠ 0 ∧ handler ≠ .merkle) ∨
    ((∃ msg, decode inputs build handler input = .error (.exited msg)) ∧
      handler = .merkle ∧ ¬Decodes inputs build handler input) := by
  cases handler with
  | tiga =>
      cases h : inputs.decodeObject input with
      | error err => simp [decode, decodeTiga, h, STATUS_CODE_JSON_FROMAT_ERROR]
      | ok jsonData => simp [decode, decodeTiga, h, DecodesTo]
  | binance =>
      cases h : inputs.load with
      | error err => simp [decode, decodeBinance, h, STATUS_CODE_JSON_FROMAT_ERROR]
      | ok data => simp [decode, decodeBinance, h, DecodesTo]
  | merkle =>
      cases h : inputs.unmarshalRaw input with
      | error err => simp [decode, decodeMerkle, h, Decodes, DecodesTo]
      | ok raw =>
          cases hc : convert raw with
          | error err => simp [decode, decodeMerkle, h, hc, Decodes, DecodesTo]
          | ok circuit => simp [decode, decodeMerkle, h, hc, DecodesTo]

/-- **A request is answered unless the Merkle handler exits**, which it does on
every input that it reads, for a loaded circuit, and cannot decode. -/
theorem answers_iff (documented : gnark.Documented) (handler : Handler)
    (req : ProveRequest) :
    Answers gnark inputs build circuits handler req ↔
      ¬(handler = .merkle ∧ (circuits.get? req.temp).isSome ∧
        1 < req.input.utf8ByteSize ∧ ¬Decodes inputs build .merkle req.input) := by
  unfold Answers
  rw [handle_eq, proveOffchain]
  cases hCircuit : circuits.get? req.temp with
  | none => simp [STATUS_CODE_UNSUPPORT_CIRCUIT]
  | some circuitData =>
      by_cases hInput : 1 < req.input.utf8ByteSize
      case neg => simp [hInput]
      simp only [hInput, if_true]
      obtain ⟨assignment, hDecode, hTo⟩ | ⟨response, hDecode, hCode, hNe⟩ |
        ⟨⟨msg, hDecode⟩, rfl, hNot⟩ := decode_cases inputs build handler req.input
      · have hDecodes : Decodes inputs build handler req.input := ⟨assignment, hTo⟩
        have hProve := proveAssignment_returns gnark documented build circuitData assignment
        rw [hDecode, Go.ok_bind]
        constructor
        · intro _ hExits
          exact hExits.2.2.2 (hExits.1 ▸ hDecodes)
        · intro _
          apply hProve.mono
          intro response hProved
          exact ⟨fun hCode => ⟨circuitData, assignment, rfl, hTo, hProved hCode⟩,
            fun hNot => absurd hDecodes hNot⟩
      · simp [hDecode, hCode, hNe]
      · simp [hDecode, hNot]

end Handlers

/-! ## The empty object -/

def emptyObjectInputs : Inputs Rat where
  decodeObject input := if input = "\x7b\x7d" then .ok [] else .error "unexpected end of JSON input"
  printFloat _ := ""
  unmarshalRaw input :=
    if input = "\x7b\x7d" then .ok emptyRaw else .error "unexpected end of JSON input"
  load := .error "no such file or directory"
  ops := ⟨fun n => n, (· + ·), (· * ·), fun v => 0 < v, truncate⟩

/-- gnark on assignments with variables that are not numbers. -/
def unsetGnark : Gnark Unit Unit Unit Unit where
  newWitness _ := .error "can't set fr.Element"
  publicPart := some
  prove _ _ _ := .error "constraint is not satisfied"
  marshalProof _ := .ok ""
  marshalVector _ := .ok ""
  proofWriteTo _ := .ok []
  marshalSolidity _ := List.replicate 256 0
  marshalBinary _ := .ok (List.replicate 12 0)
  vectorLength _ := 0
  marshalStrings _ := .ok ""
  publicWriteTo _ := .ok []

theorem unsetGnark_documented : unsetGnark.Documented where
  publicPart := fun secret => Option.some_ne_none secret
  marshalBinary := fun _ => ⟨List.replicate 12 0, rfl, List.length_replicate⟩
  marshalSolidity := fun _ => ⟨0, List.length_replicate⟩

/-- The Tiga handler answers `{}`, with the error of the witness. -/
theorem answers_iff_empty_object :
    Answers unsetGnark emptyObjectInputs .cpu (Dict.empty.set "10006" ()) .tiga
      ⟨"\x7b\x7d", "10006"⟩ :=
  (answers_iff unsetGnark emptyObjectInputs .cpu (Dict.empty.set "10006" ())
    unsetGnark_documented .tiga ⟨"\x7b\x7d", "10006"⟩).mpr (by simp)

/-- **`{}` ends the server**: the limbs of the message are missing, and the
Merkle handler of either build exits. -/
theorem empty_object_exits :
    (∀ build, handle unsetGnark emptyObjectInputs build (Dict.empty.set "10010" ()) .merkle
      ⟨"\x7b\x7d", "10010"⟩ = .error (.exited "convert error:expected 4 limbs for Fr")) ∧
    ∀ build, ¬Answers unsetGnark emptyObjectInputs build (Dict.empty.set "10010" ()) .merkle
      ⟨"\x7b\x7d", "10010"⟩ := by
  have hExits : ∀ build, handle unsetGnark emptyObjectInputs build
      (Dict.empty.set "10010" ()) .merkle ⟨"\x7b\x7d", "10010"⟩ =
        .error (.exited "convert error:expected 4 limbs for Fr") := by
    intro build
    have hInput : 1 < "\x7b\x7d".utf8ByteSize := by decide
    rw [handle_eq]
    simp only [proveOffchain, Dict.get?_set_self, hInput, if_true]
    rfl
  refine ⟨hExits, ?_⟩
  intro build
  rw [Answers, hExits build]
  exact Go.returns_error _

end ProverNetwork.Ports.GnarkProver
