import ProverNetwork.Verified.Bn254
import ProverNetwork.Verified.Dict
import ProverNetwork.Verified.GoValue
import ProverNetwork.Verified.LittleEndian
import ProverNetwork.Verified.Strconv

/-!
# The handlers of the gnark prover

`proveTigaOffchain`, `proveBinanceOffchain` and `proveMerkleOffchain` look up
the circuit, build an assignment from the request and run one common tail:
witness, proof, export.  The builds for CPU and GPU differ in the backend they
call and in how the Binance handler adds up positions.

gnark itself, the JSON decoders and the data file are parameters.  A handler
is a `Go` computation: `log.Fatal` and an unrecovered panic end the server.
-/

namespace ProverNetwork.Ports.GnarkProver

open ProverNetwork.Verified

def SatoshiMultiplier : Nat := 100000000
def MaxLeverage : Int := 3
def MaxDelta : Int := 5
def BinanceProjectID : Int := 10005
def MerklePathLength : Nat := 14

def STATUS_CODE_UNSUPPORT_CIRCUIT : Int := 100000
def STATUS_CODE_JSON_FROMAT_ERROR : Int := 100003
def STATUS_CODE_TO_SECRET_WITNESS_ERROR : Int := 100006
def STATUS_CODE_TO_PUBLIC_WITNESS_ERROR : Int := 100007
def STATUS_CODE_GENERATE_PROOF_ERROR : Int := 100008

inductive Build
  | cpu
  | gpu
  deriving DecidableEq

structure ProveRequest where
  input : String
  temp : String

structure ProveResponseV2 where
  Code : Int
  Msg : String
  Proof : String := ""
  ProofSolidity : String := ""
  ProofBytes : List UInt8 := []
  PublicWitness : String := ""
  PublicWitnessBytes : List UInt8 := []
  deriving DecidableEq

/-! ## Assignments -/

/-- What a handler stores in a `frontend.Variable`. -/
inductive Variable
  | str (s : String)
  | int (n : Int)
  | uint64 (n : Nat)
  | bigInt (n : Int)
  /-- the receiver of a failed `SetString`, or an `int64` of a number out of its range; the
  value of neither is defined -/
  | badBigInt
  /-- a nil `*big.Int` behind an interface -/
  | nilBigInt
  | other (v : GoValue)

structure TigaCircuit where
  PreTimestamp : Variable
  CurrentTimestamp : Variable
  NowTime : Variable
  PreHeight : Variable
  CurrentHeight : Variable
  ParentHash : Variable
  PrevHash : Variable
  MixHash : Variable
  UncleHash : Variable
  GasLimit : Variable
  GasUsed : Variable
  Nonce : Variable
  Difficulty : Variable
  ProjectId : Variable

structure ZbFrCircuit where
  Leverage : Variable
  DeltaSpot : Variable
  DeltaPerpLong : Variable
  DeltaPerpShort : Variable
  LeverageUpper : Variable
  DeltaUpper : Variable
  ProjectId : Variable

/-- The limbs of an emulated field element. -/
structure Element where
  Limbs : List Variable

structure FancasterAnonymousCircuit where
  Message : Element
  V : Variable
  R : Element
  S : Element
  ExpectedX : Element
  ExpectedY : Element
  RootHash : Variable
  Index : Variable
  Path : List Variable
  ProjectId : Variable

inductive Assignment
  | tiga (c : TigaCircuit)
  | zbFr (c : ZbFrCircuit)
  | fancaster (c : FancasterAnonymousCircuit)

/-! ## Tiga -/

mutual

/-- `fmt.Sprintf("%v", v)`; `float` prints a `float64`. -/
def sprintV (float : Rat → String) : GoValue → String
  | .null => "<nil>"
  | .bool b => if b then "true" else "false"
  | .float v => float v
  | .number text => text
  | .str s => s
  | .slice items => "[" ++ " ".intercalate (sprintItems float items) ++ "]"
  | .map entries =>
      let printed := sprintEntries float entries
      let sorted := printed.mergeSort (fun a b => decide (a.1 ≤ b.1))
      "map[" ++ " ".intercalate (sorted.map (fun e => e.1 ++ ":" ++ e.2)) ++ "]"

def sprintItems (float : Rat → String) : List GoValue → List String
  | [] => []
  | v :: items => sprintV float v :: sprintItems float items

def sprintEntries (float : Rat → String) : List (String × GoValue) → List (String × String)
  | [] => []
  | (k, v) :: entries => (k, sprintV float v) :: sprintEntries float entries

end

/-- `toStringMap`. -/
def toStringMap (float : Rat → String) (data : List (String × GoValue)) :
    List (String × String) :=
  data.map (fun e =>
    match e.2 with
    | .number text => (e.1, text)
    | .str s => (e.1, s)
    | v => (e.1, sprintV float v))

/-- `stringData[k]`, the empty string where there is no such key. -/
def stringAt (stringData : List (String × String)) (k : String) : Variable :=
  .str ((stringData.lookup k).getD "")

def tigaAssignment (stringData : List (String × String)) : TigaCircuit where
  PreHeight := stringAt stringData "PreHeight"
  CurrentHeight := stringAt stringData "CurrentHeight"
  PreTimestamp := stringAt stringData "PreTimestamp"
  CurrentTimestamp := stringAt stringData "CurrentTimestamp"
  NowTime := stringAt stringData "NowTime"
  ParentHash := stringAt stringData "ParentHash"
  PrevHash := stringAt stringData "PrevHash"
  UncleHash := stringAt stringData "UncleHash"
  MixHash := stringAt stringData "MixHash"
  GasLimit := stringAt stringData "GasLimit"
  GasUsed := stringAt stringData "GasUsed"
  Nonce := stringAt stringData "nonce"
  Difficulty := stringAt stringData "difficulty"
  ProjectId := stringAt stringData "ProjectId"

/-! ## Binance -/

/-- `float64` arithmetic, as far as the handler uses it. -/
structure Float64 (R : Type) where
  ofNat : Nat → R
  add : R → R → R
  mul : R → R → R
  pos : R → Bool
  toInt64 : R → Int

structure FuturesCoinPosition (R : Type) where
  Symbol : String
  NotionalValue : R
  Leverage : String

structure FuturesCoinAsset (R : Type) where
  Symbol : String
  WalletBalance : R
  MarginBalance : R

/-- The lists of the data file that the handler reads. -/
structure DataFile (R : Type) where
  FuturesCoinPositions : List (FuturesCoinPosition R)
  FuturesCoinAssets : List (FuturesCoinAsset R)

section Binance

variable {R : Type} (ops : Float64 R)

/-- `assetCoinSymbol[asset]`. -/
def assetCoinSymbol (asset : String) : String :=
  ([("BTC", "BTCUSD_PERP"), ("ETH", "ETHUSD_PERP")].lookup asset).getD ""

structure PerpSums (R : Type) where
  leverage : Int
  perpLong : R
  perpShort : R

/-- One turn of the loop over the coin positions.  The CPU build skips a
position whose leverage does not parse and looks at the sign of the product;
the GPU build goes on with what `ParseInt` returned and looks at the sign of
the notional value. -/
def addPosition (build : Build) (symbol : String) (s : PerpSums R)
    (v : FuturesCoinPosition R) : PerpSums R :=
  if v.Symbol ≠ symbol then s
  else
    let (vleverage, parsed) := parseInt64 v.Leverage
    if !parsed && build = .cpu then s
    else
      let leverage := if s.leverage < vleverage then vleverage else s.leverage
      let value := ops.mul v.NotionalValue (ops.ofNat SatoshiMultiplier)
      let long := match build with
        | .cpu => ops.pos value
        | .gpu => ops.pos v.NotionalValue
      if long then { s with leverage := leverage, perpLong := ops.add s.perpLong value }
      else { s with leverage := leverage, perpShort := ops.add s.perpShort value }

/-- The margin balance of the asset; the wallet balance is summed up as well
and then unused. -/
def marginBalance (asset : String) (assets : List (FuturesCoinAsset R)) : R :=
  assets.foldl (fun sum v =>
    if v.Symbol = asset then
      ops.add sum (ops.mul v.MarginBalance (ops.ofNat SatoshiMultiplier))
    else sum) (ops.ofNat 0)

def binanceAssignment (build : Build) (asset : String) (data : DataFile R) :
    ZbFrCircuit :=
  let sums := data.FuturesCoinPositions.foldl
    (addPosition ops build (assetCoinSymbol asset)) ⟨1, ops.ofNat 0, ops.ofNat 0⟩
  { Leverage := .int sums.leverage
    DeltaSpot := .bigInt (ops.toInt64 (marginBalance ops asset data.FuturesCoinAssets))
    DeltaPerpLong := .bigInt (ops.toInt64 sums.perpLong)
    DeltaPerpShort := .bigInt (ops.toInt64 sums.perpShort)
    LeverageUpper := .int MaxLeverage
    DeltaUpper := .int MaxDelta
    ProjectId := .int BinanceProjectID }

end Binance

/-! ## Merkle -/

structure ElementRaw where
  Limbs : List Nat

structure AffinePointRaw where
  X : ElementRaw
  Y : ElementRaw

/-- The decoded request; an absent `*big.Int` is nil. -/
structure FancasterAnonymousCircuitRaw where
  Message : ElementRaw
  V : GoValue
  R : ElementRaw
  S : ElementRaw
  Expected : AffinePointRaw
  RootHash : Option Int
  Index : GoValue
  Path : List (Option Int)
  ProjectId : GoValue

/-- `json.Unmarshal` of `{}` leaves every field at its zero value. -/
def emptyRaw : FancasterAnonymousCircuitRaw where
  Message := ⟨[]⟩
  V := .null
  R := ⟨[]⟩
  S := ⟨[]⟩
  Expected := ⟨⟨[]⟩, ⟨[]⟩⟩
  RootHash := none
  Index := .null
  Path := []
  ProjectId := .null

/-- `toElementFr` and `toElementFp`, which differ in the name of the field. -/
def toElement (field : String) (raw : ElementRaw) : Except String Element :=
  if raw.Limbs.length ≠ 4 then .error ("expected 4 limbs for " ++ field)
  else .ok ⟨raw.Limbs.map .uint64⟩

def toElementFr (raw : ElementRaw) : Except String Element := toElement "Fr" raw

def toElementFp (raw : ElementRaw) : Except String Element := toElement "Fp" raw

/-- `int64(v)` of a `float64` in range: towards zero. -/
def truncate (v : Rat) : Int := v.num.tdiv v.den

/-- `SetString(s, 10)`. -/
def setString (s : String) : Variable :=
  match s.toList with
  | '+' :: cs => match parseUint (10 ^ cs.length) cs with
      | .ok n => .bigInt n
      | .error _ => .badBigInt
  | '-' :: cs => match parseUint (10 ^ cs.length) cs with
      | .ok n => .bigInt (-(n : Int))
      | .error _ => .badBigInt
  | cs => match parseUint (10 ^ cs.length) cs with
      | .ok n => .bigInt n
      | .error _ => .badBigInt

/-- `toFrontendVar` on a decoded value. -/
def toFrontendVar (v : GoValue) : Variable :=
  match v with
  | .float x =>
      if -2 ^ 63 ≤ truncate x ∧ truncate x < 2 ^ 63 then .bigInt (truncate x) else .badBigInt
  | .str s => setString s
  | v => .other v

/-- `toFrontendVar` on a `*big.Int`, which it passes through. -/
def bigIntVar (v : Option Int) : Variable :=
  match v with
  | some n => .bigInt n
  | none => .nilBigInt

/-- `Convert`. -/
def convert (raw : FancasterAnonymousCircuitRaw) :
    Except String FancasterAnonymousCircuit := do
  let message ← toElementFr raw.Message
  let r ← toElementFr raw.R
  let s ← toElementFr raw.S
  let x ← toElementFp raw.Expected.X
  let y ← toElementFp raw.Expected.Y
  if raw.Path.length ≠ MerklePathLength then
    .error ("expected Path of length 14, got " ++ toString raw.Path.length)
  else
    .ok {
      Message := message
      V := toFrontendVar raw.V
      R := r
      S := s
      ExpectedX := x
      ExpectedY := y
      RootHash := bigIntVar raw.RootHash
      Index := toFrontendVar raw.Index
      Path := raw.Path.map bigIntVar
      ProjectId := toFrontendVar raw.ProjectId }

/-! ## The export of a proof -/

/-- The 32-byte big-endian word at an offset. -/
def wordAt (bytes : List UInt8) (offset : Nat) : Nat :=
  setBytes ((bytes.drop offset).take 32)

/-- Reads `n` words from an offset on, each after a length check. -/
def readWords (bytes : List UInt8) (msg : String) : Nat → Nat → Go (List Nat)
  | 0, _ => .ok []
  | n + 1, offset =>
      if bytes.length < offset + 32 then .error (.panicked msg)
      else do
        let rest ← readWords bytes msg n (offset + 32)
        .ok (wordAt bytes offset :: rest)

/-- The public inputs behind the 12-byte header of a binary witness. -/
def exportInputs (marshalBinary : Except String (List UInt8)) (nbPublicInputs : Nat) :
    Go (List Nat) :=
  match marshalBinary with
  | .error err => .error (.panicked err)
  | .ok bytes =>
      if bytes.length < 12 then .error .sliceBounds
      else
        let inputBytes := bytes.drop 12
        if inputBytes.length % 32 ≠ 0 then
          .error (.panicked "inputBytes mod fr.Bytes != 0")
        else if inputBytes.length / 32 ≠ nbPublicInputs then
          .error (.panicked "nbInputs != nbPublicInputs")
        else
          .ok ((List.range nbPublicInputs).map (fun i =>
            wordAt inputBytes (32 * i) % bn254Prime))

/-- The commitment and its proof of knowledge, where the proof has any bytes
behind its first eight words.  The second separator is checked, not skipped. -/
def exportCommitments (proofBytes : List UInt8) : Go (List Nat) :=
  if proofBytes.length ≤ 256 then .ok []
  else if proofBytes.length < 256 + 4 then
    .error (.panicked "unexpected format: missing commitment section header")
  else do
    let commitments ← readWords proofBytes "proofBytes too short for commitments" 2 260
    if proofBytes.length < 324 + 4 then
      .error (.panicked "unexpected format: missing CommitmentPok section header")
    else
      let commitmentsPok ← readWords proofBytes "proofBytes too short for CommitmentPok" 2 324
      .ok (commitments ++ commitmentsPok)

/-- `RunProveExportResult`, on the bytes of `MarshalSolidity`, the outcome of
`MarshalBinary` and the length of the public vector. -/
def runProveExportResult (proofBytes : List UInt8)
    (marshalBinary : Except String (List UInt8)) (nbPublicInputs : Nat) :
    Go (List String) := do
  let input ← exportInputs marshalBinary nbPublicInputs
  if proofBytes.length < 32 * 8 then
    .error (.panicked "proofBytes too short for basic proof elements")
  else
    let proofInts := (List.range 8).map (fun i => wordAt proofBytes (32 * i))
    let commitments ← exportCommitments proofBytes
    .ok ((proofInts ++ commitments ++ input).map toString)

/-! ## The handlers -/

/-- gnark, as the handlers call it.  `publicPart` is `none` where `Public`
fails, whose error the handlers drop. -/
structure Gnark (C Secret Public Proof : Type) where
  newWitness : Assignment → Except String Secret
  publicPart : Secret → Option Public
  prove : Build → C → Secret → Except String Proof
  marshalProof : Proof → Except String String
  marshalVector : Public → Except String String
  proofWriteTo : Proof → Except String (List UInt8)
  marshalSolidity : Proof → List UInt8
  marshalBinary : Public → Except String (List UInt8)
  vectorLength : Public → Nat
  marshalStrings : List String → Except String String
  publicWriteTo : Public → Except String (List UInt8)

/-- The decoders and the data file on disk. -/
structure Inputs (R : Type) where
  decodeObject : String → Except String (List (String × GoValue))
  printFloat : Rat → String
  unmarshalRaw : String → Except String FancasterAnonymousCircuitRaw
  load : Except String (DataFile R)
  ops : Float64 R

section Handlers

variable {C Secret Public Proof R : Type}

/-- From the proof to the response: the part of the tail that runs once
`groth16.Prove` returned. -/
def exportProof (gnark : Gnark C Secret Public Proof) (rawProof : Proof)
    (rawPublicWitness : Option Public) : Go ProveResponseV2 :=
  match gnark.marshalProof rawProof with
  | .error _ => .ok ⟨STATUS_CODE_GENERATE_PROOF_ERROR,
      "Error marshaling proof to json", "", "", [], "", []⟩
  | .ok proof =>
      match rawPublicWitness with
      | none => .error (.panicked "invalid memory address or nil pointer dereference")
      | some publicWitness =>
          match gnark.marshalVector publicWitness with
          | .error _ => .ok ⟨STATUS_CODE_GENERATE_PROOF_ERROR,
              "Error witnessPublic", "", "", [], "", []⟩
          | .ok witnessJson =>
              match gnark.proofWriteTo rawProof with
              | .error _ => .ok ⟨-1, "Error serializing proof to bytes", "", "", [], "", []⟩
              | .ok proofBytes => do
                  let rawProofSolidity ← runProveExportResult
                    (gnark.marshalSolidity rawProof) (gnark.marshalBinary publicWitness)
                    (gnark.vectorLength publicWitness)
                  match gnark.marshalStrings rawProofSolidity with
                  | .error _ => .ok ⟨STATUS_CODE_GENERATE_PROOF_ERROR,
                      "Failed to marshal solidity proof to JSON", "", "", [], "", []⟩
                  | .ok proofSolidity =>
                      match gnark.publicWriteTo publicWitness with
                      | .error _ => .ok ⟨STATUS_CODE_TO_PUBLIC_WITNESS_ERROR,
                          "Error serializing witness to bytes", "", "", [], "", []⟩
                      | .ok publicWitnessBytes =>
                          .ok ⟨0, "Successfully", proof, proofSolidity, proofBytes,
                            witnessJson, publicWitnessBytes⟩

/-- The tail of the handlers, from the assignment on. -/
def proveAssignment (gnark : Gnark C Secret Public Proof) (build : Build)
    (circuitData : C) (assignment : Assignment) : Go ProveResponseV2 :=
  match gnark.newWitness assignment with
  | .error _ => .ok ⟨STATUS_CODE_TO_SECRET_WITNESS_ERROR, "Error secretWitness",
      "", "", [], "", []⟩
  | .ok secretWitness =>
      match gnark.prove build circuitData secretWitness with
      | .error _ => .ok ⟨STATUS_CODE_GENERATE_PROOF_ERROR, "Error Prove",
          "", "", [], "", []⟩
      | .ok rawProof => exportProof gnark rawProof (gnark.publicPart secretWitness)

/-- A handler: `decode` turns the input into an assignment, or answers it, or
stops the process. -/
def proveOffchain (gnark : Gnark C Secret Public Proof) (build : Build)
    (circuits : Dict String C)
    (decode : String → Go (Except ProveResponseV2 Assignment)) (req : ProveRequest) :
    Go ProveResponseV2 :=
  match circuits.get? req.temp with
  | none => .ok ⟨STATUS_CODE_UNSUPPORT_CIRCUIT,
      "Circuit [" ++ req.temp ++ "] not found", "", "", [], "", []⟩
  | some circuitData =>
      if 1 < req.input.utf8ByteSize then do
        match ← decode req.input with
        | .error response => .ok response
        | .ok assignment => proveAssignment gnark build circuitData assignment
      else .ok ⟨-1, "Execution failed due to invalid input", "", "", [], "", []⟩

def decodeTiga (inputs : Inputs R) (input : String) :
    Go (Except ProveResponseV2 Assignment) :=
  match inputs.decodeObject input with
  | .error _ => .ok (.error ⟨STATUS_CODE_JSON_FROMAT_ERROR, "Error parsing JSON data",
      "", "", [], "", []⟩)
  | .ok jsonData =>
      .ok (.ok (.tiga (tigaAssignment (toStringMap inputs.printFloat jsonData))))

def decodeBinance (inputs : Inputs R) (build : Build) (asset : String) :
    Go (Except ProveResponseV2 Assignment) :=
  match inputs.load with
  | .error _ => .ok (.error ⟨STATUS_CODE_JSON_FROMAT_ERROR, "Error loading JSON data",
      "", "", [], "", []⟩)
  | .ok data => .ok (.ok (.zbFr (binanceAssignment inputs.ops build asset data)))

/-- Both failures are `log.Fatal`. -/
def decodeMerkle (inputs : Inputs R) (input : String) :
    Go (Except ProveResponseV2 Assignment) :=
  match inputs.unmarshalRaw input with
  | .error err => .error (.exited ("unmarshal error:" ++ err))
  | .ok raw =>
      match convert raw with
      | .error err => .error (.exited ("convert error:" ++ err))
      | .ok assignment => .ok (.ok (.fancaster assignment))

/-- `ProveTigaOffchain`. -/
def proveTigaOffchain (gnark : Gnark C Secret Public Proof) (inputs : Inputs R)
    (build : Build) (circuits : Dict String C) (req : ProveRequest) : Go ProveResponseV2 :=
  proveOffchain gnark build circuits (decodeTiga inputs) req

/-- `ProveBinanceOffchain`. -/
def proveBinanceOffchain (gnark : Gnark C Secret Public Proof) (inputs : Inputs R)
    (build : Build) (circuits : Dict String C) (req : ProveRequest) : Go ProveResponseV2 :=
  proveOffchain gnark build circuits (decodeBinance inputs build) req

/-- `ProveMerkleOffchain`. -/
def proveMerkleOffchain (gnark : Gnark C Secret Public Proof) (inputs : Inputs R)
    (build : Build) (circuits : Dict String C) (req : ProveRequest) : Go ProveResponseV2 :=
  proveOffchain gnark build circuits (decodeMerkle inputs) req

end Handlers

end ProverNetwork.Ports.GnarkProver
