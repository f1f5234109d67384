import Mathlib.Data.List.Basic
import ProverNetwork.Verified.Dict
import ProverNetwork.Verified.GoValue
import ProverNetwork.Verified.Reply
import ProverNetwork.Verified.Sha256
import ProverNetwork.Verified.Strconv

/-!
# The handlers of the circom prover, up to the witness

`ProveV2`, `ProveNosha256`, `ProveNosha256Offchain` and
`ProveNosha256WithWitness` are copies of one handler: they decode the request,
two of them check the issuer of the token on two circuits, all compare a hash,
save the input and run the witness generator of the circuit.  The copies differ
in their codes, which `Codes` lists; the GPU build asks for a device first in
three of them.

A Go string whose bytes matter is a list of bytes.  The JSON and base64
decoders, the file system and the growth of slices belong to the host.

## Main results

* `reconstruct_eq_ok` — the reconstructed token is a prefix of the merged bytes.
* `validate_eq_next` — what a request has to be to get through.
-/

namespace ProverNetwork.Ports.CircomProver

open ProverNetwork.Verified

def STATUS_CODE_UNSUPPORT_CIRCUIT : Int := 100000
def STATUS_CODE_GPU_DEVICE_ERROR : Int := 100001
def STATUS_CODE_SHA256_NOT_MATCH : Int := 100002
def STATUS_CODE_JSON_FROMAT_ERROR : Int := 100003
def STATUS_CODE_INVALID_INPUT : Int := 100004

/-! ## The helpers -/

/-- `%08b` of a byte. -/
def byteBits (b : UInt8) : List Char :=
  (List.range 8).map (fun i => if b.toNat.testBit (7 - i) then '1' else '0')

def uint8ToBits (data : List UInt8) : List Char := data.flatMap byteBits

inductive ReconstructError
  | parseByte (s : String) (err : NumError)
  | bufferTooSmall
  | invalidMessageLength (msgLen : Nat)
  | lengthFieldNotFound
  deriving DecidableEq

/-- The cells as bytes, up to the first that is no decimal byte. -/
def parseBytes : List String → Except ReconstructError (List UInt8)
  | [] => .ok []
  | s :: cells =>
      match parseUint 255 s.toList with
      | .error err => .error (.parseByte s err)
      | .ok u => do
          let buf ← parseBytes cells
          .ok (UInt8.ofNat u :: buf)

/-- The search for the length field, from the end of the buffer in blocks of 8
bytes: with `n` blocks left, `i` is `buf.length % 8 + 8 * n`. -/
def findMessage (buf : List UInt8) : Nat → Except ReconstructError (List UInt8)
  | 0 => .error .lengthFieldNotFound
  | n + 1 =>
      let block := (buf.drop (buf.length % 8 + 8 * n)).take 8
      if block.all (· == 0) then findMessage buf n
      else
        let msgLen := setBytes (block.drop 4) / 8
        if buf.length < msgLen then .error (.invalidMessageLength msgLen)
        else .ok (buf.take msgLen)

/-- `ReconstructJWTFromSegments`. -/
def reconstructJWTFromSegments (segments : List (List String)) :
    Except ReconstructError (List UInt8) := do
  let buf ← parseBytes segments.flatten
  if buf.length < 8 then .error .bufferTooSmall
  else findMessage buf (buf.length / 8)

/-- `byte(val)` of what `Atoi` returns, its error dropped. -/
def atoiByte (s : String) : UInt8 := toByte (parseInt64 s).1

/-- `MergeJWT`. -/
def mergeJWT (growth : Slice.Growth) (jwtSegments : List (List String)) : Slice UInt8 :=
  Slice.appended growth 0 (jwtSegments.flatten.map atoiByte)

/-- `ConvertToBinaryString`. -/
def convertToBinaryString (jwtSha256 : List GoValue) : Go (List Char) := do
  let cells ← GoValue.assertStrs jwtSha256
  .ok (cells.flatMap String.toList)

/-! ## The handlers -/

inductive Build
  | cpu
  | gpu
  deriving DecidableEq

structure Host where
  build : Build
  /-- the running tasks of each device -/
  devices : List Int
  unmarshal : List UInt8 → Except String (List (String × GoValue))
  rawURLDecode : List UInt8 → Except String (List UInt8)
  growth : Slice.Growth
  writeFile : List UInt8 → Except String Unit

structure ProveNosha256Request where
  Input : List UInt8
  Temp : String
  Length : Int32

structure Response where
  Code : Int
  Msg : String
  deriving DecidableEq

/-- What the copies of the handler differ in. -/
structure Codes where
  checksIssuer : Bool
  circuitNotFound : Int
  /-- the GPU build's answer without a free device, where it asks for one -/
  noDevices : Option Int
  jsonFormat : Int
  invalidInput : Int
  sha256NotMatch : Int
  notSaved : Int

def proveV2Codes : Codes where
  checksIssuer := true
  circuitNotFound := STATUS_CODE_GPU_DEVICE_ERROR
  noDevices := some STATUS_CODE_UNSUPPORT_CIRCUIT
  jsonFormat := STATUS_CODE_JSON_FROMAT_ERROR
  invalidInput := STATUS_CODE_INVALID_INPUT
  sha256NotMatch := STATUS_CODE_SHA256_NOT_MATCH
  notSaved := STATUS_CODE_JSON_FROMAT_ERROR

def proveNosha256Codes : Codes where
  checksIssuer := false
  circuitNotFound := STATUS_CODE_GPU_DEVICE_ERROR
  noDevices := some STATUS_CODE_UNSUPPORT_CIRCUIT
  jsonFormat := STATUS_CODE_JSON_FROMAT_ERROR
  invalidInput := STATUS_CODE_INVALID_INPUT
  sha256NotMatch := STATUS_CODE_SHA256_NOT_MATCH
  notSaved := STATUS_CODE_JSON_FROMAT_ERROR

def proveNosha256OffchainCodes : Codes where
  checksIssuer := true
  circuitNotFound := STATUS_CODE_UNSUPPORT_CIRCUIT
  noDevices := some STATUS_CODE_GPU_DEVICE_ERROR
  jsonFormat := STATUS_CODE_JSON_FROMAT_ERROR
  invalidInput := STATUS_CODE_INVALID_INPUT
  sha256NotMatch := STATUS_CODE_SHA256_NOT_MATCH
  notSaved := -1

def proveNosha256WithWitnessCodes : Codes where
  checksIssuer := false
  circuitNotFound := -1
  noDevices := none
  jsonFormat := -1
  invalidInput := -1
  sha256NotMatch := -1
  notSaved := -1

/-- The device with the fewest running tasks. -/
def getDevice (devices : List Int) : Option Nat :=
  (devices.zipIdx.foldl (fun (best : Int × Option Nat) d =>
    if d.1 < best.1 then (d.1, some d.2) else best) (2 ^ 31 - 1, none)).2

def checkDevice (codes : Codes) (host : Host) : Reply Response Unit :=
  match host.build, codes.noDevices with
  | .gpu, some code =>
      .require ⟨code, "No available devices"⟩ (getDevice host.devices).isSome
  | _, _ => .next ()

/-- The circuits whose tokens are checked for their issuer. -/
def restricted (circuitId : String) : Bool := circuitId == "10007" || circuitId == "10008"

def issuer : String := "https://securetoken.google.com/sollpayapp"

def audience : String := "sollpayapp"

def dot : UInt8 := 46

/-- The check of the token's issuer and audience. -/
def checkIssuer (codes : Codes) (host : Host) (segments : List (List String)) :
    Reply Response Unit := do
  let invalid : Response := ⟨codes.invalidInput, "Invalid data format for jwt_segments"⟩
  let jwt ← .ofExcept invalid (reconstructJWTFromSegments segments)
  .require invalid (jwt ≠ [])
  let part ← .ofGo ((Slice.ofList (jwt.splitOn dot)).index 1)
  let payloadBytes ← .ofExcept invalid (host.rawURLDecode part)
  let jwtClaims ← .ofExcept ⟨codes.jsonFormat, "Error parsing JSON data"⟩
    (host.unmarshal payloadBytes)
  let iss ← .ofOption invalid (GoValue.lookup jwtClaims "iss").str?
  let aud ← .ofOption invalid (GoValue.lookup jwtClaims "aud").str?
  .require invalid (iss = issuer ∧ aud = audience)

/-- The check, where the handler makes it. -/
def guardIssuer (codes : Codes) (host : Host) (circuitId : String)
    (segments : List (List String)) : Reply Response Unit :=
  if codes.checksIssuer && restricted circuitId then checkIssuer codes host segments
  else .next ()

/-- What a handler knows about a request that got through its checks. -/
structure Validated (C : Type) where
  circuitData : C
  jwtSegments : List (List String)
  message : List UInt8

section Handlers

variable {C : Type}

/-- From the request to the comparison of the hash. -/
def validate (codes : Codes) (host : Host) (circuits : Dict String C)
    (req : ProveNosha256Request) : Reply Response (Validated C) := do
  let circuitData ← .ofOption
    ⟨codes.circuitNotFound, "Circuit [" ++ req.Temp ++ "] not found"⟩
    (circuits.get? req.Temp)
  checkDevice codes host
  .require ⟨-1, "Execution failed due to invalid input"⟩ (1 < req.Input.length)
  let jsonData ← .ofExcept ⟨codes.jsonFormat, "Error parsing JSON data"⟩
    (host.unmarshal req.Input)
  let jwtSegments ← .ofOption ⟨codes.invalidInput, "Invalid data format for jwt_segments"⟩
    (GoValue.lookup jsonData "jwt_segments").slice?
  let jwtSegmentsStr ← .ofGo (GoValue.assertRows jwtSegments)
  guardIssuer codes host req.Temp jwtSegmentsStr
  let jwtSha256 ← .ofOption ⟨codes.invalidInput, "Invalid data format for jwt_sha256"⟩
    (GoValue.lookup jsonData "jwt_sha256").slice?
  let jwtSha256String ← .ofGo (convertToBinaryString jwtSha256)
  let message ← .ofGo ((mergeJWT host.growth jwtSegmentsStr).subslice 0 req.Length.toInt)
  .require ⟨codes.sha256NotMatch, "SHA256 did not match"⟩
    (uint8ToBits (Sha256.sha256 message.toList) = jwtSha256String)
  return ⟨circuitData, jwtSegmentsStr, message.toList⟩

/-- A handler up to the call of the witness generator, on the saved input. -/
def prove (codes : Codes) (host : Host) (circuits : Dict String C)
    (req : ProveNosha256Request) : Reply Response (C × List UInt8) := do
  let validated ← validate codes host circuits req
  .ofExcept ⟨codes.notSaved, "Execution failed: could not save input as JSON"⟩
    (host.writeFile req.Input)
  return (validated.circuitData, req.Input)

/-- `ProveV2`. -/
def proveV2 : Host → Dict String C → ProveNosha256Request →
    Reply Response (C × List UInt8) :=
  prove proveV2Codes

/-- `ProveNosha256`. -/
def proveNosha256 : Host → Dict String C → ProveNosha256Request →
    Reply Response (C × List UInt8) :=
  prove proveNosha256Codes

/-- `ProveNosha256Offchain`. -/
def proveNosha256Offchain : Host → Dict String C → ProveNosha256Request →
    Reply Response (C × List UInt8) :=
  prove proveNosha256OffchainCodes

/-- `ProveNosha256WithWitness`. -/
def proveNosha256WithWitness : Host → Dict String C → ProveNosha256Request →
    Reply Response (C × List UInt8) :=
  prove proveNosha256WithWitnessCodes

end Handlers

/-! ## What the helpers return -/

theorem parseBytes_cons_eq_ok {s : String} {cells : List String} {buf : List UInt8} :
    parseBytes (s :: cells) = .ok buf ↔
      ∃ u rest, parseUint 255 s.toList = .ok u ∧ parseBytes cells = .ok rest ∧
        buf = UInt8.ofNat u :: rest := by
  rw [parseBytes]
  cases hu : parseUint 255 s.toList with
  | error err => simp
  | ok u =>
      cases hrest : parseBytes cells with
      | error err => simp [bind, Except.bind]
      | ok rest => simp [bind, Except.bind, eq_comm]

theorem parseBytes_eq_ok {cells : List String} {buf : List UInt8}
    (h : parseBytes cells = .ok buf) : buf = cells.map atoiByte := by
  induction cells generalizing buf with
  | nil =>
      cases h
      rfl
  | cons s cells ih =>
      obtain ⟨u, rest, hu, hrest, hbuf⟩ := parseBytes_cons_eq_ok.1 h
      have hbyte : atoiByte s = UInt8.ofNat u := by
        have hu' := parseInt64_of_parseUint hu
        have hmod : ((u : Int) % 256).toNat = u := by omega
        rw [atoiByte, hu'.1, toByte, hmod]
      rw [hbuf, List.map_cons, hbyte, ← ih hrest]

theorem findMessage_eq_ok {buf token : List UInt8} {n : Nat}
    (h : findMessage buf n = .ok token) : token = buf.take token.length := by
  induction n with
  | zero => cases h
  | succ n ih =>
      unfold findMessage at h
      simp only at h
      split at h
      · exact ih h
      · split at h
        · cases h
        case isFalse hlen =>
          have htoken := (Except.ok.inj h).symm
          rw [htoken, List.length_take, Nat.min_eq_left (by omega)]

/-- **The reconstructed token is a prefix** of the bytes that `MergeJWT` makes of
the same cells: a cell that `ParseUint` accepts for a byte is read alike by
`Atoi`. -/
theorem reconstruct_eq_ok {segments : List (List String)} {token : List UInt8}
    (h : reconstructJWTFromSegments segments = .ok token) :
    token = (segments.flatten.map atoiByte).take token.length := by
  unfold reconstructJWTFromSegments at h
  cases hbuf : parseBytes segments.flatten with
  | error err => simp [hbuf, bind, Except.bind] at h
  | ok buf =>
      simp only [hbuf, bind, Except.bind] at h
      split at h
      · cases h
      · rw [← parseBytes_eq_ok hbuf]
        exact findMessage_eq_ok h

theorem convertToBinaryString_eq_ok (jwtSha256 : List GoValue) (bits : List Char) :
    convertToBinaryString jwtSha256 = .ok bits ↔
      ∃ cells : List String, jwtSha256 = cells.map .str ∧
        cells.flatMap String.toList = bits := by
  simp only [convertToBinaryString, Go.bind_eq_ok, GoValue.assertStrs_ok_iff,
    Except.ok.injEq]

theorem convertToBinaryString_returns (jwtSha256 : List GoValue) :
    (convertToBinaryString jwtSha256).Returns (fun _ => True) ↔
      ∃ cells : List String, jwtSha256 = cells.map .str := by
  simp [Go.Returns, convertToBinaryString_eq_ok]

/-! ## What gets through -/

/-- The payload of the token decodes to an object with the issuer and the
audience of the app. -/
def IssuerAccepted (host : Host) (segments : List (List String)) : Prop :=
  ∃ token part payload claims, reconstructJWTFromSegments segments = .ok token ∧
    (token.splitOn dot)[1]? = some part ∧ host.rawURLDecode part = .ok payload ∧
    host.unmarshal payload = .ok claims ∧
    GoValue.lookup claims "iss" = .str issuer ∧ GoValue.lookup claims "aud" = .str audience

/-- The empty token has no second part. -/
theorem ne_nil_of_part {token part : List UInt8}
    (h : (token.splitOn dot)[1]? = some part) : token ≠ [] := by
  rintro rfl
  simp [List.splitOn_nil] at h

theorem checkIssuer_eq_next (codes : Codes) (host : Host) (segments : List (List String))
    (u : Unit) :
    checkIssuer codes host segments = .next u ↔ IssuerAccepted host segments := by
  have hindex : ∀ (token part : List UInt8),
      (Slice.ofList (token.splitOn dot)).index 1 = .ok part ↔
        (token.splitOn dot)[1]? = some part :=
    fun token part => Slice.index_ofList_eq_ok (token.splitOn dot) 1 part
  simp only [checkIssuer, IssuerAccepted, Reply.bind_eq_next, Reply.ofExcept_eq_next,
    Reply.require_eq_next, Reply.ofGo_eq_next, Reply.ofOption_eq_next,
    GoValue.str?_eq_some, hindex]
  constructor
  · rintro ⟨token, htoken, -, -, part, hpart, payload, hpayload, claims, hclaims,
      iss, hiss, aud, haud, rfl, rfl⟩
    exact ⟨token, part, payload, claims, htoken, hpart, hpayload, hclaims, hiss, haud⟩
  · rintro ⟨token, part, payload, claims, htoken, hpart, hpayload, hclaims, hiss, haud⟩
    exact ⟨token, htoken, (), ne_nil_of_part hpart, part, hpart, payload, hpayload, claims,
      hclaims, issuer, hiss, audience, haud, rfl, rfl⟩

theorem guardIssuer_eq_next (codes : Codes) (host : Host) (circuitId : String)
    (segments : List (List String)) (u : Unit) :
    guardIssuer codes host circuitId segments = .next u ↔
      (codes.checksIssuer → restricted circuitId → IssuerAccepted host segments) := by
  unfold guardIssuer
  cases codes.checksIssuer <;> cases restricted circuitId <;> simp [checkIssuer_eq_next]

/-- The guards that all four handlers share, with what they leave behind. -/
structure Guarded {C : Type} (codes : Codes) (host : Host) (circuits : Dict String C)
    (req : ProveNosha256Request) (v : Validated C) : Prop where
  circuit : circuits.get? req.Temp = some v.circuitData
  device : checkDevice codes host = .next ()
  long : 1 < req.Input.length
  input : ∃ jsonData cells, host.unmarshal req.Input = .ok jsonData ∧
    GoValue.lookup jsonData "jwt_segments" =
      .slice (v.jwtSegments.map (fun row => .slice (row.map .str))) ∧
    GoValue.lookup jsonData "jwt_sha256" = .slice (List.map GoValue.str cells) ∧
    cells.flatMap String.toList = uint8ToBits (Sha256.sha256 v.message)
  message : ∃ w, (mergeJWT host.growth v.jwtSegments).subslice 0 req.Length.toInt = .ok w ∧
    w.toList = v.message

/-- **What gets through**: the guards hold, and so does the issuer check where
the handler makes it. -/
theorem validate_eq_next {C : Type} (codes : Codes) (host : Host)
    (circuits : Dict String C) (req : ProveNosha256Request) (v : Validated C) :
    validate codes host circuits req = .next v ↔
      Guarded codes host circuits req v ∧
        (codes.checksIssuer → restricted req.Temp → IssuerAccepted host v.jwtSegments) := by
  simp only [validate, Reply.bind_eq_next, Reply.ofExcept_eq_next, Reply.require_eq_next,
    Reply.ofGo_eq_next, Reply.ofOption_eq_next, GoValue.slice?_eq_some,
    GoValue.assertRows_ok_iff, convertToBinaryString_eq_ok, guardIssuer_eq_next,
    Reply.pure_eq, Reply.next.injEq]
  constructor
  · rintro ⟨circuitData, hcircuit, ⟨⟩, hdevice, -, hlong, jsonData, hjson, _, hsegments,
      segments, rfl, -, hissuer, _, hsha, _, ⟨cells, rfl, rfl⟩, w, hmessage, -, hequal, rfl⟩
    exact ⟨⟨hcircuit, hdevice, hlong, ⟨jsonData, cells, hjson, hsegments, hsha, hequal.symm⟩,
      ⟨w, hmessage, rfl⟩⟩, hissuer⟩
  · rintro ⟨⟨hcircuit, hdevice, hlong, ⟨jsonData, cells, hjson, hsegments, hsha, hequal⟩,
      ⟨w, hmessage, hw⟩⟩, hissuer⟩
    refine ⟨v.circuitData, hcircuit, (), hdevice, (), hlong, jsonData, hjson, _, hsegments,
      v.jwtSegments, rfl, (), hissuer, _, hsha, _, ⟨cells, rfl, rfl⟩, w, hmessage, (), ?_, ?_⟩
    · rw [hw, hequal]
    · rw [hw]

end ProverNetwork.Ports.CircomProver
