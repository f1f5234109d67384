import Mathlib.Data.Nat.Log
import ProverNetwork.Ports.CircomProver

/-!
# What the guards of the circom prover guarantee

The four handlers share their guards and differ in the issuer check, which two
of them make.  From what gets through follow three results about every
request, every circuit table and every host.

## Main results

* `token_is_message_iff` — when the checked token is the hashed message.
* `issuerHeld_iff` — which requests are held to the issuer of the app.
* `validates_iff` — which requests are validated without a panic.
-/

namespace ProverNetwork.Ports.CircomProver

open ProverNetwork.Verified

inductive Rpc
  | ProveV2
  | ProveNosha256
  | ProveNosha256Offchain
  | ProveNosha256WithWitness
  deriving DecidableEq

def Rpc.codes : Rpc → Codes
  | .ProveV2 => proveV2Codes
  | .ProveNosha256 => proveNosha256Codes
  | .ProveNosha256Offchain => proveNosha256OffchainCodes
  | .ProveNosha256WithWitness => proveNosha256WithWitnessCodes

variable {C : Type}

def handle (rpc : Rpc) (host : Host) (circuits : Dict String C)
    (req : ProveNosha256Request) : Reply Response (C × List UInt8) :=
  match rpc with
  | .ProveV2 => proveV2 host circuits req
  | .ProveNosha256 => proveNosha256 host circuits req
  | .ProveNosha256Offchain => proveNosha256Offchain host circuits req
  | .ProveNosha256WithWitness => proveNosha256WithWitness host circuits req

theorem handle_eq (rpc : Rpc) (host : Host) (circuits : Dict String C)
    (req : ProveNosha256Request) :
    handle rpc host circuits req = prove rpc.codes host circuits req := by
  cases rpc <;> rfl

theorem checksIssuer_iff (rpc : Rpc) :
    rpc.codes.checksIssuer ↔ rpc = .ProveV2 ∨ rpc = .ProveNosha256Offchain := by
  cases rpc <;> simp [Rpc.codes, proveV2Codes, proveNosha256Codes,
    proveNosha256OffchainCodes, proveNosha256WithWitnessCodes]

theorem restricted_iff (circuitId : String) :
    restricted circuitId ↔ circuitId = "10007" ∨ circuitId = "10008" := by
  simp [restricted]

/-! ## Single requests -/

def ascii (s : String) : List UInt8 := s.toList.map (fun c => UInt8.ofNat c.toNat)

/-- The text of a JSON array of strings. -/
def arrayText (cells : List String) : List UInt8 :=
  ascii "[" ++ (ascii ",").intercalate (cells.map (fun c => ascii ("\"" ++ c ++ "\""))) ++
    ascii "]"

/-- A request for a hash of `message`: its text and what it decodes to. -/
def requestText (segments : List (List String)) (message : List UInt8) : List UInt8 :=
  ascii "\x7b\"jwt_segments\":[" ++ ((ascii ",").intercalate (segments.map arrayText) ++
    ascii "],\"jwt_sha256\":" ++
    arrayText [String.ofList (uint8ToBits (Sha256.sha256 message))] ++ ascii "\x7d")

def requestData (segments : List (List String)) (message : List UInt8) :
    List (String × GoValue) :=
  [("jwt_segments", .slice (segments.map (fun row => .slice (row.map .str)))),
    ("jwt_sha256", .slice [.str (String.ofList (uint8ToBits (Sha256.sha256 message)))])]

/-- Capacities double from 8 bytes on. -/
def doubling : Slice.Growth where
  cap n := if n = 0 then 0 else max 8 (2 ^ Nat.clog 2 n)
  le_cap n := by
    split
    · omega
    · exact Nat.le_trans (Nat.le_pow_clog (by decide) n) (Nat.le_max_right 8 _)
  cap_zero := rfl

def decoded {β : Type} (table : List (List UInt8 × β)) (text : List UInt8) : Except String β :=
  match table.lookup text with
  | some value => .ok value
  | none => .error "invalid character"

/-- A CPU host, by what it decodes. -/
def hostOf (jsons : List (List UInt8 × List (String × GoValue)))
    (parts : List (List UInt8 × List UInt8)) : Host where
  build := .cpu
  devices := []
  unmarshal := decoded jsons
  rawURLDecode := decoded parts
  growth := doubling
  writeFile _ := .ok ()

theorem hostOf_unmarshal (text : List UInt8) (data : List (String × GoValue))
    (jsons : List (List UInt8 × List (String × GoValue)))
    (parts : List (List UInt8 × List UInt8)) :
    (hostOf ((text, data) :: jsons) parts).unmarshal text = .ok data := by
  simp [hostOf, decoded]

/-- The first bytes of a request. -/
theorem requestText_take (segments : List (List String)) (message : List UInt8) :
    (requestText segments message).take 3 = ascii "\x7b\"j" := by
  have hlen : 3 ≤ (ascii "\x7b\"jwt_segments\":[").length := by decide +kernel
  rw [requestText, List.take_append_of_le_length hlen]
  decide +kernel

theorem requestText_long (segments : List (List String)) (message : List UInt8) :
    1 < (requestText segments message).length := by
  have hlen := congrArg List.length (requestText_take segments message)
  have hthree : (ascii "\x7b\"j").length = 3 := by decide +kernel
  rw [List.length_take] at hlen
  omega

theorem guarded_hostOf {codes : Codes} {segments : List (List String)}
    {message : List UInt8} {jsons : List (List UInt8 × List (String × GoValue))}
    {parts : List (List UInt8 × List UInt8)} {circuitId : String} {length : Int32}
    (hmessage : ∃ w, (mergeJWT doubling segments).subslice 0 length.toInt = .ok w ∧
      w.toList = message) :
    Guarded codes
      (hostOf ((requestText segments message, requestData segments message) :: jsons) parts)
      (Dict.empty.set circuitId ()) ⟨requestText segments message, circuitId, length⟩
      ⟨(), segments, message⟩ where
  circuit := Dict.get?_set_self _ _ _
  device := rfl
  long := requestText_long segments message
  input := ⟨requestData segments message,
    [String.ofList (uint8ToBits (Sha256.sha256 message))],
    hostOf_unmarshal _ _ jsons parts, rfl, rfl, by simp⟩
  message := hmessage

/-! ## Token and message -/

/-- **The checked token and the hashed message** both start where the merged
bytes start; they are the same exactly when the length of the request is the
length of the token. -/
theorem token_is_message_iff {rpc : Rpc} {host : Host} {circuits : Dict String C}
    {req : ProveNosha256Request} {v : Validated C}
    (hrpc : rpc = .ProveV2 ∨ rpc = .ProveNosha256Offchain)
    (hcircuit : req.Temp = "10007" ∨ req.Temp = "10008")
    (h : validate rpc.codes host circuits req = .next v) :
    ∃ token hashed, reconstructJWTFromSegments v.jwtSegments = .ok token ∧
      (mergeJWT host.growth v.jwtSegments).subslice 0 req.Length.toInt = .ok hashed ∧
      hashed.toList = v.message ∧
      token = (mergeJWT host.growth v.jwtSegments).toList.take token.length ∧
      (token = hashed.toList ↔ req.Length.toInt = token.length) := by
  obtain ⟨hguarded, hissuer⟩ := (validate_eq_next rpc.codes host circuits req v).1 h
  obtain ⟨token, _, _, _, htoken, -⟩ := hissuer ((checksIssuer_iff rpc).2 hrpc)
    ((restricted_iff req.Temp).2 hcircuit)
  obtain ⟨hashed, hhashed, hmessage⟩ := hguarded.message
  have htake := reconstruct_eq_ok htoken
  have hmerged : (mergeJWT host.growth v.jwtSegments).toList =
      v.jwtSegments.flatten.map atoiByte := Slice.toList_appended _ _ _
  obtain ⟨hlist, hlen⟩ := Slice.subslice_zero hhashed
  have hbounds := (Slice.subslice_returns _ 0 req.Length.toInt).1 ⟨hashed, hhashed, trivial⟩
  refine ⟨token, hashed, htoken, hhashed, hmessage, by rw [hmerged]; exact htake, ?_⟩
  constructor
  · intro heq
    have hlength : token.length = hashed.len := by rw [heq, Slice.length_toList]
    omega
  · intro hlength
    have hle : token.length ≤ (v.jwtSegments.flatten.map atoiByte).length := by
      rw [htake, List.length_take]
      exact Nat.min_le_right _ _
    rw [hlist, hlength, Int.toNat_natCast, mergeJWT, Slice.appended,
      List.take_append_of_le_length hle]
    exact htake

/-- The payload of a token of the app, in base64. -/
def payloadPart : String :=
  "eyJpc3MiOiJodHRwczovL3NlY3VyZXRva2VuLmdvb2dsZS5jb20vc29sbHBheWFwcCIsImF1ZCI6InNvbGxwYXlhcHAifQ"

def payloadText : String := "\x7b\"iss\":\"" ++ issuer ++ "\",\"aud\":\"" ++ audience ++ "\"\x7d"

/-- A token of the app with an empty header and no signature. -/
def appToken : List UInt8 := dot :: ascii payloadPart

/-- Its padded bytes, in one row. -/
def appSegments : List (List String) :=
  [(Sha256.pad appToken).map (fun b => toString b.toNat)]

def appHost (message : List UInt8) : Host :=
  hostOf [(requestText appSegments message, requestData appSegments message),
      (ascii payloadText, [("iss", .str issuer), ("aud", .str audience)])]
    [(ascii payloadPart, ascii payloadText)]

def appRequest (message : List UInt8) (length : Int32) : ProveNosha256Request :=
  ⟨requestText appSegments message, "10007", length⟩

theorem appToken_reconstructed :
    reconstructJWTFromSegments appSegments = .ok appToken := by
  decide +kernel

theorem appToken_validated {message : List UInt8} {length : Int32}
    (hmessage : ∃ w, (mergeJWT doubling appSegments).subslice 0 length.toInt = .ok w ∧
      w.toList = message) :
    validate (Rpc.ProveV2).codes (appHost message) (Dict.empty.set "10007" ())
      (appRequest message length) = .next ⟨(), appSegments, message⟩ := by
  have hpart : (appToken.splitOn dot)[1]? = some (ascii payloadPart) := by decide +kernel
  have hdiffer : (ascii payloadText == requestText appSegments message) = false := by
    rw [beq_eq_false_iff_ne]
    intro heq
    have htext := requestText_take appSegments message
    rw [← heq] at htext
    revert htext
    decide +kernel
  refine (validate_eq_next _ _ _ _ _).2 ⟨guarded_hostOf hmessage, ?_⟩
  intro _ _
  refine ⟨appToken, ascii payloadPart, ascii payloadText,
    [("iss", .str issuer), ("aud", .str audience)], appToken_reconstructed, hpart,
    ?_, ?_, rfl, rfl⟩
  · simp [appHost, hostOf, decoded]
  · simp [appHost, hostOf, decoded, List.lookup_cons, hdiffer]

theorem appSegments_taken {length : Int32} {message : List UInt8}
    (hbounds : 0 ≤ length.toInt ∧ length.toInt ≤ (mergeJWT doubling appSegments).cap)
    (h : (mergeJWT doubling appSegments).arr.take length.toInt.toNat = message) :
    ∃ w, (mergeJWT doubling appSegments).subslice 0 length.toInt = .ok w ∧
      w.toList = message := by
  obtain ⟨w, hw, hlist⟩ := Slice.subslice_zero_ok hbounds
  exact ⟨w, hw, hlist.trans h⟩

/-- A request whose length is the length of the token. -/
theorem token_is_message_iff_app :
    ∃ token hashed, reconstructJWTFromSegments appSegments = .ok token ∧
      (mergeJWT doubling appSegments).subslice 0 (95 : Int32).toInt = .ok hashed ∧
      hashed.toList = appToken ∧
      token = (mergeJWT doubling appSegments).toList.take token.length ∧
      (token = hashed.toList ↔ (95 : Int32).toInt = token.length) :=
  @token_is_message_iff Unit .ProveV2 (appHost appToken) (Dict.empty.set "10007" ())
    (appRequest appToken 95) ⟨(), appSegments, appToken⟩ (Or.inl rfl) (Or.inl rfl)
    (appToken_validated (appSegments_taken (by decide +kernel) (by decide +kernel)))

/-- **Length 0 with the hash of nothing**: the token is checked, and no byte of
it is hashed. -/
theorem nothing_hashed :
    validate (Rpc.ProveV2).codes (appHost []) (Dict.empty.set "10007" ())
        (appRequest [] 0) = .next ⟨(), appSegments, []⟩ ∧
      reconstructJWTFromSegments appSegments = .ok appToken ∧
      ∃ hashed, (mergeJWT doubling appSegments).subslice 0 (0 : Int32).toInt = .ok hashed ∧
        appToken ≠ hashed.toList := by
  have hnothing := @appSegments_taken 0 [] (by decide +kernel) (by decide +kernel)
  refine ⟨appToken_validated hnothing, appToken_reconstructed, ?_⟩
  obtain ⟨hashed, hhashed, hempty⟩ := hnothing
  refine ⟨hashed, hhashed, ?_⟩
  rw [hempty]
  decide

/-! ## The issuer -/

/-- The token that the request carries is one of the app. -/
def FromApp (host : Host) (req : ProveNosha256Request) : Prop :=
  ∃ jsonData segments, host.unmarshal req.Input = .ok jsonData ∧
    GoValue.lookup jsonData "jwt_segments" =
      .slice (List.map (fun row => .slice (List.map .str row)) segments) ∧
    IssuerAccepted host segments

/-- On the restricted circuits only requests with a token of the app reach the
witness generator. -/
def IssuerHeld (rpc : Rpc) (host : Host) (circuits : Dict String C)
    (req : ProveNosha256Request) : Prop :=
  (req.Temp = "10007" ∨ req.Temp = "10008") →
    (∃ w, handle rpc host circuits req = .next w) → FromApp host req

/-- The request passes what every handler asks for, and its input is saved. -/
def PassesGuards (rpc : Rpc) (host : Host) (circuits : Dict String C)
    (req : ProveNosha256Request) : Prop :=
  (∃ v, Guarded rpc.codes host circuits req v) ∧ ∃ u, host.writeFile req.Input = .ok u

theorem handle_eq_next (rpc : Rpc) (host : Host) (circuits : Dict String C)
    (req : ProveNosha256Request) :
    (∃ w, handle rpc host circuits req = .next w) ↔
      (∃ v, validate rpc.codes host circuits req = .next v) ∧
        ∃ u, host.writeFile req.Input = .ok u := by
  rw [handle_eq]
  simp only [prove, Reply.bind_eq_next, Reply.ofExcept_eq_next, Reply.pure_eq,
    Reply.next.injEq]
  constructor
  · rintro ⟨_, v, hv, u, hu, -⟩
    exact ⟨⟨v, hv⟩, u, hu⟩
  · rintro ⟨⟨v, hv⟩, u, hu⟩
    exact ⟨_, v, hv, u, hu, rfl⟩

/-- **The issuer is held** by the two handlers that check it, on the circuits
that are not restricted, and on what the other guards stop. -/
theorem issuerHeld_iff (rpc : Rpc) (host : Host) (circuits : Dict String C)
    (req : ProveNosha256Request) :
    IssuerHeld rpc host circuits req ↔
      (rpc = .ProveV2 ∨ rpc = .ProveNosha256Offchain) ∨
      ¬(req.Temp = "10007" ∨ req.Temp = "10008") ∨
      ¬PassesGuards rpc host circuits req ∨ FromApp host req := by
  constructor
  · intro hheld
    by_contra hnot
    obtain ⟨hrpc, hrest⟩ := not_or.1 hnot
    obtain ⟨hcircuit, hrest⟩ := not_or.1 hrest
    obtain ⟨hguards, happ⟩ := not_or.1 hrest
    obtain ⟨⟨v, hguarded⟩, hsaved⟩ := not_not.1 hguards
    have hchecks : ¬rpc.codes.checksIssuer := fun hc => hrpc ((checksIssuer_iff rpc).1 hc)
    have hnext : validate rpc.codes host circuits req = .next v :=
      (validate_eq_next rpc.codes host circuits req v).2
        ⟨hguarded, fun hc => absurd hc hchecks⟩
    have hreach := (handle_eq_next rpc host circuits req).2 ⟨⟨v, hnext⟩, hsaved⟩
    exact happ (hheld (not_not.1 hcircuit) hreach)
  · intro hcond hcircuit hreach
    obtain ⟨⟨v, hv⟩, hsaved⟩ := (handle_eq_next rpc host circuits req).1 hreach
    obtain ⟨hguarded, hissuer⟩ := (validate_eq_next rpc.codes host circuits req v).1 hv
    rcases hcond with hrpc | hother | hstopped | happ
    · obtain ⟨jsonData, _, hjson, hsegments, -⟩ := hguarded.input
      exact ⟨jsonData, v.jwtSegments, hjson, hsegments,
        hissuer ((checksIssuer_iff rpc).2 hrpc) ((restricted_iff req.Temp).2 hcircuit)⟩
    · exact absurd hcircuit hother
    · exact absurd ⟨⟨v, hguarded⟩, hsaved⟩ hstopped
    · exact happ

/-- **A request without a token** for a restricted circuit gets through
`ProveNosha256`. -/
theorem issuer_unchecked :
    ¬IssuerHeld .ProveNosha256 (hostOf [(requestText [] [], requestData [] [])] [])
      (Dict.empty.set "10007" ()) ⟨requestText [] [], "10007", 0⟩ := by
  intro hheld
  have hguarded := @guarded_hostOf proveNosha256Codes [] [] [] [] "10007" 0
    (Slice.subslice_zero_ok (by decide +kernel))
  have hreach := (handle_eq_next .ProveNosha256 _ _ _).2
    ⟨⟨_, (validate_eq_next _ _ _ _ _).2 ⟨hguarded, fun hc => absurd hc (by decide)⟩⟩, (), rfl⟩
  obtain ⟨jsonData, segments, hjson, hsegments, token, -, -, -, htoken, -⟩ :=
    hheld (Or.inl rfl) hreach
  have hdata : jsonData = requestData [] [] :=
    Except.ok.inj (hjson.symm.trans (hostOf_unmarshal _ _ [] []))
  have hempty : segments = [] := by
    rw [hdata] at hsegments
    exact List.map_eq_nil_iff.1 (GoValue.slice.inj hsegments).symm
  rw [hempty] at htoken
  cases htoken

/-! ## Panics -/

/-- Every code is one of a failure. -/
structure Codes.Failing (codes : Codes) : Prop where
  circuitNotFound : codes.circuitNotFound ≠ 0
  noDevices : codes.noDevices ≠ some 0
  jsonFormat : codes.jsonFormat ≠ 0
  invalidInput : codes.invalidInput ≠ 0
  sha256NotMatch : codes.sha256NotMatch ≠ 0
  notSaved : codes.notSaved ≠ 0

theorem failing (rpc : Rpc) : rpc.codes.Failing := by
  cases rpc <;> constructor <;> decide

/-- The token has a second part. -/
theorem part_iff (token : List UInt8) :
    (∃ part, (token.splitOn dot)[1]? = some part) ↔ dot ∈ token := by
  constructor
  · rintro ⟨part, hpart⟩
    by_contra hnot
    rw [List.splitOn_eq_singleton hnot] at hpart
    cases hpart
  · intro hmem
    obtain ⟨before, after, rfl⟩ := List.append_of_mem hmem
    have hbefore := List.length_pos_of_ne_nil (List.splitOn_ne_nil dot before)
    have hafter := List.length_pos_of_ne_nil (List.splitOn_ne_nil dot after)
    have hlen : 1 < ((before ++ dot :: after).splitOn dot).length := by
      rw [List.splitOn_append_cons_self, List.length_append]
      omega
    exact ⟨_, List.getElem?_eq_getElem hlen⟩

/-- Some answer of a failure, or a step further. -/
def Answers {α : Type} (x : Reply Response α) : Prop :=
  x.Ends (fun r => r.Code ≠ 0) (fun _ => True)

theorem checkDevice_ends {codes : Codes} (hf : codes.Failing) (host : Host) :
    Answers (checkDevice codes host) := by
  unfold Answers checkDevice
  cases host.build with
  | cpu => simp
  | gpu =>
      cases hcode : codes.noDevices with
      | none => simp
      | some code =>
          have hne : code ≠ 0 := by
            rintro rfl
            exact hf.noDevices hcode
          simp [hne]

theorem checkIssuer_ends {codes : Codes} (hf : codes.Failing) (host : Host)
    (segments : List (List String)) :
    Answers (checkIssuer codes host segments) ↔
      ∀ token, reconstructJWTFromSegments segments = .ok token → token ≠ [] →
        dot ∈ token := by
  have hindex : ∀ (token : List UInt8) (Q : List UInt8 → Prop),
      ((Slice.ofList (token.splitOn dot)).index 1).Returns Q ↔
        ∃ part, (token.splitOn dot)[1]? = some part ∧ Q part :=
    fun token Q => Slice.index_ofList_returns (token.splitOn dot) 1
  simp [Answers, checkIssuer, hindex, hf.invalidInput, hf.jsonFormat, part_iff]

/-- The handler checks the token of the request. -/
def Checked (rpc : Rpc) (req : ProveNosha256Request) : Prop :=
  (rpc = .ProveV2 ∨ rpc = .ProveNosha256Offchain) ∧ (req.Temp = "10007" ∨ req.Temp = "10008")

theorem guardIssuer_ends (rpc : Rpc) (host : Host) (req : ProveNosha256Request)
    (segments : List (List String)) {Q : Unit → Prop} :
    (guardIssuer rpc.codes host req.Temp segments).Ends (fun r => r.Code ≠ 0) Q ↔
      (Checked rpc req → ∀ token, reconstructJWTFromSegments segments = .ok token →
        token ≠ [] → dot ∈ token) ∧
      ((Checked rpc req → IssuerAccepted host segments) → Q ()) := by
  have hchecked : Checked rpc req ↔ rpc.codes.checksIssuer ∧ restricted req.Temp := by
    rw [Checked, checksIssuer_iff, restricted_iff]
  rw [hchecked, ← checkIssuer_ends (failing rpc) host segments, Reply.ends_unit_iff,
    guardIssuer_eq_next]
  simp only [Answers, guardIssuer]
  cases rpc.codes.checksIssuer <;> cases restricted req.Temp <;> simp

/-- What has to be so about a request that gets as far as an unchecked
conversion: all rows and cells are strings, a checked token has a dot, and the
length lies within the capacity of the merged bytes. -/
def Safe (rpc : Rpc) (host : Host) (circuits : Dict String C)
    (req : ProveNosha256Request) : Prop :=
  ∀ circuitData jsonData jwtSegments, circuits.get? req.Temp = some circuitData →
    checkDevice rpc.codes host = .next () → 1 < req.Input.length →
    host.unmarshal req.Input = .ok jsonData →
    GoValue.lookup jsonData "jwt_segments" = .slice jwtSegments →
    ∃ segments : List (List String),
      jwtSegments = segments.map (fun row => .slice (row.map .str)) ∧
      (Checked rpc req → ∀ token, reconstructJWTFromSegments segments = .ok token →
        token ≠ [] → dot ∈ token) ∧
      ((Checked rpc req → IssuerAccepted host segments) → ∀ jwtSha256,
        GoValue.lookup jsonData "jwt_sha256" = .slice jwtSha256 →
        (∃ cells : List String, jwtSha256 = cells.map .str) ∧
          0 ≤ req.Length.toInt ∧ req.Length.toInt ≤ host.growth.cap segments.flatten.length)

/-- **A request is validated without a panic** exactly when it is safe: every
other way out is a response with the code of a failure. -/
theorem validates_iff (rpc : Rpc) (host : Host) (circuits : Dict String C)
    (req : ProveNosha256Request) :
    Answers (handle rpc host circuits req) ↔ Safe rpc host circuits req := by
  have hf := failing rpc
  have hdevice : ∀ Q : Unit → Prop,
      (checkDevice rpc.codes host).Ends (fun r => r.Code ≠ 0) Q ↔
        (checkDevice rpc.codes host = .next () → Q ()) := by
    intro Q
    rw [Reply.ends_unit_iff]
    exact and_iff_right (checkDevice_ends hf host)
  have hmessage : ∀ (segments : List (List String)) (jwtSha256 : List GoValue),
      ((convertToBinaryString jwtSha256).Returns fun _ =>
        ((mergeJWT host.growth segments).subslice 0 req.Length.toInt).Returns
          fun _ => True) ↔
      (∃ cells : List String, jwtSha256 = cells.map .str) ∧
        0 ≤ req.Length.toInt ∧ req.Length.toInt ≤ host.growth.cap segments.flatten.length := by
    intro segments jwtSha256
    rw [Go.returns_const, convertToBinaryString_returns, Slice.subslice_returns, mergeJWT,
      Slice.cap_appended, List.length_map]
    simp
  rw [handle_eq]
  simp only [Answers, prove, validate, Reply.ends_bind, Reply.ends_ofOption,
    Reply.ends_ofExcept, Reply.ends_require, Reply.ends_ofGo, guardIssuer_ends,
    Reply.pure_eq, Reply.ends_next, hdevice, hmessage, ne_eq, hf.circuitNotFound,
    hf.jsonFormat, hf.invalidInput, hf.sha256NotMatch, hf.notSaved, not_false_eq_true,
    implies_true, true_and, and_true, GoValue.slice?_eq_some, GoValue.assertRows_returns]
  constructor
  · intro h circuitData jsonData jwtSegments hcircuit hfree hlong hjson hsegments
    exact (h circuitData hcircuit hfree).2 hlong jsonData hjson jwtSegments hsegments
  · intro hsafe circuitData hcircuit hfree
    refine ⟨fun _ => by decide, ?_⟩
    intro hlong jsonData hjson jwtSegments hsegments
    exact hsafe circuitData jsonData jwtSegments hcircuit hfree hlong hjson hsegments

/-- A request with a number in place of a row. -/
def numberText : List UInt8 := ascii "\x7b\"jwt_segments\":[1]\x7d"

def numberHost : Host :=
  hostOf [(numberText, [("jwt_segments", .slice [.float 1])])] []

/-- **A number in place of a row** ends the server. -/
theorem number_segment_panics :
    handle .ProveV2 numberHost (Dict.empty.set "10007" ()) ⟨numberText, "10007", 0⟩ =
      .halt .typeAssertion ∧
    ¬Answers (handle .ProveV2 numberHost (Dict.empty.set "10007" ())
      ⟨numberText, "10007", 0⟩) := by
  have hhalt : handle .ProveV2 numberHost (Dict.empty.set "10007" ())
      ⟨numberText, "10007", 0⟩ = .halt .typeAssertion := by
    decide +kernel
  refine ⟨hhalt, ?_⟩
  rw [hhalt]
  exact Reply.ends_halt _

end ProverNetwork.Ports.CircomProver
