import Mathlib.Algebra.Group.Nat.Defs
import ProverNetwork.Ports.Constant
import ProverNetwork.Ports.OAuthProvider

/-!
# The prove service of the node

Four entry points of `ProveServiceV1` and one of `ProveServiceV2` share a
sequence: decrypt, validate the task, call a prover.  An entry point has its
own prover call, its own exempt templates and, in V2, a second prover.

The world of a call is the providers with their keys and the log of what the
service did; libraries, files and replies belong to the environment.

## Main results

* `validate_events`, `validate_yes` — what the validation leaves in the log.
* `circomRpc_verified` — the OAuth gate.
* `tiga_unverified` — a task type that goes around it.
-/

namespace ProverNetwork.Ports.ProveService

open ProverNetwork.Verified

inductive CircomRpc
  | prove
  | proveNosha256
  | proveNosha256WithWitness
  | proveNosha256Offchain
  | proveV2
  deriving DecidableEq

inductive PrivateRpc
  | proveTigaOffchain
  | proveBinanceOffchain
  | proveMerkleOffchain
  deriving DecidableEq

/-- What the service did, in order. -/
inductive Event
  | verify (provider input_data : String) (result : Bool)
  | circomRpc (rpc : CircomRpc) (input_data circuit_template_id : String)
  | privateRpc (rpc : PrivateRpc) (input_data circuit_template_id : String)
  deriving DecidableEq

structure World where
  oauth_provider : Dict String Provider
  events : List Event

/-- The parts of a prover's reply that every prover sends. -/
structure ProverResult where
  code : Int
  msg : String
  deriving DecidableEq

structure Env where
  libs : Libs
  /-- the private key file, where there is one -/
  privateKey : Option String
  /-- `RSAEncryption(private_key=..).decrypt(..)`, `none` for `False` -/
  decrypt : String → String → Except PyError (Option String)
  /-- the outcome of a provider's `update_jwks` -/
  refresh : String → Except PyError (List Jwk)
  template_provider_map : PyVal
  circom : CircomRpc → String → String → Option Int → Except PyError ProverResult
  private_ : PrivateRpc → String → String → Except PyError ProverResult
  /-- a value in an f-string -/
  format : PyVal → String

structure ProveCall where
  method : Int
  prover_id : String
  circuit_template_id : String
  input_data : String
  is_encrypted : Bool
  length : Int
  oauth_provider : String

inductive Result
  | refused (code : Int) (msg : String)
  | replied (reply : ProverResult)
  deriving DecidableEq

/-- What the entry points differ in. -/
structure EntryPoint where
  rpc : CircomRpc
  length : Bool
  /-- the templates whose TIGA tasks are not looked at -/
  exempt : List String
  /-- `rpc_map` of the private prover -/
  rpcMap : Option (List (String × PrivateRpc))

/-! ## The shared sequence -/

/-- `_process_input`.  A key file that is there and cannot be read or loaded is a key that
`decrypt` raises for. -/
def processInput (env : Env) (input_data : String) (is_encrypted : Bool) :
    Except PyError (Ok × String) :=
  if is_encrypted then
    match env.privateKey with
    | none => .ok (.code STATUS_CODE_PRIVATE_KEY_NOT_FOUND, "Private key file not found")
    | some private_key =>
        match env.decrypt private_key input_data with
        | .error e => .error e
        | .ok decrypted =>
            if decrypted.getD "" = "" then
              .ok (.code STATUS_CODE_PRIVATE_KEY_INVALID,
                "Decryption failed with provided private key")
            else .ok (.yes, decrypted.getD "")
  else .ok (.yes, input_data)

/-- `self.oauth_provider.get(..)`, whose keys are strings. -/
def getProvider (w : World) : PyVal → Except PyError (Option (String × Provider))
  | .str name => .ok ((w.oauth_provider.get? name).map (fun p => (name, p)))
  | .list _ => .error .typeError
  | .dict _ => .error .typeError
  | _ => .ok none

/-- `verify` of a provider, which may change the keys it holds. -/
def verifyWith (env : Env) (name : String) (p : Provider) (input_data : String)
    (w : World) : Except PyError Bool × World :=
  match p.verify env.libs (env.refresh name) input_data with
  | (.error e, p) => (.error e, { w with oauth_provider := w.oauth_provider.set name p })
  | (.ok result, p) =>
      (.ok result, { oauth_provider := w.oauth_provider.set name p
                     events := w.events ++ [.verify name input_data result] })

/-- The zkLogin branch of `_validate_task_type_and_input`. -/
def validateZkLogin (env : Env) (call : ProveCall) (input_data : String) (w : World) :
    Except PyError (Ok × String) × World :=
  match resolveProvider env.template_provider_map call.circuit_template_id with
  | .error e => (.error e, w)
  | .ok specify_provider =>
      let oauth_provider :=
        if specify_provider.truthy then specify_provider else .str call.oauth_provider
      match getProvider w oauth_provider with
      | .error e => (.error e, w)
      | .ok none =>
          (.ok (.code STATUS_CODE_UNSUPPORT_OAUTH_PROVIDER,
            "OAuth provider '" ++ env.format oauth_provider ++ "' not found"), w)
      | .ok (some (name, p)) =>
          match verifyWith env name p input_data w with
          | (.error e, w) => (.error e, w)
          | (.ok false, w) =>
              (.ok (.code STATUS_CODE_UNAUTHORIZED_PAYLOAD,
                "Verification failed due to invalid input data"), w)
          | (.ok true, w) => (.ok (.yes, ""), w)

/-- The TIGA branch; the member it asks for is `modules`. -/
def validateTiga (entry : EntryPoint) (env : Env) (call : ProveCall) (input_data : String) :
    Except PyError (Ok × String) :=
  if call.circuit_template_id ∈ entry.exempt then .ok (.yes, "")
  else
    match env.libs.loads input_data with
    | none => .error .valueError
    | some (.dict members) =>
        if ((Dict.lookup "modules" members).getD .none).truthy then
          .ok (.code STATUS_CODE_UNAUTHORIZED_PAYLOAD,
            "Data is invalid, please check the input data")
        else .ok (.yes, "")
    | some _ => .error .attributeError

/-- `_validate_task_type_and_input`. -/
def validateTaskTypeAndInput (entry : EntryPoint) (env : Env) (call : ProveCall)
    (input_data : String) (w : World) : Except PyError (Ok × String) × World :=
  if call.method = TASK_TYPE_ZKLOGIN then validateZkLogin env call input_data w
  else if call.method = TASK_TYPE_TIGA then (validateTiga entry env call input_data, w)
  else
    (.ok (.code STATUS_CODE_UNSUPPORT_TASK_TYPE,
      "Task '" ++ toString call.method ++
        "' is not supported. Please choose a supported method"), w)

/-- A prover call: only `NotImplementedError` is caught. -/
def issue (w : World) (event : Event) (reply : Except PyError ProverResult) :
    Except PyError Result × World :=
  let w := { w with events := w.events ++ [event] }
  match reply with
  | .ok r => (.ok (.replied r), w)
  | .error (.notImplemented msg) => (.ok (.refused STATUS_CODE_ERROR msg), w)
  | .error e => (.error e, w)

/-- The choice of the prover. -/
def callProver (entry : EntryPoint) (env : Env) (call : ProveCall) (input_data : String)
    (w : World) : Except PyError Result × World :=
  if call.prover_id = PROVER_CIRCOM then
    issue w (.circomRpc entry.rpc input_data call.circuit_template_id)
      (env.circom entry.rpc input_data call.circuit_template_id
        (if entry.length then some call.length else none))
  else
    match entry.rpcMap with
    | none => (.ok (.refused STATUS_CODE_UNSUPPORT_PROVER "Prover not match"), w)
    | some rpc_map =>
        if call.prover_id = PROVER_PRIVATE then
          match rpc_map.lookup call.circuit_template_id with
          | none =>
              (.ok (.refused STATUS_CODE_UNSUPPORT_TASK_TYPE
                ("Unsupported circuit_template_id: " ++ call.circuit_template_id)), w)
          | some rpc_func =>
              issue w (.privateRpc rpc_func input_data call.circuit_template_id)
                (env.private_ rpc_func input_data call.circuit_template_id)
        else (.ok (.refused STATUS_CODE_UNSUPPORT_PROVER "Prover not match"), w)

/-- An entry point, up to the reply of the prover. -/
def serve (entry : EntryPoint) (env : Env) (call : ProveCall) (w : World) :
    Except PyError Result × World :=
  match processInput env call.input_data call.is_encrypted with
  | .error e => (.error e, w)
  | .ok (.code ok, msg) => (.ok (.refused ok msg), w)
  | .ok (.yes, input_data) =>
      match validateTaskTypeAndInput entry env call input_data w with
      | (.error e, w) => (.error e, w)
      | (.ok (.code ok, msg), w) => (.ok (.refused ok msg), w)
      | (.ok (.yes, _), w) => callProver entry env call input_data w

/-! ## The entry points -/

def exemptV1 : List String := ["10006", "10005"]

def exemptV2 : List String := ["10006", "10005", "10010"]

def rpcMapV2 : List (String × PrivateRpc) :=
  [("10005", .proveTigaOffchain), ("10006", .proveBinanceOffchain),
    ("10010", .proveMerkleOffchain)]

/-- `ProveServiceV1.prove`. -/
def proveV1 : EntryPoint := ⟨.prove, false, exemptV1, none⟩

/-- `ProveServiceV1.prove_nosha256`. -/
def proveNosha256V1 : EntryPoint := ⟨.proveNosha256, true, exemptV1, none⟩

/-- `ProveServiceV1.prove_nosha256_with_witness`. -/
def proveNosha256WithWitnessV1 : EntryPoint := ⟨.proveNosha256WithWitness, true, exemptV1, none⟩

/-- `ProveServiceV1.prove_nosha256_offchain`. -/
def proveNosha256OffchainV1 : EntryPoint := ⟨.proveNosha256Offchain, true, exemptV1, none⟩

/-- `ProveServiceV2.prove`. -/
def proveV2 : EntryPoint := ⟨.proveV2, true, exemptV2, some rpcMapV2⟩

/-! ## What the validation leaves in the log -/

/-- The payload was accepted, and by the bound provider where there is one. -/
def Accepted (env : Env) (circuit_template_id input_data : String) (events : List Event) :
    Prop :=
  ∃ name, .verify name input_data true ∈ events ∧
    ∀ bound, Binds env.template_provider_map circuit_template_id bound → name = bound

theorem verifyWith_events {env : Env} {name : String} {p : Provider} {input_data : String}
    {w w' : World} {r : Except PyError Bool}
    (h : verifyWith env name p input_data w = (r, w')) :
    (∃ e, r = .error e ∧ w'.events = w.events) ∨
    ∃ result, r = .ok result ∧
      w'.events = w.events ++ [.verify name input_data result] := by
  unfold verifyWith at h
  split at h
  · obtain ⟨rfl, rfl⟩ := Prod.mk.inj h
    exact Or.inl ⟨_, rfl, rfl⟩
  · obtain ⟨rfl, rfl⟩ := Prod.mk.inj h
    exact Or.inr ⟨_, rfl, rfl⟩

theorem getProvider_str {w : World} {v : PyVal} {name : String} {p : Provider}
    (h : getProvider w v = .ok (some (name, p))) : v = .str name := by
  cases v with
  | str s =>
      simp only [getProvider, Except.ok.injEq, Option.map_eq_some_iff, Prod.mk.injEq] at h
      obtain ⟨_, _, hname, _⟩ := h
      rw [hname]
  | _ => simp [getProvider] at h

/-- The provider that is asked is the bound one, where there is one. -/
theorem asked_is_bound {env : Env} {template name bound caller : String} {specified : PyVal}
    (h : resolveProvider env.template_provider_map template = .ok specified)
    (hname : (if specified.truthy then specified else .str caller) = .str name)
    (hbound : Binds env.template_provider_map template bound) : name = bound := by
  have hspecified : specified = .str bound := Except.ok.inj (h.symm.trans hbound.1)
  have htruthy : (PyVal.str bound).truthy = true := by
    simpa [PyVal.truthy] using hbound.2
  rw [hspecified, if_pos htruthy] at hname
  exact (PyVal.str.inj hname).symm

theorem validateZkLogin_events {env : Env} {call : ProveCall} {input_data : String}
    {w w' : World} {r : Except PyError (Ok × String)}
    (h : validateZkLogin env call input_data w = (r, w')) :
    ∃ vs, w'.events = w.events ++ vs ∧ (∀ e ∈ vs, ∃ name b, e = .verify name input_data b) ∧
      ∀ msg, r = .ok (.yes, msg) → Accepted env call.circuit_template_id input_data vs := by
  unfold validateZkLogin at h
  split at h
  · obtain ⟨rfl, rfl⟩ := Prod.mk.inj h
    exact ⟨[], by simp⟩
  next specified hspecified =>
    simp only at h
    split at h
    · obtain ⟨rfl, rfl⟩ := Prod.mk.inj h
      exact ⟨[], by simp⟩
    · obtain ⟨rfl, rfl⟩ := Prod.mk.inj h
      exact ⟨[], by simp⟩
    next name p hprovider =>
      have hname := getProvider_str hprovider
      split at h
      next hverify =>
        obtain ⟨rfl, rfl⟩ := Prod.mk.inj h
        rcases verifyWith_events hverify with ⟨_, _, hevents⟩ | ⟨_, hr, _⟩
        · exact ⟨[], by simp [hevents]⟩
        · cases hr
      next hverify =>
        obtain ⟨rfl, rfl⟩ := Prod.mk.inj h
        rcases verifyWith_events hverify with ⟨_, hr, _⟩ | ⟨b, _, hevents⟩
        · cases hr
        · exact ⟨_, hevents, fun e he => ⟨name, b, List.mem_singleton.1 he⟩, by simp⟩
      next hverify =>
        obtain ⟨rfl, rfl⟩ := Prod.mk.inj h
        rcases verifyWith_events hverify with ⟨_, hr, _⟩ | ⟨b, hr, hevents⟩
        · cases hr
        · cases hr
          refine ⟨_, hevents, fun e he => ⟨name, true, List.mem_singleton.1 he⟩,
            fun _ _ => ⟨name, List.mem_singleton_self _, ?_⟩⟩
          intro bound hbound
          exact asked_is_bound hspecified hname hbound

/-- **What the validation leaves in the log**: verifications of the payload, one
of them with success where the task is a zkLogin task that passes. -/
theorem validate_events {entry : EntryPoint} {env : Env} {call : ProveCall}
    {input_data : String} {w w' : World} {r : Except PyError (Ok × String)}
    (h : validateTaskTypeAndInput entry env call input_data w = (r, w')) :
    ∃ vs, w'.events = w.events ++ vs ∧ (∀ e ∈ vs, ∃ name b, e = .verify name input_data b) ∧
      ∀ msg, r = .ok (.yes, msg) → call.method = TASK_TYPE_TIGA ∨
        Accepted env call.circuit_template_id input_data vs := by
  unfold validateTaskTypeAndInput at h
  split at h
  · obtain ⟨vs, hevents, hverify, hyes⟩ := validateZkLogin_events h
    exact ⟨vs, hevents, hverify, fun msg hr => Or.inr (hyes msg hr)⟩
  · split at h
    case isTrue htiga =>
      obtain ⟨-, rfl⟩ := Prod.mk.inj h
      exact ⟨[], by simp, by simp, fun _ _ => Or.inl htiga⟩
    case isFalse =>
      obtain ⟨rfl, rfl⟩ := Prod.mk.inj h
      exact ⟨[], by simp⟩

/-! ## The gate -/

theorem issue_events {w w' : World} {event : Event} {reply : Except PyError ProverResult}
    {r : Except PyError Result} (h : issue w event reply = (r, w')) :
    w'.events = w.events ++ [event] := by
  unfold issue at h
  simp only at h
  split at h <;> (obtain ⟨-, rfl⟩ := Prod.mk.inj h; rfl)

theorem callProver_events {entry : EntryPoint} {env : Env} {call : ProveCall}
    {input_data : String} {w w' : World} {r : Except PyError Result}
    (h : callProver entry env call input_data w = (r, w')) :
    w' = w ∨ w'.events = w.events ++
        [.circomRpc entry.rpc input_data call.circuit_template_id] ∨
      ∃ rpc, w'.events = w.events ++
        [.privateRpc rpc input_data call.circuit_template_id] := by
  unfold callProver at h
  split at h
  · exact Or.inr (Or.inl (issue_events h))
  · split at h
    · exact Or.inl (Prod.mk.inj h).2.symm
    · split at h
      · split at h
        · exact Or.inl (Prod.mk.inj h).2.symm
        next rpc _ => exact Or.inr (Or.inr ⟨rpc, issue_events h⟩)
      · exact Or.inl (Prod.mk.inj h).2.symm

/-- **What a call leaves in the log**: verifications of one payload, then at most
one call of a prover, on a payload that was accepted or belongs to a TIGA task. -/
theorem serve_events {entry : EntryPoint} {env : Env} {call : ProveCall} {w w' : World}
    {r : Except PyError Result} (h : serve entry env call w = (r, w')) :
    ∃ input_data vs, (∀ e ∈ vs, ∃ name b, e = .verify name input_data b) ∧
      (w'.events = w.events ++ vs ∨
        (call.method = TASK_TYPE_TIGA ∨
          Accepted env call.circuit_template_id input_data vs) ∧
        (w'.events = w.events ++ (vs ++
            [.circomRpc entry.rpc input_data call.circuit_template_id]) ∨
          ∃ rpc, w'.events = w.events ++ (vs ++
            [.privateRpc rpc input_data call.circuit_template_id]))) := by
  unfold serve at h
  split at h
  · exact ⟨"", [], by simp, Or.inl (by rw [← (Prod.mk.inj h).2, List.append_nil])⟩
  · exact ⟨"", [], by simp, Or.inl (by rw [← (Prod.mk.inj h).2, List.append_nil])⟩
  next input_data _ =>
    split at h
    next hvalidate =>
      obtain ⟨vs, hevents, hverify, -⟩ := validate_events hvalidate
      exact ⟨input_data, vs, hverify, Or.inl (by rw [← (Prod.mk.inj h).2, hevents])⟩
    next hvalidate =>
      obtain ⟨vs, hevents, hverify, -⟩ := validate_events hvalidate
      exact ⟨input_data, vs, hverify, Or.inl (by rw [← (Prod.mk.inj h).2, hevents])⟩
    next hvalidate =>
      obtain ⟨vs, hevents, hverify, hyes⟩ := validate_events hvalidate
      refine ⟨input_data, vs, hverify, ?_⟩
      rcases callProver_events h with heq | hcircom | ⟨rpc, hprivate⟩
      · exact Or.inl (by rw [heq, hevents])
      · exact Or.inr ⟨hyes _ rfl, Or.inl (by rw [hcircom, hevents, List.append_assoc])⟩
      · exact Or.inr ⟨hyes _ rfl, Or.inr ⟨rpc, by rw [hprivate, hevents, List.append_assoc]⟩⟩

/-- An item that is not in `vs` can only be the last one of `vs ++ [b]`. -/
theorem split_at_last {α : Type} {pre post vs : List α} {a b : α} (hnot : a ∉ vs)
    (h : pre ++ a :: post = vs ++ [b]) : pre = vs ∧ a = b := by
  rcases List.eq_nil_or_concat post with rfl | ⟨post', c, rfl⟩
  · have hinj := List.append_inj' h rfl
    exact ⟨hinj.1, (List.cons.inj hinj.2).1⟩
  · rw [List.concat_eq_append, ← List.cons_append, ← List.append_assoc] at h
    have hvs := (List.append_inj' h rfl).1
    rw [← hvs] at hnot
    exact absurd (List.mem_append_right pre List.mem_cons_self) hnot

/-- **The OAuth gate**: a circom prover is called on a payload only after a
provider accepted it, the bound one where the template is bound, except by
TIGA tasks. -/
theorem circomRpc_verified {entry : EntryPoint} {env : Env} {call : ProveCall}
    {w w' : World} {r : Except PyError Result} {rpc : CircomRpc}
    {input_data template : String} {pre post : List Event}
    (h : serve entry env call w = (r, w'))
    (hissued : w'.events =
      w.events ++ (pre ++ .circomRpc rpc input_data template :: post)) :
    call.method = TASK_TYPE_TIGA ∨ ∃ name, .verify name input_data true ∈ pre ∧
      ∀ bound, Binds env.template_provider_map template bound → name = bound := by
  obtain ⟨payload, vs, hverify, hcases⟩ := serve_events h
  have hnot : .circomRpc rpc input_data template ∉ vs := by
    intro hmem
    obtain ⟨_, _, heq⟩ := hverify _ hmem
    cases heq
  rcases hcases with hnone | ⟨haccepted, hcircom | ⟨rpc', hprivate⟩⟩
  · rw [hnone] at hissued
    rw [List.append_cancel_left hissued] at hnot
    exact absurd (List.mem_append_right pre List.mem_cons_self) hnot
  · rw [hcircom] at hissued
    obtain ⟨rfl, hevent⟩ := split_at_last hnot (List.append_cancel_left hissued).symm
    cases hevent
    exact haccepted
  · rw [hprivate] at hissued
    obtain ⟨-, hevent⟩ := split_at_last hnot (List.append_cancel_left hissued).symm
    cases hevent

/-! ## Two calls -/

/-- The providers that the node's configuration binds. -/
def templateProviderMap : PyVal :=
  .dict [("10007", .str "x509_google"), ("10008", .str "x509_google")]

/-- A 2048-bit modulus, and its JWK. -/
def keyModulus : Nat := 2 ^ 2047 + 1

def key : Jwk where
  kty := "RSA"
  kid := "1"
  alg := "RS256"
  use := "sig"
  n := "g" ++ String.ofList (List.replicate 340 'A') ++ "Q"
  e := "AQAB"

def keyProvider : Provider := ⟨121, 17, some [key]⟩

/-- The text of a payload with the given limbs. -/
def payloadText (limbs : List String) : String :=
  "\x7b\"modulus\": [" ++ ", ".intercalate (limbs.map (fun s => "\"" ++ s ++ "\"")) ++ "]\x7d"

/-- An environment that decodes one payload and one key. -/
def payloadEnv (limbs : List String) : Env where
  libs :=
    { loads := fun s =>
        if s = payloadText limbs then some (.dict [("modulus", .list (limbs.map .str))])
        else none
      publicModulus := fun jwk => if jwk = key then .ok keyModulus else .error .valueError }
  privateKey := none
  decrypt _ _ := .ok none
  refresh _ := .error (.clientError "Cannot connect to host")
  template_provider_map := templateProviderMap
  circom _ _ _ _ := .ok ⟨0, "Successfully"⟩
  private_ _ _ _ := .ok ⟨0, "Successfully"⟩
  format v := match v with
    | .str s => s
    | _ => ""

def keyLimbs : List String := keyProvider.toCircomBigintBytes keyModulus

/-- A zkLogin call for a bound template, by a caller that names another
provider. -/
def boundCall : ProveCall where
  method := TASK_TYPE_ZKLOGIN
  prover_id := "circom"
  circuit_template_id := "10007"
  input_data := payloadText keyLimbs
  is_encrypted := false
  length := 0
  oauth_provider := "google"

def boundWorld : World := ⟨Dict.empty.set "x509_google" keyProvider, []⟩

theorem circomRpc_verified_bound :
    boundCall.method = TASK_TYPE_TIGA ∨
      ∃ name, .verify name (payloadText keyLimbs) true ∈
          [Event.verify "x509_google" (payloadText keyLimbs) true] ∧
        ∀ bound, Binds templateProviderMap "10007" bound → name = bound :=
  @circomRpc_verified proveNosha256V1 (payloadEnv keyLimbs) boundCall boundWorld
    (serve proveNosha256V1 (payloadEnv keyLimbs) boundCall boundWorld).2
    (serve proveNosha256V1 (payloadEnv keyLimbs) boundCall boundWorld).1
    .proveNosha256 (payloadText keyLimbs) "10007"
    [.verify "x509_google" (payloadText keyLimbs) true] [] (Prod.eta _).symm
    (by decide +kernel)

/-- A TIGA call for an exempt template, with a zkLogin payload. -/
def tigaCall : ProveCall where
  method := TASK_TYPE_TIGA
  prover_id := "circom"
  circuit_template_id := "10005"
  input_data := payloadText ["1"]
  is_encrypted := false
  length := 0
  oauth_provider := "google"

/-- **A TIGA task goes around the gate**: the prover gets a payload with a
`modulus` that no provider has seen. -/
theorem tiga_unverified :
    (serve proveV1 (payloadEnv ["1"]) tigaCall boundWorld).2.events =
        [.circomRpc .prove (payloadText ["1"]) "10005"] ∧
      ((payloadEnv ["1"]).libs.loads (payloadText ["1"])).bind (fun v => v.item? "modulus") =
        some (.list [.str "1"]) := by
  refine ⟨by decide +kernel, ?_⟩
  have hloads : (payloadEnv ["1"]).libs.loads (payloadText ["1"]) =
      some (.dict [("modulus", .list [.str "1"])]) := by
    simp [payloadEnv]
  rw [hloads]
  rfl

end ProverNetwork.Ports.ProveService
