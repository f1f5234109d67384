import ProverNetwork.Ports.HubResponse
import ProverNetwork.Ports.NodeAddress
import ProverNetwork.Ports.NodeList
import ProverNetwork.Ports.RSAEncryption
import ProverNetwork.Verified.Reply
import ProverNetwork.Verified.Run

/-!
# Node registration on the hub

`hub_post_node` checks a token, loads the hub's keys, decrypts and checks the
two addresses, pings both, and registers the node.  It gives way to other
requests while it loads the keys and while it pings, so any number of
registrations are under way at a time, and the cleanup job and the readers of
the table run in between.

What loading the keys and pinging yield is arbitrary.

## Main results

* `RegisterInv` — a request that pings has passed every check before.
* `registration_gated` — what a step can do to the table and to the head of the
  chain.
-/

namespace ProverNetwork.Ports.NodeRegister

open ProverNetwork.Verified
open ProverNetwork.Verified.PyText
open ProverNetwork.Ports
open ProverNetwork.Ports.HubResponse
open ProverNetwork.Ports.NodeAddress

/-! ## Requests and answers -/

structure PostNodeRequest where
  grpc_info : String
  http_info : String

/-- The headers, with names in lower case, and the validated body. -/
structure Request where
  headers : List (String × String)
  body : PostNodeRequest

/-- What a handler ends with: a response, the refusal of a body that is no
`PostNodeRequest`, an exception, or what was read from the table. -/
inductive Answer
  | response (r : HttpResponse)
  | invalidBody
  | raises
  | nodes (selected : List (String × String × Int × String))
  | status (items : List (String × Node))
  deriving DecidableEq

def registrationDisabled : Answer :=
  .response (httpResponse SERVER_ERROR ⟨request_error.code, "Node registration is disabled"⟩
    (some "node_register_token_not_configured"))

def invalidToken : Answer :=
  .response (httpResponse UNAUTHORIZED authorized_error (some "invalid_node_register_token"))

def privateKeyNotExist : Answer :=
  .response (httpResponse SERVER_ERROR private_key_not_exist none)

def decryptionFailed : Answer :=
  .response (httpResponse INVALID_REQUEST decryption_failed none)

def argsInvalid (results : String) : Answer :=
  .response (httpResponse INVALID_REQUEST args_invalid (some results))

def requestError (results : String) : Answer :=
  .response (httpResponse SERVER_ERROR request_error (some results))

def registerFailed (results : String) : Answer :=
  .response (httpResponse INVALID_REQUEST register_failed (some results))

def registered : Answer := .response (httpResponse OK successfully none)

/-! ## The handler -/

/-- The configuration of the hub and the libraries behind it. -/
structure Setup (Ip Net Pub Priv : Type) where
  node_register_token : String
  libs : NodeAddress.Libs Ip Net
  allowed : Allowed Net
  crypto : Cryptography Pub Priv
  digest : String → String

section Handler

variable {Ip Net Pub Priv : Type} (s : Setup Ip Net Pub Priv)

/-- `request.headers.get(name, "")`. -/
def header (headers : List (String × String)) (name : String) : String :=
  ((headers.find? (fun h => h.1 = name)).map Prod.snd).getD ""

/-- `_extract_node_register_token`. -/
def extractNodeRegisterToken (headers : List (String × String)) : String :=
  let authorization := header headers "authorization"
  if "bearer ".toList.isPrefixOf (s.libs.lower authorization).toList then
    strip (String.ofList (authorization.toList.drop 7))
  else strip (header headers "x-node-token")

/-- `hmac.compare_digest` of two strings; `none` stands for the `TypeError` on
characters that are not ASCII. -/
def compareDigest (a b : String) : Option Bool :=
  if (a.toList ++ b.toList).all (fun c => c.toNat < 128) then some (a = b) else none

/-- `hub_post_node` up to the loading of the keys. -/
def receive (headers : List (String × String)) (body : Option PostNodeRequest) :
    Reply Answer Request := do
  let body ← Reply.ofOption .invalidBody body
  let expected_token := strip s.node_register_token
  Reply.require registrationDisabled (expected_token ≠ "")
  let actual_token := extractNodeRegisterToken s headers
  Reply.require invalidToken (actual_token ≠ "")
  let same ← Reply.ofOption .raises (compareDigest actual_token expected_token)
  Reply.require invalidToken (same = true)
  return ⟨headers, body⟩

/-- A check that answers with a text where it fails. -/
def passes (refusal : String → Answer) : Option String → Reply Answer Unit
  | none => .next ()
  | some error => .respond (refusal error)

/-- From the keys, `none` where they cannot be loaded, up to the pings. -/
def withKey (request : Request) (key : Option (RSAEncryption Pub Priv)) :
    Reply Answer (RSAEncryption Pub Priv × String × String) := do
  let rsa_encryption ← Reply.ofOption privateKeyNotExist key
  let grpc_info ← Reply.ofExcept decryptionFailed
    (rsa_encryption.decrypt s.crypto request.body.grpc_info)
  let http_info ← Reply.ofExcept decryptionFailed
    (rsa_encryption.decrypt s.crypto request.body.http_info)
  let grpc_info ← Reply.ofOption decryptionFailed (grpc_info.filter (fun text => text ≠ ""))
  let http_info ← Reply.ofOption decryptionFailed (http_info.filter (fun text => text ≠ ""))
  passes argsInvalid (validateGrpcAddress s.libs s.allowed grpc_info)
  passes argsInvalid (validateHttpAddress s.libs s.allowed http_info)
  return (rsa_encryption, grpc_info, http_info)

/-- `combined_error`. -/
def combinedError (grpc_success http_success : Bool) : String :=
  " ".intercalate ((if grpc_success then [] else ["gRPC server is unreachable."]) ++
    (if http_success then [] else ["HTTP server is unreachable."]))

/-- From the pings, an exception or whether each succeeded, up to `add`. -/
def withPings : Except String (Bool × Bool) → Reply Answer Unit
  | .error error => .respond (requestError error)
  | .ok (grpc_success, http_success) =>
      if grpc_success && http_success then .next ()
      else .respond (registerFailed (combinedError grpc_success http_success))

end Handler

/-! ## Requests under way -/

/-- What a registration under way waits for, with what it has so far. -/
inductive Progress (Pub Priv : Type)
  | loadsKey (request : Request)
  | pings (request : Request) (rsa_encryption : RSAEncryption Pub Priv)
      (grpc_info http_info : String)

/-- The table, and the registrations under way. -/
structure World (ι Pub Priv : Type) where
  nodeList : NodeList
  requests : Dict ι (Progress Pub Priv)

def World.initial {ι Pub Priv : Type} : World ι Pub Priv := ⟨.init, Dict.empty⟩

/-- A registration arrives, has its keys or its pings, or is cancelled; `GET
/node` selects nodes or `GET /node/status` lists them; the cleanup job runs. -/
inductive Label (ι Pub Priv : Type)
  | post (i : ι) (headers : List (String × String)) (body : Option PostNodeRequest)
  | keyLoaded (i : ι) (key : Option (RSAEncryption Pub Priv))
  | pinged (i : ι) (outcome : Except String (Bool × Bool)) (now : ℚ)
  | cancel (i : ι)
  | getNode (sample : List String)
  | getNodeStatus
  | updateNodeList (now : ℚ)

section Steps

variable {ι Ip Net Pub Priv : Type} [DecidableEq ι] (s : Setup Ip Net Pub Priv)

/-- The request leaves, with its answer. -/
def World.leave (w : World ι Pub Priv) (i : ι) (a : Answer) :
    Option Answer × World ι Pub Priv :=
  (some a, { w with requests := w.requests.del i })

/-- A registration goes on waiting, or leaves. -/
def World.goOn (w : World ι Pub Priv) (i : ι) :
    Reply Answer (Progress Pub Priv) → Option Answer × World ι Pub Priv
  | .next p => (none, { w with requests := w.requests.set i p })
  | .respond a => w.leave i a
  | .halt _ => w.leave i .raises

/-- `add`, then the answer. -/
def World.register (w : World ι Pub Priv) (i : ι) (grpc_info http_info : String) (now : ℚ) :
    Option Answer × World ι Pub Priv :=
  World.leave { w with nodeList := w.nodeList.add s.digest grpc_info http_info now } i registered

/-- One step, with the answer of a request that ends with it. -/
def World.handle (w : World ι Pub Priv) :
    Label ι Pub Priv → Option (Option Answer × World ι Pub Priv)
  | .post i headers body =>
      if (w.requests.get? i).isSome then none
      else some (w.goOn i (receive s headers body >>= fun request => .next (.loadsKey request)))
  | .keyLoaded i key =>
      match w.requests.get? i with
      | some (.loadsKey request) =>
          some (w.goOn i (withKey s request key >>= fun (rsa, grpc_info, http_info) =>
            .next (.pings request rsa grpc_info http_info)))
      | _ => none
  | .pinged i outcome now =>
      match w.requests.get? i with
      | some (.pings _ _ grpc_info http_info) =>
          match withPings outcome with
          | .next _ => some (w.register s i grpc_info http_info now)
          | .respond a => some (w.leave i a)
          | .halt _ => some (w.leave i .raises)
      | _ => none
  | .cancel i =>
      if (w.requests.get? i).isSome then some (none, { w with requests := w.requests.del i })
      else none
  | .getNode sample => some (some (.nodes (w.nodeList.getNode 4 sample)), w)
  | .getNodeStatus => some (some (.status w.nodeList.nodes.items), w)
  | .updateNodeList now =>
      some (none, { w with nodeList := (w.nodeList.setTimeout 600).removeInactiveNodes now })

def World.step (w : World ι Pub Priv) (label : Label ι Pub Priv) : Option (World ι Pub Priv) :=
  (w.handle s label).map Prod.snd

/-- The answer that ends a request with the step. -/
def World.answer (w : World ι Pub Priv) (label : Label ι Pub Priv) : Option Answer :=
  (w.handle s label).bind Prod.fst

/-! ## What has been checked -/

/-- The token of the request is the configured one, which is not empty. -/
structure Authorized (request : Request) : Prop where
  configured : strip s.node_register_token ≠ ""
  token : extractNodeRegisterToken s request.headers = strip s.node_register_token

/-- The request is authorized, and its ciphertexts decrypt to two addresses that
are not empty and pass their checks. -/
structure Admitted (request : Request) (rsa : RSAEncryption Pub Priv) (g h : String) : Prop where
  authorized : Authorized s request
  grpc_decrypts : rsa.decrypt s.crypto request.body.grpc_info = .ok (some g)
  http_decrypts : rsa.decrypt s.crypto request.body.http_info = .ok (some h)
  grpc_nonempty : g ≠ ""
  http_nonempty : h ≠ ""
  grpc_valid : validateGrpcAddress s.libs s.allowed g = none
  http_valid : validateHttpAddress s.libs s.allowed h = none

def Progress.Checked : Progress Pub Priv → Prop
  | .loadsKey request => Authorized s request
  | .pings request rsa g h => Admitted s request rsa g h

/-- Every registration under way has passed the checks before its await. -/
def RegisterInv (w : World ι Pub Priv) : Prop :=
  ∀ i p, w.requests.get? i = some p → p.Checked s

theorem response_ne_registered {status : Nat} (h : status ≠ OK) (c : Code)
    (results : Option String) : Answer.response (httpResponse status c results) ≠ registered := by
  intro heq
  have hstatus := congrArg HttpResponse.status (Answer.response.inj heq)
  rw [httpResponse_status, httpResponse_status] at hstatus
  exact h hstatus

theorem compareDigest_eq_some_true {a b : String} (h : compareDigest a b = some true) : a = b := by
  unfold compareDigest at h
  split at h
  next => simpa using h
  next => cases h

variable {s}

omit [DecidableEq ι] in
theorem receive_ends (headers : List (String × String)) (body : Option PostNodeRequest) :
    (receive s headers body).Ends (fun a => a ≠ registered) (Authorized s) := by
  simp only [receive, Reply.ends_bind, Reply.ends_ofOption, Reply.ends_require, Reply.pure_eq,
    Reply.ends_next]
  refine ⟨fun _ => by decide, fun b _ => ⟨fun _ => by decide, fun hconfigured =>
    ⟨fun _ => by decide, fun _ => ⟨fun _ => by decide, fun same hsame =>
      ⟨fun _ => by decide, ?_⟩⟩⟩⟩⟩
  rintro rfl
  exact ⟨hconfigured, compareDigest_eq_some_true hsame⟩

theorem passes_ends {error : Option String} :
    (passes argsInvalid error).Ends (fun a => a ≠ registered) (fun _ => error = none) := by
  cases error with
  | none => rfl
  | some e =>
      exact response_ne_registered (by decide) _ _

/-- A request whose texts decrypt to addresses that the validators accept. -/
theorem withKey_eq_next {request : Request} {rsa : RSAEncryption Pub Priv} {g h : String}
    (hgrpc : rsa.decrypt s.crypto request.body.grpc_info = .ok (some g))
    (hhttp : rsa.decrypt s.crypto request.body.http_info = .ok (some h))
    (hg : g ≠ "") (hh : h ≠ "") (hgrpcValid : validateGrpcAddress s.libs s.allowed g = none)
    (hhttpValid : validateHttpAddress s.libs s.allowed h = none) :
    withKey s request (some rsa) = .next (rsa, g, h) := by
  simp only [withKey, Reply.ofOption, Reply.ofExcept, hgrpc, hhttp, Reply.next_bind, Reply.pure_eq]
  rw [Option.filter_some_pos (by simpa using hg), Option.filter_some_pos (by simpa using hh)]
  simp only [Reply.next_bind, hgrpcValid, hhttpValid, passes]

theorem withKey_ends {request : Request} (hauth : Authorized s request)
    (key : Option (RSAEncryption Pub Priv)) :
    (withKey s request key).Ends (fun a => a ≠ registered)
      (fun (rsa, g, h) => Admitted s request rsa g h) := by
  simp only [withKey, Reply.ends_bind, Reply.ends_ofOption, Reply.ends_ofExcept, Reply.pure_eq,
    Reply.ends_next]
  refine ⟨fun _ => by decide, fun rsa _ => ⟨fun _ _ => by decide, fun g? hgrpc =>
    ⟨fun _ _ => by decide, fun h? hhttp => ⟨fun _ => by decide, fun g hg =>
      ⟨fun _ => by decide, fun h hh => ?_⟩⟩⟩⟩⟩
  obtain ⟨rfl, hgne⟩ := Option.filter_eq_some_iff.1 hg
  obtain ⟨rfl, hhne⟩ := Option.filter_eq_some_iff.1 hh
  -- The two validators answer on their own before the request is admitted.
  refine passes_ends.mono (fun _ hgrpcValid => passes_ends.mono (fun _ hhttpValid => ?_))
  exact ⟨hauth, hgrpc, hhttp, by simpa using hgne, by simpa using hhne, hgrpcValid, hhttpValid⟩

theorem withPings_ends (outcome : Except String (Bool × Bool)) :
    (withPings outcome).Ends (fun a => a ≠ registered) (fun _ => outcome = .ok (true, true)) := by
  unfold withPings
  split
  next error => exact response_ne_registered (by decide) _ _
  next grpc_success http_success =>
    split
    next hboth => simpa using hboth
    next => exact response_ne_registered (by decide) _ _

theorem initial_registerInv : RegisterInv s (World.initial : World ι Pub Priv) :=
  fun _ _ h => (by cases h)

/-! ## One step -/

theorem RegisterInv.del {w : World ι Pub Priv} (hinv : RegisterInv s w) (i : ι) (l : NodeList) :
    RegisterInv s ⟨l, w.requests.del i⟩ := by
  intro j p hget
  rw [Dict.get?_del] at hget
  split at hget
  next => cases hget
  next => exact hinv j p hget

theorem RegisterInv.set {w : World ι Pub Priv} (hinv : RegisterInv s w) (i : ι)
    {p : Progress Pub Priv} (hp : p.Checked s) :
    RegisterInv s ⟨w.nodeList, w.requests.set i p⟩ := by
  intro j q hget
  rw [Dict.get?_set] at hget
  split at hget
  next =>
    cases hget
    exact hp
  next => exact hinv j q hget

/-- What a single step does to the table. -/
inductive Effect (w : World ι Pub Priv) :
    Label ι Pub Priv → Option Answer → World ι Pub Priv → Prop
  | kept (label : Label ι Pub Priv) (a : Option Answer) (requests : Dict ι (Progress Pub Priv)) :
      a ≠ some registered → RegisterInv s ⟨w.nodeList, requests⟩ →
      Effect w label a ⟨w.nodeList, requests⟩
  | cleaned (now : ℚ) :
      Effect w (.updateNodeList now) none
        { w with nodeList := (w.nodeList.setTimeout 600).removeInactiveNodes now }
  | registers (i : ι) (now : ℚ) (request : Request) (rsa : RSAEncryption Pub Priv)
      (g h : String) : w.requests.get? i = some (.pings request rsa g h) →
      Effect w (.pinged i (.ok (true, true)) now) (some registered) (w.register s i g h now).2

/-- A registration that goes on waiting or leaves. -/
theorem effect_goOn {w : World ι Pub Priv} (hinv : RegisterInv s w) (label : Label ι Pub Priv)
    (i : ι) {x : Reply Answer (Progress Pub Priv)}
    (hx : x.Ends (fun a => a ≠ registered) (fun p => p.Checked s)) :
    Effect (s := s) w label (w.goOn i x).1 (w.goOn i x).2 := by
  cases x with
  | next p => exact .kept label none _ (by simp) (hinv.set i hx)
  | respond a => exact .kept label (some a) _ (by simpa using hx) (hinv.del i w.nodeList)
  | halt e => cases hx

/-- Every enabled step is one of the effects. -/
theorem effect_of_handle {w w' : World ι Pub Priv} {label : Label ι Pub Priv} {a : Option Answer}
    (hinv : RegisterInv s w) (hhandle : w.handle s label = some (a, w')) :
    Effect (s := s) w label a w' := by
  cases label with
  | post i headers body =>
      simp only [World.handle] at hhandle
      split at hhandle
      next => cases hhandle
      next =>
        have hends : Reply.Ends (receive s headers body >>= fun request =>
            (Reply.next (.loadsKey request) : Reply Answer (Progress Pub Priv)))
            (fun a => a ≠ registered) (fun p => p.Checked s) := by
          rw [Reply.ends_bind]
          exact receive_ends headers body
        have heff := effect_goOn hinv (.post i headers body) i hends
        rw [Option.some.inj hhandle] at heff
        exact heff
  | keyLoaded i key =>
      simp only [World.handle] at hhandle
      split at hhandle
      next request hget =>
        have hends : Reply.Ends (withKey s request key >>= fun (rsa, grpc_info, http_info) =>
            (Reply.next (.pings request rsa grpc_info http_info) :
              Reply Answer (Progress Pub Priv)))
            (fun a => a ≠ registered) (fun p => p.Checked s) := by
          rw [Reply.ends_bind]
          exact withKey_ends (hinv i _ hget) key
        have heff := effect_goOn hinv (.keyLoaded i key) i hends
        rw [Option.some.inj hhandle] at heff
        exact heff
      next => cases hhandle
  | pinged i outcome now =>
      simp only [World.handle] at hhandle
      split at hhandle
      next request rsa g h hget =>
        have hends := withPings_ends outcome
        split at hhandle
        next hpings =>
          rw [hpings] at hends
          cases hhandle
          subst hends
          exact .registers i now request rsa g h hget
        next b hpings =>
          rw [hpings] at hends
          cases hhandle
          exact .kept _ (some b) _ (by simpa using hends) (hinv.del i w.nodeList)
        next e hpings =>
          rw [hpings] at hends
          cases hends
      next => cases hhandle
  | cancel i =>
      simp only [World.handle] at hhandle
      split at hhandle
      next =>
        cases hhandle
        exact .kept _ none _ (by simp) (hinv.del i w.nodeList)
      next => cases hhandle
  | getNode sample =>
      cases hhandle
      exact .kept _ _ _ (by simp [registered]) hinv
  | getNodeStatus =>
      cases hhandle
      exact .kept _ _ _ (by simp [registered]) hinv
  | updateNodeList now =>
      cases hhandle
      exact .cleaned now

/-- **Step lemma.** -/
theorem RegisterInv.step {w w' : World ι Pub Priv} {label : Label ι Pub Priv} {a : Option Answer}
    (hinv : RegisterInv s w) (heff : Effect (s := s) w label a w') : RegisterInv s w' := by
  cases heff with
  | kept label a requests _ hkept => exact hkept
  | cleaned now => exact hinv
  | registers i now request rsa g h _ => exact hinv.del i _

theorem step_eq_some {w w' : World ι Pub Priv} {label : Label ι Pub Priv}
    (hstep : w.step s label = some w') : w.handle s label = some (w.answer s label, w') := by
  obtain ⟨⟨a, v⟩, hhandle, rfl⟩ := Option.map_eq_some_iff.1 hstep
  rw [World.answer, hhandle]
  rfl

/-- **Run lemma.** -/
theorem registerInv_of_run {w : World ι Pub Priv} {labels : List (Label ι Pub Priv)}
    (hrun : run (World.step s) World.initial labels = some w) : RegisterInv s w :=
  run_invariant (RegisterInv s) (fun _ => True)
    (fun _ _ _ _ hv hstep => hv.step (effect_of_handle hv (step_eq_some hstep)))
    (fun _ _ => trivial) initial_registerInv hrun

/-! ## What a step can do to the table -/

/-- The step ends an admitted registration of `(g, h)` whose pings both
succeeded, and answers that it is registered. -/
def Registers (s : Setup Ip Net Pub Priv) (w : World ι Pub Priv) (label : Label ι Pub Priv)
    (w' : World ι Pub Priv) (g h : String) : Prop :=
  ∃ i now request rsa, label = .pinged i (.ok (true, true)) now ∧
    w.requests.get? i = some (.pings request rsa g h) ∧ Admitted s request rsa g h ∧
    w'.nodeList = w.nodeList.add s.digest g h now ∧ w.answer s label = some registered

/-- **A node is registered only when every check has passed**, in every run: an
entry is new or changed, or the head of the chain is, only in the last step of
an admitted registration; an entry goes only in the cleanup job; and a step
that is neither leaves the whole table as it was. -/
theorem registration_gated {w w' : World ι Pub Priv} {labels : List (Label ι Pub Priv)}
    {label : Label ι Pub Priv} (hrun : run (World.step s) World.initial labels = some w)
    (hstep : w.step s label = some w') :
    (∀ k node, w'.nodeList.nodes.get? k = some node → w.nodeList.nodes.get? k ≠ some node →
      ∃ g h, Registers s w label w' g h ∧ k = NodeList.generateUnique s.digest g h ∧
        node.grpc_info = g ∧ node.http_info = h) ∧
    (w'.nodeList.last_poh_index ≠ w.nodeList.last_poh_index →
      ∃ g h, Registers s w label w' g h) ∧
    (∀ k, w.nodeList.nodes.get? k ≠ none → w'.nodeList.nodes.get? k = none →
      ∃ now, label = .updateNodeList now ∧
        w'.nodeList = (w.nodeList.setTimeout 600).removeInactiveNodes now) ∧
    (w.answer s label ≠ some registered → (∀ now, label ≠ .updateNodeList now) →
      w'.nodeList = w.nodeList) := by
  have hinv := registerInv_of_run hrun
  have heff := effect_of_handle hinv (step_eq_some hstep)
  generalize hanswer : w.answer s label = a at heff
  cases heff with
  | kept _ _ requests hne _ =>
      refine ⟨fun k node hnew hold => absurd hnew hold, fun hnew => absurd rfl hnew,
        fun k hold hgone => absurd hgone hold, fun _ _ => rfl⟩
  | cleaned now =>
      refine ⟨?_, fun hnew => absurd rfl hnew, fun k _ _ => ⟨now, rfl, rfl⟩,
        fun _ hjob => absurd rfl (hjob now)⟩
      intro k node hnew hold
      rw [NodeList.removeInactiveNodes_get?, Option.filter_eq_some_iff] at hnew
      exact absurd hnew.1 hold
  | registers i now request rsa g h hget =>
      have hregisters : Registers s w (.pinged i (.ok (true, true)) now)
          (w.register s i g h now).2 g h :=
        ⟨i, now, request, rsa, rfl, hget, hinv i _ hget, rfl, hanswer⟩
      refine ⟨?_, fun _ => ⟨g, h, hregisters⟩, ?_, fun hne => absurd rfl hne⟩
      · intro k node hnew hold
        change (w.nodeList.add s.digest g h now).nodes.get? k = some node at hnew
        rw [NodeList.add_get?] at hnew
        split at hnew
        next hkey =>
          cases hnew
          exact ⟨g, h, hregisters, hkey, rfl, rfl⟩
        next => exact absurd hnew hold
      · intro k hold hgone
        change (w.nodeList.add s.digest g h now).nodes.get? k = none at hgone
        rw [NodeList.add_get?] at hgone
        split at hgone
        next => cases hgone
        next => exact absurd hgone hold

end Steps

/-! ## One registration -/

/-- One public address, and a cipher that changes nothing. -/
def smallSetup : Setup Unit Unit Unit Unit where
  node_register_token := "secret"
  libs :=
    { onePublic with
      urlparse := fun _ =>
        .ok ⟨"http", some "93.184.216.34", none, none, "", "", "", .ok (some 8080)⟩ }
  allowed := ⟨[], []⟩
  crypto := RSAEncryption.plain
  digest := sha256Hexdigest

def smallKey : RSAEncryption Unit Unit := ⟨"public", "private", some (), some ()⟩

def smallRequest : Request :=
  ⟨[("x-node-token", " secret ")],
    ⟨RSAEncryption.cipher "93.184.216.34:50051",
      RSAEncryption.cipher "http://93.184.216.34:8080"⟩⟩

theorem withKey_small : withKey smallSetup smallRequest (some smallKey) =
    .next (smallKey, "93.184.216.34:50051", "http://93.184.216.34:8080") := by
  have hgrpc : smallKey.decrypt smallSetup.crypto smallRequest.body.grpc_info =
      .ok (some "93.184.216.34:50051") := RSAEncryption.decrypt_plain rfl _
  have hhttp : smallKey.decrypt smallSetup.crypto smallRequest.body.http_info =
      .ok (some "http://93.184.216.34:8080") := RSAEncryption.decrypt_plain rfl _
  exact withKey_eq_next hgrpc hhttp (by decide) (by decide) rfl rfl

def smallWorld : World Nat Unit Unit :=
  ⟨.init, (Dict.empty.set 0 (.loadsKey smallRequest)).set 0
    (.pings smallRequest smallKey "93.184.216.34:50051" "http://93.184.216.34:8080")⟩

theorem run_small : run (World.step smallSetup) World.initial
    [.post 0 smallRequest.headers (some smallRequest.body), .keyLoaded 0 (some smallKey)] =
      some smallWorld := by
  have hreceive : receive smallSetup smallRequest.headers (some smallRequest.body) =
      .next smallRequest := by rfl
  rw [run_cons_eq_some]
  refine ⟨⟨.init, Dict.empty.set 0 (.loadsKey smallRequest)⟩, ?_, ?_⟩
  · simp only [World.step, World.handle, hreceive]
    rfl
  · rw [run_cons_eq_some]
    refine ⟨smallWorld, ?_, rfl⟩
    simp only [World.step, World.handle, Dict.get?_set_self, withKey_small]
    rfl

/-- The registration ends, and the head of the chain is that of its node. -/
theorem registration_gated_small :
    ∃ w', smallWorld.step smallSetup (.pinged 0 (.ok (true, true)) 0) = some w' ∧
      w'.nodeList.last_poh_index ≠ smallWorld.nodeList.last_poh_index ∧
      ∃ g h, Registers smallSetup smallWorld (.pinged 0 (.ok (true, true)) 0) w' g h := by
  have hhead : ∀ l : NodeList, (l.add smallSetup.digest "93.184.216.34:50051"
      "http://93.184.216.34:8080" 0).last_poh_index ≠ none := fun l => by
    rw [NodeList.add_last_poh_index]
    exact Option.some_ne_none _
  refine ⟨(smallWorld.register smallSetup 0 "93.184.216.34:50051"
    "http://93.184.216.34:8080" 0).2, rfl, hhead _, ?_⟩
  exact (registration_gated run_small rfl).2.1 (hhead _)

end ProverNetwork.Ports.NodeRegister
