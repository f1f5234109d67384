import ProverNetwork.Ports.NodeListEviction
import ProverNetwork.Ports.NodeRegister
import ProverNetwork.Ports.ResultReport
import ProverNetwork.Verified.Component

/-!
# The heartbeat of a node

A node encrypts its two addresses under the session key and posts them to the hub,
with its token, again and again: it waits until the POST is over, however it ends,
and then sleeps.  The hub registers the pair where a POST arrives and passes every
check, and forgets it once ten minutes pass without a registration.

What becomes of a POST is arbitrary, and so are the other registrations, the
selections and the runs of the cleanup job.

## Main results

* `accept_run` — a heartbeat that the hub accepts moves the runs of its handlers.
* `heartbeat_registers_iff` — which heartbeats the hub accepts.
* `heartbeat_kept` — a node that beats stays in the list, and how many beats in a
  row it may lose.
-/

namespace ProverNetwork.Ports.SendHeartbeat

open ProverNetwork.Verified
open ProverNetwork.Verified.PyText
open ProverNetwork.Ports
open ProverNetwork.Ports.NodeAddress
open ProverNetwork.Ports.NodeListHistory
open ProverNetwork.Ports.NodeRegister (Answer PostNodeRequest Request Setup compareDigest
  extractNodeRegisterToken header passes receive withKey withKey_eq_next withPings)
open ProverNetwork.Ports.ResultReport (SendEnd)
open ProverNetwork.Ports.VerifierUpdate (FileRead readKey)

/-! ## The node -/

/-- What `Hub` reads of the configuration and of the environment. -/
structure Config where
  node_register_token : String
  NODE_REGISTER_TOKEN : String
  grpc : String
  http : String

def Config.token (c : Config) : String :=
  if c.node_register_token ≠ "" then c.node_register_token else c.NODE_REGISTER_TOKEN

/-- `_node_register_headers`, with the name in lower case, as the hub reads them. -/
def nodeRegisterHeaders (c : Config) : List (String × String) :=
  if c.token = "" then [] else [("x-node-token", c.token)]

/-- `send_heartbeat` up to its loop, with the body that each round posts.  Only a
missing key file is caught. -/
def sendHeartbeat {Pub Priv : Type} (crypto : Cryptography Pub Priv) (c : Config)
    (sessionKey : FileRead) (seeds : List UInt8 × List UInt8) : Reply SendEnd PostNodeRequest := do
  let session_key ← readKey .returns (fun _ => .raises) sessionKey
  let encryptor ← Reply.ofExcept .raises (RSAEncryption.init crypto session_key "")
  let grpc_info ← Reply.ofExcept .raises (encryptor.encrypt crypto seeds.1 (some c.grpc))
  let http_info ← Reply.ofExcept .raises (encryptor.encrypt crypto seeds.2 (some c.http))
  return ⟨grpc_info, http_info⟩

/-! ## One heartbeat at the hub -/

section Accepting

variable {Ip Net Pub Priv : Type} (s : Setup Ip Net Pub Priv)

/-- `hub_post_node` on its way to `add`, with the pair that it adds. -/
def accept (headers : List (String × String)) (body : PostNodeRequest)
    (key : Option (RSAEncryption Pub Priv)) (outcome : Except String (Bool × Bool)) :
    Reply Answer (String × String) := do
  let request ← receive s headers (some body)
  let (_, grpc_info, http_info) ← withKey s request key
  withPings outcome
  return (grpc_info, http_info)

variable {s} {headers : List (String × String)} {body : PostNodeRequest}
  {key : Option (RSAEncryption Pub Priv)} {outcome : Except String (Bool × Bool)}

theorem accept_eq_next {p : String × String} :
    accept s headers body key outcome = .next p ↔
      ∃ request rsa, receive s headers (some body) = .next request ∧
        withKey s request key = .next (rsa, p) ∧ withPings outcome = .next () := by
  simp only [accept, Reply.bind_eq_next, Reply.pure_eq, Reply.next.injEq]
  constructor
  · rintro ⟨request, hreceive, ⟨rsa, g, h⟩, hkey, ⟨⟩, hpings, rfl⟩
    exact ⟨request, rsa, hreceive, hkey, hpings⟩
  · rintro ⟨request, rsa, hreceive, hkey, hpings⟩
    exact ⟨request, hreceive, (rsa, p), hkey, (), hpings, rfl⟩

/-- **A heartbeat that is accepted** registers its pair, by the three steps of a
handler that nothing comes between. -/
theorem accept_run {ι : Type} [DecidableEq ι] {w : NodeRegister.World ι Pub Priv} {i : ι}
    (hfree : w.requests.get? i = none) {p : String × String}
    (haccept : accept s headers body key outcome = .next p) (now : ℚ) :
    ∃ w', run (NodeRegister.World.step s) w
        [.post i headers (some body), .keyLoaded i key, .pinged i outcome now] = some w' ∧
      w'.nodeList = w.nodeList.add s.digest p.1 p.2 now := by
  obtain ⟨request, rsa, hreceive, hkey, hpings⟩ := accept_eq_next.1 haccept
  let loading : NodeRegister.World ι Pub Priv :=
    { w with requests := w.requests.set i (.loadsKey request) }
  let pinging : NodeRegister.World ι Pub Priv :=
    { loading with requests := loading.requests.set i (.pings request rsa p.1 p.2) }
  have hposted : w.step s (.post i headers (some body)) = some loading := by
    simp only [NodeRegister.World.step, NodeRegister.World.handle, hfree, hreceive]
    rfl
  have hloaded : loading.step s (.keyLoaded i key) = some pinging := by
    simp only [NodeRegister.World.step, NodeRegister.World.handle, loading, Dict.get?_set_self,
      hkey]
    rfl
  have hpinged : pinging.step s (.pinged i outcome now) =
      some (pinging.register s i p.1 p.2 now).2 := by
    simp only [NodeRegister.World.step, NodeRegister.World.handle, pinging, Dict.get?_set_self,
      hpings]
    rfl
  exact ⟨_, run_cons_eq_some.2 ⟨_, hposted, run_cons_eq_some.2 ⟨_, hloaded,
    run_cons_eq_some.2 ⟨_, hpinged, rfl⟩⟩⟩, rfl⟩

/-! ## What is accepted -/

/-- What the hub asks of a node: its own token, and two addresses that pass the
checks. -/
structure Config.Admissible (s : Setup Ip Net Pub Priv) (c : Config) : Prop where
  configured : strip s.node_register_token ≠ ""
  token : strip c.token = strip s.node_register_token
  grpc_nonempty : c.grpc ≠ ""
  http_nonempty : c.http ≠ ""
  grpc_valid : validateGrpcAddress s.libs s.allowed c.grpc = none
  http_valid : validateHttpAddress s.libs s.allowed c.http = none

theorem compareDigest_eq_true {a b : String} :
    compareDigest a b = some true ↔ a = b ∧ ∀ ch ∈ b.toList, ch.toNat < 128 := by
  unfold compareDigest
  constructor
  · intro h
    split at h
    next hascii =>
      have heq : a = b := by simpa using h
      refine ⟨heq, fun ch hch => ?_⟩
      have hall := List.all_eq_true.1 hascii ch (List.mem_append_right _ hch)
      simpa using hall
    next => cases h
  · rintro ⟨rfl, hascii⟩
    have hall : (a.toList ++ a.toList).all (fun c => c.toNat < 128) = true := by
      rw [List.all_eq_true]
      intro ch hch
      simpa using hascii ch ((List.mem_append.1 hch).elim id id)
    rw [if_pos hall, decide_eq_true rfl]

/-- The hub finds the token of the node. -/
theorem extractNodeRegisterToken_headers (hlower : s.libs.lower "" = "") (c : Config) :
    extractNodeRegisterToken s (nodeRegisterHeaders c) = strip c.token := by
  have hbearer : header (nodeRegisterHeaders c) "authorization" = "" := by
    unfold nodeRegisterHeaders
    split <;> rfl
  have htoken : header (nodeRegisterHeaders c) "x-node-token" = c.token := by
    unfold nodeRegisterHeaders
    split
    next hempty => exact hempty.symm
    next => rfl
  unfold extractNodeRegisterToken
  dsimp only
  rw [hbearer, hlower, htoken]
  rfl

theorem receive_eq_next {request : Request} :
    receive s headers (some body) = .next request ↔ request = ⟨headers, body⟩ ∧
      strip s.node_register_token ≠ "" ∧
      extractNodeRegisterToken s headers = strip s.node_register_token ∧
      ∀ ch ∈ (strip s.node_register_token).toList, ch.toNat < 128 := by
  simp only [receive, Reply.ofOption, Reply.next_bind, Reply.bind_eq_next, Reply.require_eq_next,
    Reply.pure_eq, Reply.next.injEq, exists_const]
  constructor
  · rintro ⟨hconfigured, -, same, hsame, rfl, rfl⟩
    have hdigest := (Reply.ofOption_eq_next _ _ _).1 hsame
    exact ⟨rfl, hconfigured, compareDigest_eq_true.1 hdigest⟩
  · rintro ⟨rfl, hconfigured, htoken, hascii⟩
    have hdigest := compareDigest_eq_true.2 ⟨htoken, hascii⟩
    exact ⟨hconfigured, htoken ▸ hconfigured, true, (Reply.ofOption_eq_next _ _ _).2 hdigest,
      rfl, rfl⟩

theorem passes_eq_next {refusal : String → Answer} {error : Option String} :
    passes refusal error = .next () ↔ error = none := by
  cases error <;> simp [passes]

/-- Two texts that decrypt are a pair exactly when neither is empty and both pass. -/
theorem withKey_of_decrypts {rsa : RSAEncryption Pub Priv} {g h : String}
    (hgrpc : rsa.decrypt s.crypto body.grpc_info = .ok (some g))
    (hhttp : rsa.decrypt s.crypto body.http_info = .ok (some h))
    {r : RSAEncryption Pub Priv × String × String} :
    withKey s ⟨headers, body⟩ (some rsa) = .next r ↔ r = (rsa, g, h) ∧ g ≠ "" ∧ h ≠ "" ∧
      validateGrpcAddress s.libs s.allowed g = none ∧
      validateHttpAddress s.libs s.allowed h = none := by
  constructor
  · intro hnext
    simp only [withKey, Reply.ofOption_eq_next, Reply.ofExcept_eq_next, Reply.bind_eq_next,
      Reply.pure_eq, Reply.next.injEq] at hnext
    obtain ⟨rsa', hrsa, g?, hgrpc', h?, hhttp', g', hg, h', hh, _, hgrpcValid, _, hhttpValid,
      rfl⟩ := hnext
    cases hrsa
    cases hgrpc'.symm.trans hgrpc
    cases hhttp'.symm.trans hhttp
    obtain ⟨hg, hgne⟩ := Option.filter_eq_some_iff.1 hg
    obtain ⟨hh, hhne⟩ := Option.filter_eq_some_iff.1 hh
    cases hg
    cases hh
    exact ⟨rfl, by simpa using hgne, by simpa using hhne, passes_eq_next.1 hgrpcValid,
      passes_eq_next.1 hhttpValid⟩
  · rintro ⟨rfl, hg, hh, hgrpcValid, hhttpValid⟩
    exact withKey_eq_next hgrpc hhttp hg hh hgrpcValid hhttpValid

theorem withPings_eq_next : withPings outcome = .next () ↔ outcome = .ok (true, true) := by
  constructor
  · intro hnext
    have hends := NodeRegister.withPings_ends outcome
    rw [hnext] at hends
    exact hends
  · rintro rfl
    rfl

/-- A heartbeat whose two texts the hub can read. -/
theorem accept_of_decrypts {c : Config} {rsa : RSAEncryption Pub Priv}
    (hlower : s.libs.lower "" = "") (hascii : ∀ ch ∈ c.token.toList, ch.toNat < 128)
    (hgrpc : rsa.decrypt s.crypto body.grpc_info = .ok (some c.grpc))
    (hhttp : rsa.decrypt s.crypto body.http_info = .ok (some c.http)) {p : String × String} :
    accept s (nodeRegisterHeaders c) body (some rsa) outcome = .next p ↔
      p = (c.grpc, c.http) ∧ c.Admissible s ∧ outcome = .ok (true, true) := by
  have hheaders := extractNodeRegisterToken_headers hlower c
  rw [accept_eq_next]
  constructor
  · rintro ⟨request, rsa', hreceive, hkey, hpings⟩
    obtain ⟨rfl, hconfigured, htoken, -⟩ := receive_eq_next.1 hreceive
    obtain ⟨hpair, hg, hh, hgrpcValid, hhttpValid⟩ := (withKey_of_decrypts hgrpc hhttp).1 hkey
    cases hpair
    exact ⟨rfl, ⟨hconfigured, hheaders.symm.trans htoken, hg, hh, hgrpcValid, hhttpValid⟩,
      withPings_eq_next.1 hpings⟩
  · rintro ⟨rfl, hnode, rfl⟩
    let request : Request := ⟨nodeRegisterHeaders c, body⟩
    have hreceive : receive s (nodeRegisterHeaders c) (some body) = .next request :=
      receive_eq_next.2 ⟨rfl, hnode.configured, hheaders.trans hnode.token,
        fun ch hch => hascii ch (mem_of_mem_strip (hnode.token ▸ hch))⟩
    have hkey : withKey s request (some rsa) = .next (rsa, c.grpc, c.http) :=
      (withKey_of_decrypts hgrpc hhttp).2 ⟨rfl, hnode.grpc_nonempty, hnode.http_nonempty,
        hnode.grpc_valid, hnode.http_valid⟩
    exact ⟨request, rsa, hreceive, hkey, rfl⟩

/-- Without its keys the hub accepts nothing. -/
theorem accept_without_key {p : String × String} :
    accept s headers body none outcome ≠ .next p := by
  intro haccept
  obtain ⟨request, rsa, -, hkey, -⟩ := accept_eq_next.1 haccept
  cases hkey

end Accepting

/-! ## A node and its hub -/

/-- The hub, the node, and what its `send_heartbeat` made and drew before the loop. -/
structure Link (Ip Net Pub Priv : Type) where
  hub : Setup Ip Net Pub Priv
  config : Config
  session_key : FileRead
  seeds : List UInt8 × List UInt8
  body : PostNodeRequest
  hub_key : RSAEncryption Pub Priv

section Heartbeats

variable {Ip Net Pub Priv : Type} (link : Link Ip Net Pub Priv)

/-- The pair of the node. -/
def Link.pair : String × String := (link.config.grpc, link.config.http)

/-- What the hub makes of a heartbeat, where it can load its keys or not. -/
def Link.accepts (loads : Bool) (outcome : Except String (Bool × Bool)) :
    Reply Answer (String × String) :=
  accept link.hub (nodeRegisterHeaders link.config) link.body
    (if loads then some link.hub_key else none) outcome

/-- The body is that of the node, its session key and the key of the hub are a pair,
and a header carries its token as it is.  A token with a line break in it is not carried:
`aiohttp` refuses the header, and nothing is posted. -/
structure Link.Matched (e : RSAEncryption Pub Priv) (pub : Pub) (priv : Priv) : Prop where
  lower : link.hub.libs.lower "" = ""
  carried : ∀ ch ∈ link.config.token.toList, ch.toNat < 128
  sends : sendHeartbeat link.hub.crypto link.config link.session_key link.seeds = .next link.body
  session : ∀ key, link.session_key = .text key →
    RSAEncryption.init link.hub.crypto key "" = .ok e
  session_public : e.public_key = some pub
  hub_private : link.hub_key.private_key = some priv
  pair : RSAEncryption.KeyPair link.hub.crypto pub priv

variable {link} {e : RSAEncryption Pub Priv} {pub : Pub} {priv : Priv}

/-- The hub reads the addresses of the node. -/
theorem Link.Matched.decrypts (hmatched : link.Matched e pub priv) :
    link.hub_key.decrypt link.hub.crypto link.body.grpc_info = .ok (some link.config.grpc) ∧
      link.hub_key.decrypt link.hub.crypto link.body.http_info =
        .ok (some link.config.http) := by
  have hsends := hmatched.sends
  simp only [sendHeartbeat, Reply.bind_eq_next, Reply.ofExcept_eq_next, Reply.pure_eq,
    Reply.next.injEq] at hsends
  obtain ⟨key, hkey, e', hinit, grpc_info, hgrpc, http_info, hhttp, hbody⟩ := hsends
  have hsession : link.session_key = .text key := by
    cases hfile : link.session_key with
    | text text =>
        rw [hfile] at hkey
        cases hkey
        rfl
    | notFound =>
        rw [hfile] at hkey
        cases hkey
    | fails error =>
        rw [hfile] at hkey
        cases hkey
  cases hinit.symm.trans (hmatched.session key hsession)
  rw [← hbody]
  exact ⟨RSAEncryption.decrypt_encrypt hmatched.session_public hmatched.hub_private hmatched.pair
      hgrpc,
    RSAEncryption.decrypt_encrypt hmatched.session_public hmatched.hub_private hmatched.pair hhttp⟩

theorem Link.Matched.accepts_true (hmatched : link.Matched e pub priv)
    {outcome : Except String (Bool × Bool)} {p : String × String} :
    link.accepts true outcome = .next p ↔
      p = link.pair ∧ link.config.Admissible link.hub ∧ outcome = .ok (true, true) := by
  obtain ⟨hgrpc, hhttp⟩ := hmatched.decrypts
  rw [Link.accepts, if_pos rfl, accept_of_decrypts hmatched.lower hmatched.carried hgrpc hhttp, Link.pair]

theorem Link.accepts_false {outcome : Except String (Bool × Bool)} {p : String × String} :
    link.accepts false outcome ≠ .next p := accept_without_key

/-- What the hub accepts is the pair of the node. -/
theorem Link.Matched.accepts_pair (hmatched : link.Matched e pub priv) {loads : Bool}
    {outcome : Except String (Bool × Bool)} {p : String × String}
    (haccepts : link.accepts loads outcome = .next p) : p = link.pair := by
  cases loads with
  | false => exact absurd haccepts Link.accepts_false
  | true => exact (hmatched.accepts_true.1 haccepts).1

/-- **Which heartbeats the hub accepts**: where the keys are a pair, those of a node
with the token of the hub and with two addresses that pass the checks, whenever the
hub can load its keys and reaches both servers of the node; and what is registered is
the pair of the node. -/
theorem heartbeat_registers_iff (hmatched : link.Matched e pub priv) (loads : Bool)
    (outcome : Except String (Bool × Bool)) (p : String × String) :
    link.accepts loads outcome = .next p ↔ p = link.pair ∧ link.config.Admissible link.hub ∧
      loads = true ∧ outcome = .ok (true, true) := by
  cases loads with
  | false =>
      constructor
      · intro haccepts
        exact absurd haccepts Link.accepts_false
      · rintro ⟨-, -, hloads, -⟩
        cases hloads
  | true =>
      rw [hmatched.accepts_true]
      constructor
      · rintro ⟨hpair, hnode, hpings⟩
        exact ⟨hpair, hnode, rfl, hpings⟩
      · rintro ⟨hpair, hnode, -, hpings⟩
        exact ⟨hpair, hnode, hpings⟩

end Heartbeats

/-- One public address, and a cipher that changes nothing. -/
def smallLink : Link Unit Unit Unit Unit where
  hub := NodeRegister.smallSetup
  config := ⟨"", "secret", "93.184.216.34:50051", "http://93.184.216.34:8080"⟩
  session_key := .text "session public"
  seeds := ([], [])
  body := ⟨RSAEncryption.cipher "93.184.216.34:50051",
    RSAEncryption.cipher "http://93.184.216.34:8080"⟩
  hub_key := NodeRegister.smallKey

theorem smallLink_matched :
    smallLink.Matched ⟨"session public", "", some (), none⟩ () () where
  lower := rfl
  carried := by
    have hall : smallLink.config.token.toList.all (fun ch => ch.toNat < 128) = true := rfl
    intro ch hch
    exact of_decide_eq_true (List.all_eq_true.1 hall ch hch)
  sends := by
    have hencrypt : ∀ text, RSAEncryption.encrypt smallLink.hub.crypto
        ⟨"session public", "", some (), none⟩ [] (some text) = .ok (RSAEncryption.cipher text) :=
      RSAEncryption.encrypt_plain rfl []
    simp only [sendHeartbeat, Reply.bind_eq_next, Reply.ofExcept_eq_next, Reply.pure_eq]
    exact ⟨_, rfl, _, rfl, _, hencrypt _, _, hencrypt _, rfl⟩
  session := by
    intro key hkey
    cases hkey
    rfl
  session_public := rfl
  hub_private := rfl
  pair := RSAEncryption.plain_pair

theorem smallLink_admissible : smallLink.config.Admissible smallLink.hub where
  configured := by decide +kernel
  token := rfl
  grpc_nonempty := by decide
  http_nonempty := by decide
  grpc_valid := rfl
  http_valid := rfl

theorem heartbeat_registers_small :
    smallLink.accepts true (.ok (true, true)) = .next smallLink.pair :=
  (heartbeat_registers_iff smallLink_matched true _ _).2 ⟨rfl, smallLink_admissible, rfl, rfl⟩

/-! ## The loop -/

/-- Where `send_heartbeat` is: nowhere; asleep since a time; or in a POST that began
at a time, with whether it was registered once the hub has handled it. -/
inductive Loop
  | idle
  | sleeping (since : ℚ)
  | posting (since : ℚ) (registered : Option Bool)

/-- The list of the hub in time, the clock, the loop, and, from its first
registration on, how many POSTs in a row have ended without one. -/
structure World where
  hub : Timed
  clock : ℚ
  loop : Loop
  missed : Option Nat

def World.init (start : ℚ) : World := ⟨.initial start, start, .idle, none⟩

/-- Anything else happens at the hub, a POST that the node has given up included; the
node posts; the hub handles the POST; the POST is over for the node; or the node
stops. -/
inductive Label
  | hub (e : Event)
  | send (now : ℚ)
  | handled (loads : Bool) (outcome : Except String (Bool × Bool)) (now : ℚ)
  | ended (now : ℚ)
  | stop (now : ℚ)

def Label.time : Label → ℚ
  | .hub e => e.time
  | .send now => now
  | .handled _ _ now => now
  | .ended now => now
  | .stop now => now

section Steps

variable {Ip Net Pub Priv : Type} (link : Link Ip Net Pub Priv)

/-- The hub handles a POST that began at a time. -/
def World.handle (w : World) (since : ℚ) (loads : Bool)
    (outcome : Except String (Bool × Bool)) (now : ℚ) : Option World :=
  match link.accepts loads outcome with
  | .next p =>
      (w.hub.step link.hub.digest (.add p.1 p.2 now)).map (fun hub =>
        { w with hub := hub, loop := .posting since (some true), missed := some 0 })
  | _ => some { w with loop := .posting since (some false) }

def World.act (w : World) : Label → Option World
  | .hub e => (w.hub.step link.hub.digest e).map (fun hub => { w with hub := hub })
  | .send now =>
      match w.loop with
      | .posting _ _ => none
      | _ => some { w with loop := .posting now none }
  | .handled loads outcome now =>
      match w.loop with
      | .posting since none => w.handle link since loads outcome now
      | _ => none
  | .ended now =>
      match w.loop with
      | .posting _ registered =>
          some { w with
            loop := .sleeping now
            missed := if registered = some true then w.missed else w.missed.map (fun n => n + 1) }
      | _ => none
  | .stop _ => some { w with loop := .idle, missed := none }

/-- A step; the clock does not go back. -/
def World.step (w : World) (label : Label) : Option World :=
  if w.clock ≤ label.time then
    (w.act link label).map (fun v => { v with clock := label.time })
  else none

/-- What a step can be. -/
inductive Effect (w : World) : Label → World → Prop
  | elsewhere (e : Event) (hub : Timed) (hhub : w.hub.step link.hub.digest e = some hub) :
      Effect w (.hub e) { w with hub := hub, clock := e.time }
  | sent (now : ℚ) (hloop : ∀ since registered, w.loop ≠ .posting since registered) :
      Effect w (.send now) { w with loop := .posting now none, clock := now }
  | registered (since : ℚ) (loads : Bool) (outcome : Except String (Bool × Bool)) (now : ℚ)
      (p : String × String) (hub : Timed) (hloop : w.loop = .posting since none)
      (haccepts : link.accepts loads outcome = .next p)
      (hhub : w.hub.step link.hub.digest (.add p.1 p.2 now) = some hub) :
      Effect w (.handled loads outcome now)
        ⟨hub, now, .posting since (some true), some 0⟩
  | refused (since : ℚ) (loads : Bool) (outcome : Except String (Bool × Bool)) (now : ℚ)
      (hloop : w.loop = .posting since none) :
      Effect w (.handled loads outcome now)
        { w with loop := .posting since (some false), clock := now }
  | ended (since : ℚ) (registered : Option Bool) (now : ℚ)
      (hloop : w.loop = .posting since registered) :
      Effect w (.ended now)
        ⟨w.hub, now, .sleeping now,
          if registered = some true then w.missed else w.missed.map (fun n => n + 1)⟩
  | stopped (now : ℚ) : Effect w (.stop now) ⟨w.hub, now, .idle, none⟩

variable {link} {w w' : World} {label : Label}

theorem effect_of_step (hstep : w.step link label = some w') :
    w.clock ≤ label.time ∧ Effect link w label w' := by
  unfold World.step at hstep
  split at hstep
  case isFalse => cases hstep
  case isTrue htime =>
    refine ⟨htime, ?_⟩
    obtain ⟨v, hact, rfl⟩ := Option.map_eq_some_iff.1 hstep
    cases label with
    | hub e =>
        obtain ⟨hub, hhub, rfl⟩ := Option.map_eq_some_iff.1 hact
        exact .elsewhere e hub hhub
    | send now =>
        simp only [World.act] at hact
        split at hact
        next => cases hact
        next hloop =>
          cases hact
          exact .sent now hloop
    | handled loads outcome now =>
        simp only [World.act] at hact
        split at hact
        next since hloop =>
          unfold World.handle at hact
          split at hact
          next p haccepts =>
            obtain ⟨hub, hhub, rfl⟩ := Option.map_eq_some_iff.1 hact
            exact .registered since loads outcome now p hub hloop haccepts hhub
          next =>
            cases hact
            exact .refused since loads outcome now hloop
        next => cases hact
    | ended now =>
        simp only [World.act] at hact
        split at hact
        next since registered hloop =>
          cases hact
          exact .ended since registered now hloop
        next => cases hact
    | stop now =>
        cases hact
        exact .stopped now

/-- **The list of the hub is a component.** -/
theorem component_hub :
    Component (World.step link) (Timed.step link.hub.digest) (fun w => some w.hub) := by
  intro w label w' hub hstep hhub
  cases hhub
  refine ⟨w'.hub, rfl, ?_⟩
  cases (effect_of_step hstep).2 with
  | elsewhere e hub hhub => exact Or.inr ⟨e, hhub⟩
  | registered since loads outcome now p hub _ _ hhub => exact Or.inr ⟨_, hhub⟩
  | sent => exact Or.inl rfl
  | refused => exact Or.inl rfl
  | ended => exact Or.inl rfl
  | stopped => exact Or.inl rfl

end Steps

/-! ## How far the last registration lies behind -/

namespace Loop

/-- No later than the loop may stay where it is, if a POST ends within `d` and a
sleep within `interval`. -/
def Before (d interval t : ℚ) : Loop → Prop
  | idle => True
  | sleeping since => t ≤ since + interval
  | posting since _ => t ≤ since + d

def Began (t : ℚ) : Loop → Prop
  | idle => True
  | sleeping since => since ≤ t
  | posting since _ => since ≤ t

/-- How long before the loop got where it is the last registration may lie, if `n`
POSTs in a row have ended without one. -/
def Behind (d interval : ℚ) (n : ℕ) (a : ℚ) : Loop → Prop
  | idle => False
  | sleeping since => since - a ≤ (n + 1) * d + n * interval
  | posting since registered =>
      since - a ≤ (n + 1) * (d + interval) ∧ (registered = some true → since ≤ a)

variable {loop : Loop} {d interval a t t' : ℚ} {n : ℕ}

theorem Began.mono (h : loop.Began t) (hle : t ≤ t') : loop.Began t' := by
  cases loop with
  | idle => trivial
  | sleeping since => exact h.trans hle
  | posting since registered => exact h.trans hle

/-- A registration since the loop got where it is. -/
theorem Behind.renewed (hd : 0 ≤ d) (hinterval : 0 ≤ interval)
    (h : loop.Behind d interval n a) (hbegan : loop.Began t) : loop.Behind d interval n t := by
  have hnd : 0 ≤ (n : ℚ) * d := mul_nonneg n.cast_nonneg hd
  have hni : 0 ≤ (n : ℚ) * interval := mul_nonneg n.cast_nonneg hinterval
  cases loop with
  | idle => exact h
  | sleeping since =>
      have hsince : since ≤ t := hbegan
      show since - t ≤ (n + 1) * d + n * interval
      linarith
  | posting since registered =>
      have hsince : since ≤ t := hbegan
      refine ⟨?_, fun _ => hsince⟩
      linarith

/-- The age of the last registration. -/
theorem Behind.age (hd : 0 ≤ d) (h : loop.Behind d interval n a)
    (hbefore : loop.Before d interval t) : t - a ≤ (n + 2) * d + (n + 1) * interval := by
  cases loop with
  | idle => exact h.elim
  | sleeping since =>
      have hsleep : t ≤ since + interval := hbefore
      have hbehind : since - a ≤ (n + 1) * d + n * interval := h
      linarith
  | posting since registered =>
      have hpost : t ≤ since + d := hbefore
      have hbehind : since - a ≤ (n + 1) * (d + interval) := h.1
      linarith

end Loop

section Kept

variable {Ip Net Pub Priv : Type} {link : Link Ip Net Pub Priv} {d interval start : ℚ}
  {w w' : World} {label : Label}

/-- No POST takes longer than `d`, and no sleep longer than `interval`. -/
def Prompt (d interval : ℚ) (w : World) (label : Label) : Prop :=
  w.loop.Before d interval label.time

structure BeatInv (link : Link Ip Net Pub Priv) (d interval : ℚ) (w : World) : Prop where
  hub_le : w.hub.clock ≤ w.clock
  began : w.loop.Began w.clock
  before : w.loop.Before d interval w.clock
  behind : ∀ n, w.missed = some n → ∃ a, lastBeat link.pair w.hub.adds = some a ∧
    w.loop.Behind d interval n a

/-- What an event at the hub does to the last registration of a pair. -/
theorem lastBeat_after (digest : String → String) (hub : Timed) (e : Event)
    (p : String × String) :
    lastBeat p (hub.after digest e).adds = lastBeat p hub.adds ∨
      lastBeat p (hub.after digest e).adds = some e.time := by
  cases e with
  | add g h now =>
      show lastBeat p (hub.adds ++ [((g, h), now)]) = _ ∨
        lastBeat p (hub.adds ++ [((g, h), now)]) = some now
      rw [lastBeat_concat]
      by_cases hp : p = (g, h)
      · exact Or.inr (if_pos hp)
      · exact Or.inl (if_neg hp)
  | getNode size sample now => exact Or.inl rfl
  | job now => exact Or.inl rfl

/-- **Step lemma.** -/
theorem BeatInv.step (hd : 0 ≤ d) (hinterval : 0 ≤ interval)
    (hpair : ∀ loads outcome p, link.accepts loads outcome = .next p → p = link.pair)
    (hinv : BeatInv link d interval w) (hprompt : Prompt d interval w label)
    (hstep : w.step link label = some w') : BeatInv link d interval w' := by
  obtain ⟨htime, heffect⟩ := effect_of_step hstep
  cases heffect with
  | elsewhere e hub hhub =>
      obtain ⟨-, rfl⟩ := step_eq_some hhub
      have hbegan : w.loop.Began e.time := hinv.began.mono htime
      refine ⟨le_of_eq (after_clock w.hub e), hbegan, hprompt, ?_⟩
      intro n hn
      obtain ⟨a, hlast, hbehind⟩ := hinv.behind n hn
      cases lastBeat_after link.hub.digest w.hub e link.pair with
      | inl hsame => exact ⟨a, hsame.trans hlast, hbehind⟩
      | inr hnew => exact ⟨e.time, hnew, hbehind.renewed hd hinterval hbegan⟩
  | sent now hloop =>
      refine ⟨hinv.hub_le.trans htime, le_refl now, le_add_of_nonneg_right hd, ?_⟩
      intro n hn
      obtain ⟨a, hlast, hbehind⟩ := hinv.behind n hn
      refine ⟨a, hlast, ?_, nofun⟩
      cases hplace : w.loop with
      | idle =>
          rw [hplace] at hbehind
          exact hbehind.elim
      | sleeping since =>
          rw [hplace] at hbehind
          rw [Prompt, hplace] at hprompt
          have hslept : since - a ≤ (n + 1) * d + n * interval := hbehind
          have hwoke : now ≤ since + interval := hprompt
          linarith
      | posting since registered => exact absurd hplace (hloop since registered)
  | registered since loads outcome now p hub hloop haccepts hhub =>
      obtain ⟨-, rfl⟩ := step_eq_some hhub
      cases hpair loads outcome p haccepts
      have hbegan : since ≤ now := by
        have hold := hinv.began
        rw [hloop] at hold
        exact le_trans hold htime
      have hprompt' : now ≤ since + d := by
        rw [Prompt, hloop] at hprompt
        exact hprompt
      refine ⟨le_of_eq (after_clock w.hub _), hbegan, hprompt', ?_⟩
      intro n hn
      cases hn
      refine ⟨now, ?_, ?_, fun _ => hbegan⟩
      · show lastBeat link.pair (w.hub.adds ++ [(link.pair, now)]) = some now
        rw [lastBeat_concat, if_pos rfl]
      · push_cast
        linarith
  | refused since loads outcome now hloop =>
      have hold := hinv.began
      rw [hloop] at hold
      rw [Prompt, hloop] at hprompt
      refine ⟨hinv.hub_le.trans htime, le_trans hold htime, hprompt, ?_⟩
      intro n hn
      obtain ⟨a, hlast, hbehind⟩ := hinv.behind n hn
      rw [hloop] at hbehind
      exact ⟨a, hlast, hbehind.1, nofun⟩
  | ended since registered now hloop =>
      rw [Prompt, hloop] at hprompt
      have hended : now ≤ since + d := hprompt
      refine ⟨hinv.hub_le.trans htime, le_refl now, le_add_of_nonneg_right hinterval, ?_⟩
      intro n hn
      dsimp only at hn
      split at hn
      next hregistered =>
        obtain ⟨a, hlast, hbehind⟩ := hinv.behind n hn
        rw [hloop] at hbehind
        have hrecent : since ≤ a := hbehind.2 hregistered
        have hnd : 0 ≤ (n : ℚ) * d := mul_nonneg n.cast_nonneg hd
        have hni : 0 ≤ (n : ℚ) * interval := mul_nonneg n.cast_nonneg hinterval
        refine ⟨a, hlast, ?_⟩
        show now - a ≤ (n + 1) * d + n * interval
        linarith
      next =>
        obtain ⟨m, hm, rfl⟩ := Option.map_eq_some_iff.1 hn
        obtain ⟨a, hlast, hbehind⟩ := hinv.behind m hm
        rw [hloop] at hbehind
        have hlate : since - a ≤ (m + 1) * (d + interval) := hbehind.1
        refine ⟨a, hlast, ?_⟩
        show now - a ≤ ((m + 1 : ℕ) + 1) * d + (m + 1 : ℕ) * interval
        push_cast
        linarith
  | stopped now =>
      exact ⟨hinv.hub_le.trans htime, trivial, trivial, fun n hn => by cases hn⟩

/-- **Run lemma.** -/
theorem run_beatInv (hd : 0 ≤ d) (hinterval : 0 ≤ interval)
    (hpair : ∀ loads outcome p, link.accepts loads outcome = .next p → p = link.pair)
    {labels : List Label}
    (hprompt : Along (World.step link) (Prompt d interval) (World.init start) labels)
    (hrun : run (World.step link) (World.init start) labels = some w) :
    BeatInv link d interval w := by
  refine run_invariant_along (BeatInv link d interval) (Prompt d interval)
    (fun _ _ _ hlabel hinv hstep => hinv.step hd hinterval hpair hlabel hstep) hprompt ?_ hrun
  exact ⟨le_refl start, trivial, trivial, fun n hn => by cases hn⟩

/-- **A node that beats stays in the list.**  In every run in which a POST takes at
most `d` and a sleep at most `interval`, whatever else happens at the hub: once a
heartbeat of the node has been registered, and after `n` of them in a row that were
not, the node is in the list, as long as `n + 2` POSTs and `n + 1` sleeps fit into the
ten minutes of the cleanup. -/
theorem heartbeat_kept {e : RSAEncryption Pub Priv} {pub : Pub} {priv : Priv}
    (hmatched : link.Matched e pub priv) (hstart : 0 ≤ start) (hd : 0 ≤ d)
    (hinterval : 0 ≤ interval) {labels : List Label}
    (hprompt : Along (World.step link) (Prompt d interval) (World.init start) labels)
    (hrun : run (World.step link) (World.init start) labels = some w) {n : ℕ}
    (hmissed : w.missed = some n) (hfits : (n + 2) * d + (n + 1) * interval ≤ 600)
    (hfree : NoCollision link.hub.digest link.pair w.hub.adds) :
    link.pair ∈ registered w.hub.list := by
  have hinv := run_beatInv hd hinterval (fun _ _ _ => hmatched.accepts_pair) hprompt hrun
  obtain ⟨a, hlast, hbehind⟩ := hinv.behind n hmissed
  obtain ⟨hub, events, hhub, hevents⟩ := run_component component_hub hrun rfl
  cases hhub
  have hkept := (run_evictionInv hstart hevents).present link.pair hfree a hlast
  refine hkept ?_
  have hage := hbehind.age hd hinv.before
  linarith [hinv.hub_le]

end Kept

/-- The first POST is registered, the second is lost, and the cleanup runs. -/
def smallLabels : List Label :=
  [.send 0, .handled true (.ok (true, true)) 1, .ended 2, .send 32, .ended 42, .hub (.job 60)]

theorem step_of_act {Ip Net Pub Priv : Type} {link : Link Ip Net Pub Priv} {w v : World}
    {label : Label} (htime : w.clock ≤ label.time) (hact : w.act link label = some v) :
    w.step link label = some { v with clock := label.time } := by
  rw [World.step, if_pos htime, hact]
  rfl

/-- The hub once the node is registered. -/
def smallHub : Timed :=
  ⟨NodeList.add smallLink.hub.digest .init smallLink.pair.1 smallLink.pair.2 1, 1,
    [(smallLink.pair, 1)], []⟩

theorem act_small : (⟨.initial 0, 0, .posting 0 none, none⟩ : World).act smallLink
    (.handled true (.ok (true, true)) 1) =
      some ⟨smallHub, 0, .posting 0 (some true), some 0⟩ := by
  have haccepts : smallLink.accepts true (.ok (true, true)) = .next smallLink.pair :=
    smallLink_matched.accepts_true.2 ⟨rfl, smallLink_admissible, rfl⟩
  have hadd : (Timed.initial 0).step smallLink.hub.digest
      (.add smallLink.pair.1 smallLink.pair.2 1) = some smallHub := by
    have htime : (Timed.initial 0).clock ≤ 1 := by
      show (0 : ℚ) ≤ 1
      norm_num
    rw [Timed.step, if_pos ⟨htime, trivial⟩]
    rfl
  simp only [World.act, World.handle, haccepts, hadd]
  rfl

/-- The node is in the list after the lost POST. -/
theorem heartbeat_kept_lost : ∃ w, run (World.step smallLink) (World.init 0) smallLabels = some w ∧
    w.missed = some 1 ∧ smallLink.pair ∈ registered w.hub.list := by
  let w₁ : World := ⟨.initial 0, 0, .posting 0 none, none⟩
  let w₂ : World := ⟨smallHub, 1, .posting 0 (some true), some 0⟩
  let w₃ : World := ⟨smallHub, 2, .sleeping 2, some 0⟩
  let w₄ : World := ⟨smallHub, 32, .posting 32 none, some 0⟩
  let w₅ : World := ⟨smallHub, 42, .sleeping 42, some 1⟩
  let hub : Timed := smallHub.after smallLink.hub.digest (.job 60)
  let w₆ : World := ⟨hub, 60, .sleeping 42, some 1⟩
  have h₁ : (World.init 0).step smallLink (.send 0) = some w₁ :=
    step_of_act (v := w₁) (le_refl 0) rfl
  have h₂ : w₁.step smallLink (.handled true (.ok (true, true)) 1) = some w₂ :=
    step_of_act (show (0 : ℚ) ≤ 1 by norm_num) act_small
  have h₃ : w₂.step smallLink (.ended 2) = some w₃ :=
    step_of_act (v := { w₃ with clock := 1 }) (show (1 : ℚ) ≤ 2 by norm_num) rfl
  have h₄ : w₃.step smallLink (.send 32) = some w₄ :=
    step_of_act (v := { w₄ with clock := 2 }) (show (2 : ℚ) ≤ 32 by norm_num) rfl
  have h₅ : w₄.step smallLink (.ended 42) = some w₅ :=
    step_of_act (v := { w₅ with clock := 32 }) (show (32 : ℚ) ≤ 42 by norm_num) rfl
  have hjob : smallHub.step smallLink.hub.digest (.job 60) = some hub := by
    have htime : smallHub.clock ≤ 60 := show (1 : ℚ) ≤ 60 by norm_num
    rw [Timed.step, if_pos ⟨htime, trivial⟩]
  have h₆ : w₅.step smallLink (.hub (.job 60)) = some w₆ := by
    refine step_of_act (v := ⟨hub, 42, .sleeping 42, some 1⟩) (show (42 : ℚ) ≤ 60 by norm_num) ?_
    simp only [World.act, w₅, hjob]
    rfl
  have hrun : run (World.step smallLink) (World.init 0) smallLabels = some w₆ := by
    simp only [smallLabels, run, h₁, h₂, h₃, h₄, h₅, h₆, Option.bind_some]
  have hprompt : Along (World.step smallLink) (Prompt 10 30) (World.init 0) smallLabels := by
    simp only [smallLabels, Along, h₁, h₂, h₃, h₄, h₅, h₆, Option.some.injEq, forall_eq']
    refine ⟨trivial, ?_, ?_, ?_, ?_, ?_, trivial⟩ <;> norm_num [Prompt, Loop.Before, Label.time,
      Event.time, w₁, w₂, w₃, w₄, w₅]
  refine ⟨w₆, hrun, rfl, ?_⟩
  refine heartbeat_kept smallLink_matched (le_refl 0) (by norm_num) (by norm_num) hprompt hrun
    (n := 1) rfl (by norm_num) ?_
  intro b hb _
  exact congrArg Prod.fst (List.mem_singleton.1 hb)

end ProverNetwork.Ports.SendHeartbeat
