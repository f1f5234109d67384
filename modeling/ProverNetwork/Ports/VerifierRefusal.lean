import ProverNetwork.Ports.VerifierUpdate

/-!
# Verifier updates that a node refuses

The gRPC method `UpdateVerifier` and the HTTP route `PUT /verifier` decrypt the
two fields of a request and hand them to the hub client.  They are copies of each
other but for the texts of their answers.

A decryption fails in two ways: it raises, which both catch, or it answers
`False`.  As JSON text `False` is refused; as a proof hash nothing looks at it.

## Main results

* `chain_answer` — the chain to the explorer starts with the gRPC method.
* `decodeFor_loaded` — what the front ends make of a request once the key is
  loaded.
* `refusesCleanly_iff` — when a request is refused cleanly or passed on right.
-/

namespace ProverNetwork.Ports.VerifierUpdate

open ProverNetwork.Verified
open ProverNetwork.Ports

/-- The node: its key files, the seeds of its ciphertexts, and how a PUT of a body
to the hub ends. -/
structure Node (Pub Priv : Type) where
  libs : Libs Pub Priv
  private_key : FileRead
  session_key : FileRead
  seeds : List UInt8 × List UInt8
  put : String × String → PutOutcome

/-- What comes of a request: the answer, the arguments that the hub client was
called with, and the body that went to the hub. -/
structure Handled where
  answer : NodeAnswer
  called : Option (Option String × PyVal)
  sent : Option (String × String)

namespace Node

variable {Pub Priv : Type} (node : Node Pub Priv)

/-- `UpdateVerifier` or `verifier`. -/
def handle (front : FrontEnd) (request : Request) : Handled :=
  match decodeFor node.libs front.texts node.private_key request with
  | .respond a => ⟨a, none, none⟩
  | .halt _ => ⟨.raises, none, none⟩
  | .next (proof_hash, verifiers) =>
      match hubBody node.libs node.session_key node.seeds proof_hash verifiers with
      | .respond result => ⟨answerFor front.texts result, some (proof_hash, verifiers), none⟩
      | .halt _ => ⟨.raises, some (proof_hash, verifiers), none⟩
      | .next body =>
          ⟨answerFor front.texts (hubResult (node.put body)), some (proof_hash, verifiers),
            some body⟩

/-- The key file is read and its key, if it has one, is loaded. -/
def KeyLoaded (e : RSAEncryption Pub Priv) : Prop :=
  ∃ pem, node.private_key = .text pem ∧ RSAEncryption.init node.libs.crypto "" pem = .ok e

/-- The verifier field decrypts to the JSON text of a truthy value. -/
def Lists (e : RSAEncryption Pub Priv) (request : Request) (v : PyVal) : Prop :=
  ∃ text, e.decrypt node.libs.crypto request.verifier = .ok (some text) ∧
    node.libs.loads text = some v ∧ v.truthy = true

/-- Both fields decrypt under the node's key to text, and the verifier text is JSON
of a truthy value. -/
def Update (request : Request) (h : String) (v : PyVal) : Prop :=
  ∃ e, node.KeyLoaded e ∧ e.decrypt node.libs.crypto request.proof_hash = .ok (some h) ∧
    node.Lists e request v

/-- An update is passed on as it is; everything else is answered with an invalid
key and goes no further. -/
def RefusesCleanly (front : FrontEnd) (request : Request) : Prop :=
  (∀ h v, node.Update request h v →
    (node.handle front request).called = some (some h, v)) ∧
  ((∀ h v, ¬node.Update request h v) →
    (∃ msg, (node.handle front request).answer = .status STATUS_CODE_PRIVATE_KEY_INVALID msg) ∧
      (node.handle front request).called = none ∧ (node.handle front request).sent = none)

/-! ## What the front ends make of a request -/

variable {node}

theorem decodeFor_eq_next {texts : Texts} {request : Request} {hash : Option String}
    {v : PyVal} :
    decodeFor node.libs texts node.private_key request = .next (hash, v) ↔
      ∃ e, node.KeyLoaded e ∧ e.decrypt node.libs.crypto request.proof_hash = .ok hash ∧
        node.Lists e request v := by
  unfold decodeFor KeyLoaded Lists
  cases hfile : node.private_key with
  | notFound => simp [readKey]
  | fails error => simp [readKey]
  | text pem =>
      simp only [readKey, Reply.next_bind, Reply.bind_eq_next, Reply.ofExcept_eq_next,
        Reply.ofOption_eq_next, Reply.require_eq_next, Reply.pure_eq, Reply.next.injEq,
        Prod.mk.injEq, FileRead.text.injEq, exists_eq_left']
      constructor
      · rintro ⟨e, hinit, _, hdecrypt, _, hplain, text, rfl, _, hloads, _, htruthy, rfl, rfl⟩
        exact ⟨e, hinit, hdecrypt, text, hplain, hloads, htruthy⟩
      · rintro ⟨e, hinit, hdecrypt, text, hplain, hloads, htruthy⟩
        exact ⟨e, hinit, hash, hdecrypt, some text, hplain, text, rfl, v, hloads, (), htruthy,
          rfl, rfl⟩

/-- Once the key is loaded a front end answers only with an invalid key. -/
theorem decodeFor_loaded {texts : Texts} {e : RSAEncryption Pub Priv} (hkey : node.KeyLoaded e)
    (request : Request) :
    (decodeFor node.libs texts node.private_key request).Ends
      (fun a => ∃ msg, a = .status STATUS_CODE_PRIVATE_KEY_INVALID msg) (fun _ => True) := by
  obtain ⟨pem, hfile, hinit⟩ := hkey
  unfold decodeFor
  have hload := (Reply.ofExcept_eq_next NodeAnswer.raises _ e).2 hinit
  rw [hfile]
  dsimp only [readKey]
  rw [Reply.next_bind, hload, Reply.next_bind]
  simp only [Reply.ends_bind, Reply.ends_ofOption, Reply.ends_ofExcept,
    Reply.ends_require, Reply.pure_eq, Reply.ends_next]
  exact ⟨fun _ _ => ⟨_, rfl⟩, fun _ _ => ⟨fun _ _ => ⟨_, rfl⟩, fun _ _ =>
    ⟨fun _ => ⟨_, rfl⟩, fun _ _ => ⟨fun _ => ⟨_, rfl⟩, fun _ _ =>
      ⟨fun _ => ⟨_, rfl⟩, fun _ => trivial⟩⟩⟩⟩⟩

/-- A key file that is there and gives no key object makes a front end raise. -/
theorem decodeFor_not_loaded {texts : Texts} (hthere : node.private_key ≠ .notFound)
    (hkey : ∀ e, ¬node.KeyLoaded e) (request : Request) :
    decodeFor node.libs texts node.private_key request = .respond .raises := by
  unfold decodeFor
  cases hfile : node.private_key with
  | notFound => exact absurd hfile hthere
  | fails error => rfl
  | text pem =>
      dsimp only [readKey]
      rw [Reply.next_bind]
      cases hinit : RSAEncryption.init node.libs.crypto "" pem with
      | ok e => exact absurd ⟨pem, hfile, hinit⟩ (hkey e)
      | error e => rfl

theorem handle_of_next {front : FrontEnd} {request : Request} {hash : Option String} {v : PyVal}
    (h : decodeFor node.libs front.texts node.private_key request = .next (hash, v)) :
    (node.handle front request).called = some (hash, v) := by
  unfold handle
  rw [h]
  dsimp only
  split <;> rfl

theorem handle_of_respond {front : FrontEnd} {request : Request} {a : NodeAnswer}
    (h : decodeFor node.libs front.texts node.private_key request = .respond a) :
    node.handle front request = ⟨a, none, none⟩ := by
  unfold handle
  rw [h]

theorem KeyLoaded.unique {e e' : RSAEncryption Pub Priv} (h : node.KeyLoaded e)
    (h' : node.KeyLoaded e') : e = e' := by
  obtain ⟨pem, hfile, hinit⟩ := h
  obtain ⟨pem', hfile', hinit'⟩ := h'
  cases hfile.symm.trans hfile'
  exact Except.ok.inj (hinit.symm.trans hinit')

/-- A proof hash that decrypts to `False` is passed on, and is no update. -/
theorem not_refusesCleanly_of_false {front : FrontEnd} {request : Request}
    {e : RSAEncryption Pub Priv} {v : PyVal} (he : node.KeyLoaded e)
    (hfalse : e.decrypt node.libs.crypto request.proof_hash = .ok none)
    (hlists : node.Lists e request v) : ¬node.RefusesCleanly front request := by
  intro hclean
  have hnext : decodeFor node.libs front.texts node.private_key request = .next (none, v) :=
    decodeFor_eq_next.2 ⟨e, he, hfalse, hlists⟩
  have hno : ∀ h v, ¬node.Update request h v := by
    rintro h v' ⟨e', he', hhash, -⟩
    rw [← he.unique he', hfalse] at hhash
    cases hhash
  have hcalled := (hclean.2 hno).2.1
  rw [handle_of_next hnext] at hcalled
  cases hcalled

/-- Without a key object the request ends in an exception. -/
theorem keyLoaded_of_refusesCleanly {front : FrontEnd} {request : Request}
    (hthere : node.private_key ≠ .notFound) (hclean : node.RefusesCleanly front request) :
    ∃ e, node.KeyLoaded e := by
  by_contra hkey
  rw [not_exists] at hkey
  have hno : ∀ h v, ¬node.Update request h v := fun h v hupdate => hkey _ hupdate.choose_spec.1
  obtain ⟨msg, hanswer⟩ := (hclean.2 hno).1
  rw [handle_of_respond (decodeFor_not_loaded hthere hkey request)] at hanswer
  cases hanswer

/-- With a key object, what is no update is answered and not passed on, unless the proof
hash decrypts to `False`. -/
theorem refused_of_no_update {front : FrontEnd} {request : Request}
    {e : RSAEncryption Pub Priv} (hkey : node.KeyLoaded e)
    (hcond : ¬(e.decrypt node.libs.crypto request.proof_hash = .ok none ∧
      ∃ v, node.Lists e request v))
    (hno : ∀ h v, ¬node.Update request h v) :
    (∃ msg, (node.handle front request).answer = .status STATUS_CODE_PRIVATE_KEY_INVALID msg) ∧
      (node.handle front request).called = none ∧ (node.handle front request).sent = none := by
  have hends : (decodeFor node.libs front.texts node.private_key request).Ends
      (fun a => ∃ msg, a = .status STATUS_CODE_PRIVATE_KEY_INVALID msg) (fun _ => True) :=
    decodeFor_loaded hkey request
  cases hdecode : decodeFor node.libs front.texts node.private_key request with
  | halt error =>
      rw [hdecode] at hends
      exact hends.elim
  | respond a =>
      rw [hdecode] at hends
      rw [handle_of_respond hdecode]
      exact ⟨hends, rfl, rfl⟩
  | next pair =>
      obtain ⟨hash, v⟩ := pair
      obtain ⟨e', he', hhash, hlists⟩ := decodeFor_eq_next.1 hdecode
      rw [← hkey.unique he'] at hhash hlists
      cases hash with
      | none => exact absurd ⟨hhash, v, hlists⟩ hcond
      | some h => exact absurd ⟨e, hkey, hhash, hlists⟩ (hno h v)

variable (node)

/-- **When an update is refused cleanly or passed on**, by either front end: the
key file gives a key object, and it is not the case that the proof hash decrypts to
`False` while the verifiers decrypt. -/
theorem refusesCleanly_iff (hthere : node.private_key ≠ .notFound) (front : FrontEnd)
    (request : Request) :
    node.RefusesCleanly front request ↔ ∃ e, node.KeyLoaded e ∧
      ¬(e.decrypt node.libs.crypto request.proof_hash = .ok none ∧
        ∃ v, node.Lists e request v) := by
  constructor
  · intro hclean
    obtain ⟨e, he⟩ := keyLoaded_of_refusesCleanly hthere hclean
    refine ⟨e, he, ?_⟩
    rintro ⟨hfalse, v, hlists⟩
    exact not_refusesCleanly_of_false he hfalse hlists hclean
  · rintro ⟨e, hkey, hcond⟩
    constructor
    · rintro h v ⟨e', he', hhash, hlists⟩
      exact handle_of_next (decodeFor_eq_next.2 ⟨e', he', hhash, hlists⟩)
    · exact refused_of_no_update hkey hcond

end Node

/-! ## The chain to the explorer -/

/-- The node of the chain; a PUT ends as the network shows what the hub answers. -/
def Environment.node {Pub Priv : Type} (env : Environment Pub Priv) : Node Pub Priv where
  libs := env.libs
  private_key := env.node_private_key
  session_key := env.session_key
  seeds := env.node_seeds
  put := fun body => env.to_hub.seen (some (env.hub body).1.status)

/-- The chain starts with the gRPC front end of the node. -/
theorem chain_answer {Pub Priv : Type} (env : Environment Pub Priv) (request : Request) :
    (env.chain request).answer = (env.node.handle .grpc request).answer := by
  unfold Environment.chain Node.handle
  rw [← decode]
  dsimp only [Environment.node]
  cases decode env.libs env.node_private_key request with
  | respond a => rfl
  | halt error => rfl
  | next pair =>
      dsimp only
      cases hubBody env.libs env.session_key env.node_seeds pair.1 pair.2 with
      | respond result => rfl
      | halt error => rfl
      | next body => rfl

/-! ## One request -/

/-- A node whose hub answers every PUT with 200. -/
def smallNode : Node Unit Unit := (answering 200).node

def smallKey : RSAEncryption Unit Unit := ⟨"", "node private", none, some ()⟩

theorem smallKey_loaded : smallNode.KeyLoaded smallKey := ⟨"node private", rfl, rfl⟩

theorem smallKey_lists (proof_hash : String) :
    smallNode.Lists smallKey ⟨proof_hash, RSAEncryption.cipher "[\"alice\"]"⟩
      (.list [.str "alice"]) :=
  ⟨"[\"alice\"]", RSAEncryption.decrypt_plain rfl _, rfl, rfl⟩

/-- A list that no one encrypted is refused. -/
theorem plainList_refused :
    smallNode.RefusesCleanly .http ⟨RSAEncryption.cipher "hash", " "⟩ := by
  refine (smallNode.refusesCleanly_iff (fun h => by cases h) .http _).2
    ⟨smallKey, smallKey_loaded, ?_⟩
  rintro ⟨-, v, text, hdecrypt, -⟩
  have hplain : smallKey.decrypt smallNode.libs.crypto " " = .ok none := rfl
  cases hplain.symm.trans hdecrypt

/-- **A proof hash that no one encrypted is not refused**: the hub client is called
with `False` for a hash, and raises. -/
theorem plainHash_raises :
    (smallNode.handle .grpc ⟨" ", RSAEncryption.cipher "[\"alice\"]"⟩).answer = .raises ∧
      (smallNode.handle .grpc ⟨" ", RSAEncryption.cipher "[\"alice\"]"⟩).called =
        some (none, .list [.str "alice"]) ∧
      ¬smallNode.RefusesCleanly .grpc ⟨" ", RSAEncryption.cipher "[\"alice\"]"⟩ ∧
      ¬smallNode.RefusesCleanly .http ⟨" ", RSAEncryption.cipher "[\"alice\"]"⟩ := by
  have hfalse : smallKey.decrypt smallNode.libs.crypto " " = .ok none := rfl
  have hnext : decodeFor smallNode.libs FrontEnd.grpc.texts smallNode.private_key
      ⟨" ", RSAEncryption.cipher "[\"alice\"]"⟩ = .next (none, .list [.str "alice"]) :=
    Node.decodeFor_eq_next.2 ⟨smallKey, smallKey_loaded, hfalse, smallKey_lists " "⟩
  have hanswer : (smallNode.handle .grpc ⟨" ", RSAEncryption.cipher "[\"alice\"]"⟩).answer =
      .raises := by
    unfold Node.handle
    rw [hnext]
    rfl
  have hcalled := Node.handle_of_next hnext
  have hrefuse : ∀ front,
      ¬smallNode.RefusesCleanly front ⟨" ", RSAEncryption.cipher "[\"alice\"]"⟩ := by
    intro front hclean
    have hno : ∀ h v, ¬smallNode.Update ⟨" ", RSAEncryption.cipher "[\"alice\"]"⟩ h v := by
      rintro h v ⟨e, ⟨pem, hfile, hinit⟩, hhash, -⟩
      cases hfile
      cases hinit
      cases hfalse.symm.trans hhash
    have hcalled' : (smallNode.handle front ⟨" ", RSAEncryption.cipher "[\"alice\"]"⟩).called =
        some (none, .list [.str "alice"]) :=
      Node.handle_of_next (Node.decodeFor_eq_next.2
        ⟨smallKey, smallKey_loaded, hfalse, smallKey_lists " "⟩)
    rw [(hclean.2 hno).2.1] at hcalled'
    cases hcalled'
  exact ⟨hanswer, hcalled, hrefuse .grpc, hrefuse .http⟩

end ProverNetwork.Ports.VerifierUpdate
