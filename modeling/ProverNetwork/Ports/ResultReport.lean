import ProverNetwork.Ports.VerifierUpdate

/-!
# The report of a proof on its way to the explorer

After a proof the node encrypts the project, the proof hash, the duration and the
verifiers under the session key and posts them to the hub; the hub decrypts the
four texts, refuses empty ones, and posts them to the explorer under the
explorer's key.  Nobody retries: the node logs what the hub answers and the hub
logs what the explorer answers.

## Main results

* `acceptReport_of_pair` — the hub reads what the node reported.
* `Relay.reaches_iff` — when a report reaches the explorer, and what the explorer
  reads there.
-/

namespace ProverNetwork.Ports.ResultReport

open ProverNetwork.Verified
open ProverNetwork.Ports
open ProverNetwork.Ports.HubResponse
open ProverNetwork.Ports.VerifierUpdate

/-- The four members of a report: in plain text, encrypted, or the seeds of the
ciphertexts. -/
structure Fields (α : Type) where
  project_name : α
  proof_hash : α
  duration : α
  verifiers : α
  deriving DecidableEq

/-- The arguments of `Hub.send_result`. -/
structure Report where
  project_name : PyVal
  proof_hash : String
  duration : Option Int
  verifiers : PyVal

/-- `str(duration)`. -/
def durationText : Option Int → String
  | none => "None"
  | some n => toString n

/-- What `encrypt` makes of an argument: only a string has an `encode`. -/
def plainText : PyVal → Option String
  | .str s => some s
  | _ => none

section Handlers

variable {Pub Priv : Type} (libs : VerifierUpdate.Libs Pub Priv)

/-! ## The node -/

/-- How `Hub.send_result` ends for its caller, where it ends before the POST. -/
inductive SendEnd
  | returns
  | raises
  deriving DecidableEq

/-- `Hub.send_result` up to the POST, with the encrypted body.  Only a missing key
file is caught; the POST itself raises nothing. -/
def sendResult (sessionKey : FileRead) (seeds : Fields (List UInt8)) (report : Report) :
    Reply SendEnd (Fields String) := do
  let session_key ← readKey .returns (fun _ => .raises) sessionKey
  let encryptor ← Reply.ofExcept .raises (RSAEncryption.init libs.crypto session_key "")
  let project_name ← Reply.ofExcept .raises
    (encryptor.encrypt libs.crypto seeds.project_name (plainText report.project_name))
  let proof_hash ← Reply.ofExcept .raises
    (encryptor.encrypt libs.crypto seeds.proof_hash (some report.proof_hash))
  let duration ← Reply.ofExcept .raises
    (encryptor.encrypt libs.crypto seeds.duration (some (durationText report.duration)))
  let text ← Reply.ofExcept .raises (libs.dumps report.verifiers)
  let verifiers ← Reply.ofExcept .raises
    (encryptor.encrypt libs.crypto seeds.verifiers (some text))
  return ⟨project_name, proof_hash, duration, verifiers⟩

/-! ## The hub -/

/-- A decrypted member that is not empty. -/
def nonempty (text : Option String) : Reply HubAnswer String :=
  Reply.ofOption hubDecryptionFailed (text.filter (fun s => s ≠ ""))

/-- `hub_post_results` up to `get_explorer`. -/
def acceptReport (privateKey : FileRead) (body : Fields String) :
    Reply HubAnswer (Fields String) := do
  let private_key ← readKey hubKeyNotExist (fun _ => .raises) privateKey
  let rsa_encryption ← Reply.ofExcept .raises (RSAEncryption.init libs.crypto "" private_key)
  let project_name ← Reply.ofExcept hubDecryptionFailed
    (rsa_encryption.decrypt libs.crypto body.project_name)
  let proof_hash ← Reply.ofExcept hubDecryptionFailed
    (rsa_encryption.decrypt libs.crypto body.proof_hash)
  let verifiers ← Reply.ofExcept hubDecryptionFailed
    (rsa_encryption.decrypt libs.crypto body.verifiers)
  let duration ← Reply.ofExcept hubDecryptionFailed
    (rsa_encryption.decrypt libs.crypto body.duration)
  let project_name ← nonempty project_name
  let proof_hash ← nonempty proof_hash
  let verifiers ← nonempty verifiers
  let duration ← nonempty duration
  return ⟨project_name, proof_hash, duration, verifiers⟩

/-- `Explorer.send_proof` up to the POST. -/
def sendProof (encryptor : RSAEncryption Pub Priv) (seeds : Fields (List UInt8))
    (texts : Fields String) : Except PyError (Fields String) := do
  let project_name ← encryptor.encrypt libs.crypto seeds.project_name (some texts.project_name)
  let proof_hash ← encryptor.encrypt libs.crypto seeds.proof_hash (some texts.proof_hash)
  let duration ← encryptor.encrypt libs.crypto seeds.duration (some texts.duration)
  let verifiers ← encryptor.encrypt libs.crypto seeds.verifiers (some texts.verifiers)
  return ⟨project_name, proof_hash, duration, verifiers⟩

/-- `hub_post_results` up to the POST to the explorer, if it makes one. -/
def forwardReport (privateKey explorerKey : FileRead) (seeds : Fields (List UInt8))
    (body : Fields String) : Reply HubAnswer (Option (Fields String)) := do
  let texts ← acceptReport libs privateKey body
  let explorer ← getExplorer libs explorerKey
  match explorer with
  | none => return none
  | some encryptor =>
      return some (← VerifierUpdate.explorerPut.orRaise (fun e => hubRequestError (libs.str e))
        (sendProof libs encryptor seeds texts))

end Handlers

/-! ## What the hub accepts -/

section Accepting

variable {Pub Priv : Type} {libs : VerifierUpdate.Libs Pub Priv}

/-- The texts that the four members decrypt to, none of them empty. -/
structure Opens (libs : VerifierUpdate.Libs Pub Priv) (e : RSAEncryption Pub Priv)
    (body texts : Fields String) : Prop where
  project_name : e.decrypt libs.crypto body.project_name = .ok (some texts.project_name)
  proof_hash : e.decrypt libs.crypto body.proof_hash = .ok (some texts.proof_hash)
  duration : e.decrypt libs.crypto body.duration = .ok (some texts.duration)
  verifiers : e.decrypt libs.crypto body.verifiers = .ok (some texts.verifiers)

/-- None of the four texts is empty. -/
def Fields.Nonempty (texts : Fields String) : Prop :=
  texts.project_name ≠ "" ∧ texts.proof_hash ≠ "" ∧ texts.duration ≠ "" ∧ texts.verifiers ≠ ""

theorem nonempty_some_iff {s t : String} : nonempty (some s) = .next t ↔ s = t ∧ s ≠ "" := by
  rw [nonempty, Reply.ofOption_eq_next, Option.filter_eq_some_iff]
  constructor
  · rintro ⟨heq, hne⟩
    cases heq
    exact ⟨rfl, by simpa using hne⟩
  · rintro ⟨rfl, hne⟩
    exact ⟨rfl, by simpa using hne⟩

/-- Members that decrypt are accepted if and only if none is empty. -/
theorem acceptReport_of_opens {key : String} {e : RSAEncryption Pub Priv}
    {body texts texts' : Fields String} (hinit : RSAEncryption.init libs.crypto "" key = .ok e)
    (hopens : Opens libs e body texts) :
    acceptReport libs (.text key) body = .next texts' ↔ texts' = texts ∧ texts.Nonempty := by
  simp only [acceptReport, readKey, hinit, Reply.ofExcept, hopens.project_name,
    hopens.proof_hash, hopens.verifiers, hopens.duration, Reply.next_bind, Reply.bind_eq_next,
    nonempty_some_iff, Reply.pure_eq, Reply.next.injEq]
  constructor
  · rintro ⟨_, ⟨rfl, hp⟩, _, ⟨rfl, hh⟩, _, ⟨rfl, hv⟩, _, ⟨rfl, hd⟩, rfl⟩
    exact ⟨rfl, hp, hh, hd, hv⟩
  · rintro ⟨rfl, hp, hh, hd, hv⟩
    exact ⟨_, ⟨rfl, hp⟩, _, ⟨rfl, hh⟩, _, ⟨rfl, hv⟩, _, ⟨rfl, hd⟩, rfl⟩

/-- The texts of a report, where its project is named by a string and its
verifiers have a JSON text. -/
structure Texts (libs : VerifierUpdate.Libs Pub Priv) (report : Report)
    (texts : Fields String) : Prop where
  project_name : report.project_name = .str texts.project_name
  proof_hash : report.proof_hash = texts.proof_hash
  duration : durationText report.duration = texts.duration
  verifiers : libs.dumps report.verifiers = .ok texts.verifiers

theorem Texts.unique {report : Report} {texts texts' : Fields String}
    (h : Texts libs report texts) (h' : Texts libs report texts') : texts = texts' := by
  obtain ⟨p, h₁, d, v⟩ := texts
  obtain ⟨p', h₁', d', v'⟩ := texts'
  have hp := h.project_name.symm.trans h'.project_name
  have hh := h.proof_hash.symm.trans h'.proof_hash
  have hd := h.duration.symm.trans h'.duration
  have hv := h.verifiers.symm.trans h'.verifiers
  simp only [PyVal.str.injEq, Except.ok.injEq] at hp hh hd hv
  subst hp hh hd hv
  rfl

theorem plainText_eq_some {v : PyVal} {s : String} (h : plainText v = some s) : v = .str s := by
  cases v with
  | str t =>
      cases h
      rfl
  | _ => cases h

/-- Only a text is encrypted. -/
theorem plaintext_of_encrypt {lib : Cryptography Pub Priv} {e : RSAEncryption Pub Priv}
    {seed : List UInt8} {plaintext : Option String} {ciphertext : String}
    (h : e.encrypt lib seed plaintext = .ok ciphertext) : ∃ text, plaintext = some text := by
  cases plaintext with
  | some text => exact ⟨text, rfl⟩
  | none =>
      unfold RSAEncryption.encrypt at h
      cases hpublic : e.public_key <;> simp [hpublic] at h

/-- A node that posts a report has encrypted its texts. -/
theorem sendResult_eq_next {sessionKey : FileRead} {seeds : Fields (List UInt8)}
    {report : Report} {body : Fields String}
    (h : sendResult libs sessionKey seeds report = .next body) :
    ∃ key e texts, sessionKey = .text key ∧ RSAEncryption.init libs.crypto key "" = .ok e ∧
      Texts libs report texts ∧ sendProof libs e seeds texts = .ok body := by
  simp only [sendResult, Reply.bind_eq_next, Reply.ofExcept_eq_next, Reply.pure_eq,
    Reply.next.injEq] at h
  obtain ⟨key, hkey, e, hinit, p, hp, c, hc, d, hd, text, htext, v, hv, rfl⟩ := h
  have hsession : sessionKey = .text key := by
    cases sessionKey with
    | text s =>
        cases hkey
        rfl
    | notFound => cases hkey
    | fails error => cases hkey
  obtain ⟨name, hname⟩ := plaintext_of_encrypt hp
  rw [hname] at hp
  refine ⟨key, e, ⟨name, report.proof_hash, durationText report.duration, text⟩, hsession,
    hinit, ⟨plainText_eq_some hname, rfl, rfl, htext⟩, ?_⟩
  simp only [sendProof, hp, hc, hd, hv]
  rfl

/-- A key that belongs to the one the members were encrypted with opens them. -/
theorem opens_of_pair {e e' : RSAEncryption Pub Priv} {pub : Pub} {priv : Priv}
    (hpub : e.public_key = some pub) (hpriv : e'.private_key = some priv)
    (hpair : RSAEncryption.KeyPair libs.crypto pub priv) {seeds : Fields (List UInt8)}
    {texts body : Fields String} (h : sendProof libs e seeds texts = .ok body) :
    Opens libs e' body texts := by
  unfold sendProof at h
  cases hp : e.encrypt libs.crypto seeds.project_name (some texts.project_name) with
  | error err => simp [hp, bind, Except.bind] at h
  | ok p =>
  cases hh : e.encrypt libs.crypto seeds.proof_hash (some texts.proof_hash) with
  | error err => simp [hp, hh, bind, Except.bind] at h
  | ok c =>
  cases hd : e.encrypt libs.crypto seeds.duration (some texts.duration) with
  | error err => simp [hp, hh, hd, bind, Except.bind] at h
  | ok d =>
  cases hv : e.encrypt libs.crypto seeds.verifiers (some texts.verifiers) with
  | error err => simp [hp, hh, hd, hv, bind, Except.bind] at h
  | ok v =>
      simp only [hp, hh, hd, hv, bind, Except.bind, pure, Except.pure, Except.ok.injEq] at h
      subst h
      exact ⟨RSAEncryption.decrypt_encrypt hpub hpriv hpair hp,
        RSAEncryption.decrypt_encrypt hpub hpriv hpair hh,
        RSAEncryption.decrypt_encrypt hpub hpriv hpair hd,
        RSAEncryption.decrypt_encrypt hpub hpriv hpair hv⟩

end Accepting

/-! ## From the node to the explorer -/

/-- The key files of the node and of the hub, the seeds, and the two hops. -/
structure Relay (Pub Priv : Type) where
  libs : VerifierUpdate.Libs Pub Priv
  session_key : FileRead
  hub_private_key : FileRead
  explorer_key : FileRead
  node_seeds : Fields (List UInt8)
  hub_seeds : Fields (List UInt8)
  to_hub : Hop
  to_explorer : Hop

namespace Relay

variable {Pub Priv : Type} (r : Relay Pub Priv)

/-- The POST that reaches the explorer for a report, if one does. -/
def reaches (report : Report) : Option (Fields String) :=
  match sendResult r.libs r.session_key r.node_seeds report with
  | .next body =>
      if r.to_hub.arrives then
        match forwardReport r.libs r.hub_private_key r.explorer_key r.hub_seeds body with
        | .next (some post) => if r.to_explorer.arrives then some post else none
        | _ => none
      else none
  | _ => none

/-- The session key of the node and the private key of the hub are a pair. -/
structure Matched (private_key : String) (e e' : RSAEncryption Pub Priv) (pub : Pub)
    (priv : Priv) : Prop where
  hub : r.hub_private_key = .text private_key
  session : ∀ key, r.session_key = .text key →
    RSAEncryption.init r.libs.crypto key "" = .ok e
  init : RSAEncryption.init r.libs.crypto "" private_key = .ok e'
  session_public : e.public_key = some pub
  hub_private : e'.private_key = some priv
  pair : RSAEncryption.KeyPair r.libs.crypto pub priv

variable {r} {private_key : String} {e e' : RSAEncryption Pub Priv} {pub : Pub} {priv : Priv}

/-- **The hub reads what the node reported**, and refuses an empty text. -/
theorem acceptReport_of_pair (hmatched : r.Matched private_key e e' pub priv) {report : Report}
    {body texts' : Fields String}
    (hsends : sendResult r.libs r.session_key r.node_seeds report = .next body) :
    acceptReport r.libs r.hub_private_key body = .next texts' ↔
      Texts r.libs report texts' ∧ texts'.Nonempty := by
  obtain ⟨key, e₁, texts, hsession, hinit, htexts, hbody⟩ := sendResult_eq_next hsends
  cases hinit.symm.trans (hmatched.session key hsession)
  have hopens := opens_of_pair hmatched.session_public hmatched.hub_private hmatched.pair hbody
  rw [hmatched.hub, acceptReport_of_opens hmatched.init hopens]
  constructor
  · rintro ⟨rfl, hne⟩
    exact ⟨htexts, hne⟩
  · rintro ⟨htexts', hne⟩
    have heq := htexts'.unique htexts
    exact ⟨heq, heq ▸ hne⟩

theorem forwardReport_eq_some {libs : VerifierUpdate.Libs Pub Priv}
    {privateKey explorerKey : FileRead}
    {seeds : Fields (List UInt8)} {body post : Fields String} :
    forwardReport libs privateKey explorerKey seeds body = .next (some post) ↔
      ∃ texts encryptor, acceptReport libs privateKey body = .next texts ∧
        getExplorer libs explorerKey = .next (some encryptor) ∧
        sendProof libs encryptor seeds texts = .ok post := by
  simp only [forwardReport, Reply.bind_eq_next]
  constructor
  · rintro ⟨texts, haccept, explorer, hexplorer, hrest⟩
    cases explorer with
    | none => cases hrest
    | some encryptor =>
        refine ⟨texts, encryptor, haccept, hexplorer, ?_⟩
        dsimp only at hrest
        cases hsend : sendProof libs encryptor seeds texts with
        | error err =>
            rw [hsend] at hrest
            cases hrest
        | ok post' =>
            rw [hsend] at hrest
            cases hrest
            rfl
  · rintro ⟨texts, encryptor, haccept, hexplorer, hsend⟩
    refine ⟨texts, haccept, some encryptor, hexplorer, ?_⟩
    dsimp only
    rw [hsend]
    rfl

theorem reaches_eq_some {report : Report} {post : Fields String} :
    r.reaches report = some post ↔ ∃ body,
      sendResult r.libs r.session_key r.node_seeds report = .next body ∧
      r.to_hub.arrives = true ∧
      forwardReport r.libs r.hub_private_key r.explorer_key r.hub_seeds body =
        .next (some post) ∧ r.to_explorer.arrives = true := by
  unfold reaches
  cases hsend : sendResult r.libs r.session_key r.node_seeds report with
  | respond a => simp
  | halt err => simp
  | next body =>
      cases r.to_hub.arrives with
      | false => simp
      | true =>
          cases hforward : forwardReport r.libs r.hub_private_key r.explorer_key r.hub_seeds
            body with
          | respond a => simp [hforward]
          | halt err => simp [hforward]
          | next p =>
              cases p with
              | none => simp [hforward]
              | some post' =>
                  cases r.to_explorer.arrives <;> simp [hforward]

/-- **When a report reaches the explorer, and what it reads there.**  Where the
keys of node and hub are a pair, a report arrives exactly when the node posts it,
no text of it is empty, the hub has a usable key of the explorer under which the
four texts can be encrypted, and neither POST is lost; and whatever key belongs
to the one of the explorer then opens the four texts of the node. -/
theorem reaches_iff (hmatched : r.Matched private_key e e' pub priv) (report : Report)
    (post : Fields String) :
    r.reaches report = some post ↔
      ∃ body texts encryptor,
        sendResult r.libs r.session_key r.node_seeds report = .next body ∧
        Texts r.libs report texts ∧ texts.Nonempty ∧
        getExplorer r.libs r.explorer_key = .next (some encryptor) ∧
        sendProof r.libs encryptor r.hub_seeds texts = .ok post ∧
        r.to_hub.arrives = true ∧ r.to_explorer.arrives = true ∧
        ∀ (reader : RSAEncryption Pub Priv) pub' priv', encryptor.public_key = some pub' →
          reader.private_key = some priv' → RSAEncryption.KeyPair r.libs.crypto pub' priv' →
          Opens r.libs reader post texts := by
  rw [reaches_eq_some]
  simp only [forwardReport_eq_some]
  constructor
  · rintro ⟨body, hsends, hhub, ⟨texts, encryptor, haccept, hexplorer, hpost⟩, hto⟩
    obtain ⟨htexts, hne⟩ := (acceptReport_of_pair hmatched hsends).1 haccept
    exact ⟨body, texts, encryptor, hsends, htexts, hne, hexplorer, hpost, hhub, hto,
      fun reader pub' priv' hpub' hpriv' hpair' => opens_of_pair hpub' hpriv' hpair' hpost⟩
  · rintro ⟨body, texts, encryptor, hsends, htexts, hne, hexplorer, hpost, hhub, hto, -⟩
    exact ⟨body, hsends, hhub, ⟨texts, encryptor,
      (acceptReport_of_pair hmatched hsends).2 ⟨htexts, hne⟩, hexplorer, hpost⟩, hto⟩

end Relay

/-! ## One report -/

/-- Every key is there, and nothing is lost on the way. -/
def smallRelay : Relay Unit Unit where
  libs := smallLibs
  session_key := .text "session public"
  hub_private_key := .text "session private"
  explorer_key := .text "explorer public"
  node_seeds := ⟨[], [], [], []⟩
  hub_seeds := ⟨[], [], [], []⟩
  to_hub := .direct
  to_explorer := .direct

def smallReport : Report := ⟨.str "Tako", "0xab", some 3, .list [.str "alice"]⟩

def smallTexts : Fields String := ⟨"Tako", "0xab", "3", "[\"alice\"]"⟩

def smallPost : Fields String :=
  ⟨RSAEncryption.cipher "Tako", RSAEncryption.cipher "0xab", RSAEncryption.cipher "3",
    RSAEncryption.cipher "[\"alice\"]"⟩

theorem smallRelay_matched : smallRelay.Matched "session private"
    ⟨"session public", "", some (), none⟩ ⟨"", "session private", none, some ()⟩ () () where
  hub := rfl
  session := by
    intro key hkey
    cases hkey
    rfl
  init := rfl
  session_public := rfl
  hub_private := rfl
  pair := RSAEncryption.plain_pair

theorem sendProof_small (e : RSAEncryption Unit Unit) (h : e.public_key = some ()) :
    sendProof smallLibs e ⟨[], [], [], []⟩ smallTexts = .ok smallPost := by
  have hencrypt : ∀ text, e.encrypt smallLibs.crypto [] (some text) =
      .ok (RSAEncryption.cipher text) := RSAEncryption.encrypt_plain h []
  simp only [sendProof, hencrypt]
  rfl

theorem sendResult_small : sendResult smallLibs (.text "session public") ⟨[], [], [], []⟩
    smallReport = .next smallPost := by
  have hencrypt : ∀ text, RSAEncryption.encrypt smallLibs.crypto
      ⟨"session public", "", some (), none⟩ [] (some text) = .ok (RSAEncryption.cipher text) :=
    RSAEncryption.encrypt_plain rfl []
  simp only [sendResult, Reply.bind_eq_next, Reply.ofExcept_eq_next, Reply.pure_eq]
  exact ⟨_, rfl, _, rfl, _, hencrypt _, _, hencrypt _, _, hencrypt _, _, rfl, _, hencrypt _, rfl⟩

theorem reaches_small : smallRelay.reaches smallReport = some smallPost :=
  (Relay.reaches_iff smallRelay_matched smallReport smallPost).2
    ⟨smallPost, smallTexts, ⟨"explorer public", "", some (), none⟩, sendResult_small,
      ⟨rfl, rfl, by decide +kernel, rfl⟩, ⟨by decide, by decide, by decide, by decide⟩, rfl,
      sendProof_small _ rfl, rfl, rfl, fun _ _ _ hpub hpriv hpair =>
        opens_of_pair hpub hpriv hpair (sendProof_small _ rfl)⟩

end ProverNetwork.Ports.ResultReport
