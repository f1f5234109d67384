import ProverNetwork.Ports.ProveServiceMethods

/-!
# Which calls the prove service answers

A call is answered when none of its steps raises; `Answerable` says what each
step needs for that, of the request, the files, the keys and the peers.  An
answer carries the code 0 only where nothing failed.

## Main results

* `answered_iff_answerable` — the calls that are answered, and how.
* `run_undecoded`, `run_unloaded`, `run_unrefreshed` — three kinds that are not.
-/

namespace ProverNetwork.Ports.ProveService

open ProverNetwork.Verified
open ProverNetwork.Ports.ProjectManager

section Answers

variable {Pub Priv : Type}

/-! ## What a call needs -/

/-- The payload of a call, decrypted where it is encrypted. -/
def Opens (node : Node Pub Priv) (call : ProveCall) (payload : String) : Prop :=
  if call.is_encrypted then
    ∃ private_key, node.privateKey = some private_key ∧
      RSAEncryption.decryptWith node.crypto private_key call.input_data = .ok (some payload) ∧
      payload ≠ ""
  else payload = call.input_data

/-- The name of the provider, for what the resolver returned. -/
def providerName (call : ProveCall) (specify_provider : PyVal) : PyVal :=
  if specify_provider.truthy then specify_provider else .str call.oauth_provider

/-- The provider that a zkLogin call asks. -/
def Asks (node : Node Pub Priv) (call : ProveCall) (w : World) (name : String)
    (p : Provider) : Prop :=
  ∃ specify_provider,
    resolveProvider node.template_provider_map call.circuit_template_id =
      .ok specify_provider ∧
    getProvider w (providerName call specify_provider) = .ok (some (name, p))

/-- The payload passes: its provider accepts it, or it is the one of a TIGA task,
where a payload that is looked at is an object without `modules`. -/
def Passes (m : Method) (node : Node Pub Priv) (call : ProveCall) (payload : String)
    (w : World) : Prop :=
  (call.method = TASK_TYPE_ZKLOGIN ∧ ∃ name p, Asks node call w name p ∧
    p.Accepts node.libs (node.refresh name) payload) ∨
  (call.method = TASK_TYPE_TIGA ∧ (call.circuit_template_id ∈ m.entry.exempt ∨
    ∃ members, node.libs.loads payload = some (.dict members) ∧
      ((Dict.lookup "modules" members).getD .none).truthy = false))

/-- The payload is malformed or rejected, or something that the call depends on
failed: no payload passes and has a response of the prover with the code 0. -/
def Failed (m : Method) (node : Node Pub Priv) (call : ProveCall) (w : World) : Prop :=
  ¬∃ payload, Opens node call payload ∧ Passes m node call payload w ∧
    ∃ event reply, proverCall m node call payload = .ok (event, .response reply) ∧
      reply.code = STATUS_CODE_SUCCESSFULLY

/-- A provider that was found returns. -/
def ProviderAnswers (node : Node Pub Priv) (payload : String) :
    Option (String × Provider) → Prop
  | none => True
  | some (name, p) => p.Answers node.libs (node.refresh name) payload

/-- What the validation needs: a name that can be looked up and a provider that
returns, or a TIGA payload that decodes to an object. -/
structure Validates (m : Method) (node : Node Pub Priv) (call : ProveCall)
    (payload : String) (w : World) : Prop where
  verifies : call.method = TASK_TYPE_ZKLOGIN → ∃ specify_provider asked,
    resolveProvider node.template_provider_map call.circuit_template_id =
      .ok specify_provider ∧
    getProvider w (providerName call specify_provider) = .ok asked ∧
    ProviderAnswers node payload asked
  decodes : call.method = TASK_TYPE_TIGA → call.circuit_template_id ∉ m.entry.exempt →
    ∃ members, node.libs.loads payload = some (.dict members)

/-- A value that has a last item. -/
def Indexable : PyVal → Prop
  | .list xs => xs ≠ []
  | .str s => s ≠ ""
  | _ => False

/-- A project record that can be credited. -/
def Record (project : PyVal) : Prop :=
  ∃ members project_name verifiers, project = .dict members ∧
    Dict.lookup "project_name" members = some project_name ∧
    Dict.lookup "verifiers" members = some verifiers

/-- What the credit of a reply needs: a text that decodes to something with a last
item, and a record to credit. -/
def Creditable (m : Method) (node : Node Pub Priv) (reply : ProverReply) : Prop :=
  ∃ text, loadsText node (m.attributed reply) = .ok text ∧ Indexable text ∧
    ∀ project_id, lastItem text = .ok project_id →
      (LooksUp (node.format project_id) → ∃ members, node.projects = .dict members) ∧
      ∀ project, getProject node.projects (node.format project_id) = .ok project →
        Record project

/-- What a call of a prover needs: it raises nothing but a gRPC error or
`NotImplementedError`, and a proof that it replies with can be credited. -/
structure Completes (m : Method) (node : Node Pub Priv) (outcome : Rpc ProverReply) :
    Prop where
  replies : ∀ e, outcome = .raised e → ∃ msg, e = .notImplemented msg
  credits : ∀ reply, outcome = .response reply → reply.hasProof = true →
    Creditable m node reply

/-- What a call needs to be answered, step by step. -/
structure Answerable (m : Method) (node : Node Pub Priv) (call : ProveCall) (w : World) :
    Prop where
  decrypts : call.is_encrypted = true → ∀ private_key, node.privateKey = some private_key →
    RSAEncryption.Decryptable node.crypto private_key call.input_data
  validates : ∀ payload, Opens node call payload → Validates m node call payload w
  completes : ∀ payload, Opens node call payload → Passes m node call payload w →
    ∀ event outcome, proverCall m node call payload = .ok (event, outcome) →
      Completes m node outcome

/-! ## Decryption -/

theorem processInput_yes_iff {node : Node Pub Priv} {call : ProveCall} {payload : String} :
    processInput node.env call.input_data call.is_encrypted = .ok (.yes, payload) ↔
      Opens node call payload := by
  unfold processInput Opens
  cases call.is_encrypted with
  | false => simp [eq_comm]
  | true =>
      simp only [if_true, Node.env_privateKey, Node.env_decrypt]
      cases node.privateKey with
      | none => simp
      | some private_key =>
          simp only [Option.some.injEq, exists_eq_left']
          cases RSAEncryption.decryptWith node.crypto private_key call.input_data with
          | error e => simp
          | ok decrypted =>
              cases decrypted with
              | none => simp
              | some text =>
                  by_cases hempty : text = ""
                  · simp only [Option.getD_some, hempty, if_true]
                    simp [eq_comm]
                  · simp only [Option.getD_some, hempty, if_false]
                    simp only [Except.ok.injEq, Prod.mk.injEq, true_and, Option.some.injEq]
                    exact ⟨fun h => ⟨h, h ▸ hempty⟩, fun h => h.1⟩

theorem processInput_ok_iff (node : Node Pub Priv) (call : ProveCall) :
    (∃ r, processInput node.env call.input_data call.is_encrypted = .ok r) ↔
      (call.is_encrypted = true → ∀ private_key, node.privateKey = some private_key →
        RSAEncryption.Decryptable node.crypto private_key call.input_data) := by
  unfold processInput
  cases call.is_encrypted with
  | false => simp
  | true =>
      simp only [if_true, Node.env_privateKey, Node.env_decrypt]
      cases node.privateKey with
      | none => simp
      | some private_key =>
          simp only [Option.some.injEq, forall_eq', true_implies,
            ← RSAEncryption.decryptWith_ok_iff]
          cases RSAEncryption.decryptWith node.crypto private_key call.input_data with
          | error e => simp
          | ok decrypted =>
              simp only [Except.ok.injEq, exists_eq', iff_true]
              split <;> exact ⟨_, rfl⟩

theorem processInput_code {env : Env} {input_data msg : String} {is_encrypted : Bool}
    {code : Int} (h : processInput env input_data is_encrypted = .ok (.code code, msg)) :
    code ≠ STATUS_CODE_SUCCESSFULLY := by
  unfold processInput at h
  repeat' split at h
  all_goals cases h
  all_goals decide

/-! ## Validation -/

theorem verifyWith_result (env : Env) (name : String) (p : Provider) (input_data : String)
    (w : World) :
    (verifyWith env name p input_data w).1 =
      (p.verify env.libs (env.refresh name) input_data).1 := by
  unfold verifyWith
  split <;> simp [*]

/-- The answer of the validation to what the provider said. -/
def verdict (b : Bool) : Ok × String :=
  if b then (.yes, "")
  else (.code STATUS_CODE_UNAUTHORIZED_PAYLOAD,
    "Verification failed due to invalid input data")

section ZkLogin

variable {node : Node Pub Priv} {call : ProveCall} {payload : String} {w : World}

theorem validateZkLogin_asked {specify_provider : PyVal} {name : String} {p : Provider}
    (hresolve : resolveProvider node.template_provider_map call.circuit_template_id =
      .ok specify_provider)
    (hasked : getProvider w (providerName call specify_provider) = .ok (some (name, p))) :
    (validateZkLogin node.env call payload w).1 =
      (p.verify node.libs (node.refresh name) payload).1.map verdict := by
  have hverify := verifyWith_result node.env name p payload w
  simp only [Node.env_libs, Node.env_refresh] at hverify
  unfold providerName at hasked
  unfold validateZkLogin
  simp only [Node.env_template_provider_map, hresolve, hasked]
  rw [← hverify]
  rcases verifyWith node.env name p payload w with ⟨e | b, w'⟩
  · rfl
  · cases b <;> rfl

theorem validateZkLogin_absent (payload : String) {specify_provider : PyVal}
    (hresolve : resolveProvider node.template_provider_map call.circuit_template_id =
      .ok specify_provider)
    (hasked : getProvider w (providerName call specify_provider) = .ok none) :
    ∃ msg, (validateZkLogin node.env call payload w).1 =
      .ok (.code STATUS_CODE_UNSUPPORT_OAUTH_PROVIDER, msg) := by
  unfold providerName at hasked
  unfold validateZkLogin
  simp only [Node.env_template_provider_map, hresolve, hasked]
  exact ⟨_, rfl⟩

/-- The validation of a zkLogin call raises what one of its three steps raises. -/
theorem validateZkLogin_ok_iff :
    (∃ r, (validateZkLogin node.env call payload w).1 = .ok r) ↔
      ∃ specify_provider asked,
        resolveProvider node.template_provider_map call.circuit_template_id =
          .ok specify_provider ∧
        getProvider w (providerName call specify_provider) = .ok asked ∧
        ProviderAnswers node payload asked := by
  cases hresolve : resolveProvider node.template_provider_map call.circuit_template_id with
  | error e => simp [validateZkLogin, hresolve]
  | ok specify_provider =>
      simp only [Except.ok.injEq, exists_and_left, exists_eq_left']
      cases hasked : getProvider w (providerName call specify_provider) with
      | error e =>
          unfold providerName at hasked
          simp [validateZkLogin, hresolve, hasked]
      | ok asked =>
          cases asked with
          | none =>
              obtain ⟨msg, habsent⟩ := validateZkLogin_absent payload hresolve hasked
              simp [habsent, ProviderAnswers]
          | some np =>
              obtain ⟨name, p⟩ := np
              rw [validateZkLogin_asked hresolve hasked]
              simp only [Except.ok.injEq, exists_eq_left', ProviderAnswers,
                ← Provider.verify_ok_iff]
              cases hverify : (p.verify node.libs (node.refresh name) payload).1 <;>
                simp [Except.map]

/-- A payload that the validation lets through is accepted, and one that is accepted
is let through where the validation returns. -/
theorem validateZkLogin_yes_iff
    (h : ∃ r, (validateZkLogin node.env call payload w).1 = .ok r) :
    (∃ msg, (validateZkLogin node.env call payload w).1 = .ok (.yes, msg)) ↔
      ∃ name p, Asks node call w name p ∧
        p.Accepts node.libs (node.refresh name) payload := by
  obtain ⟨specify_provider, asked, hresolve, hasked, hreturns⟩ := validateZkLogin_ok_iff.1 h
  have hasks : ∀ name p, Asks node call w name p ↔ asked = some (name, p) := by
    intro name p
    simp [Asks, hresolve, hasked]
  simp only [hasks]
  cases asked with
  | none =>
      obtain ⟨msg, habsent⟩ := validateZkLogin_absent payload hresolve hasked
      simp [habsent]
  | some np =>
      obtain ⟨name, p⟩ := np
      have hverify := Provider.verify_true_iff hreturns
      obtain ⟨b, hb⟩ := Provider.verify_ok_iff.2 hreturns
      rw [validateZkLogin_asked hresolve hasked]
      rw [hb] at hverify ⊢
      cases b <;> simp_all [verdict, Except.map]

theorem validateZkLogin_code {msg : String} {code : Int}
    (h : (validateZkLogin node.env call payload w).1 = .ok (.code code, msg)) :
    code ≠ STATUS_CODE_SUCCESSFULLY := by
  obtain ⟨specify_provider, asked, hresolve, hasked, -⟩ := validateZkLogin_ok_iff.1 ⟨_, h⟩
  cases asked with
  | none =>
      obtain ⟨msg', habsent⟩ := validateZkLogin_absent payload hresolve hasked
      cases habsent.symm.trans h
      decide
  | some np =>
      obtain ⟨name, p⟩ := np
      rw [validateZkLogin_asked hresolve hasked] at h
      cases hverify : (p.verify node.libs (node.refresh name) payload).1 with
      | error e => simp [hverify, Except.map] at h
      | ok b =>
          cases b with
          | true => simp [hverify, Except.map, verdict] at h
          | false =>
              simp only [hverify, Except.map, verdict, Bool.false_eq_true, if_false,
                Except.ok.injEq, Prod.mk.injEq, Ok.code.injEq] at h
              rw [← h.1]
              decide

end ZkLogin

section Validation

variable {m : Method} {node : Node Pub Priv} {call : ProveCall} {payload : String} {w : World}

theorem validateTiga_ok_iff :
    (∃ r, validateTiga m.entry node.env call payload = .ok r) ↔
      (call.circuit_template_id ∉ m.entry.exempt →
        ∃ members, node.libs.loads payload = some (.dict members)) := by
  unfold validateTiga
  by_cases hexempt : call.circuit_template_id ∈ m.entry.exempt
  · simp [hexempt]
  · simp only [hexempt, if_false, Node.env_libs, not_false_eq_true, true_implies]
    cases node.libs.loads payload with
    | none => simp
    | some v =>
        cases v with
        | dict members =>
            simp only [Option.some.injEq, PyVal.dict.injEq, exists_eq', iff_true]
            split <;> exact ⟨_, rfl⟩
        | _ => simp

theorem validateTiga_yes_iff :
    (∃ msg, validateTiga m.entry node.env call payload = .ok (.yes, msg)) ↔
      call.circuit_template_id ∈ m.entry.exempt ∨
        ∃ members, node.libs.loads payload = some (.dict members) ∧
          ((Dict.lookup "modules" members).getD .none).truthy = false := by
  unfold validateTiga
  by_cases hexempt : call.circuit_template_id ∈ m.entry.exempt
  · simp [hexempt]
  · simp only [hexempt, if_false, Node.env_libs, false_or]
    cases node.libs.loads payload with
    | none => simp
    | some v =>
        cases v with
        | dict members =>
            cases hmodules : ((Dict.lookup "modules" members).getD .none).truthy <;>
              simp [hmodules]
        | _ => simp

theorem validateTiga_code {msg : String} {code : Int}
    (h : validateTiga m.entry node.env call payload = .ok (.code code, msg)) :
    code ≠ STATUS_CODE_SUCCESSFULLY := by
  unfold validateTiga at h
  repeat' split at h
  all_goals cases h
  decide

/-- **When the validation returns.** -/
theorem validate_ok_iff (m : Method) (node : Node Pub Priv) (call : ProveCall)
    (payload : String) (w : World) :
    (∃ r, (validateTaskTypeAndInput m.entry node.env call payload w).1 = .ok r) ↔
      Validates m node call payload w := by
  unfold validateTaskTypeAndInput
  by_cases hzk : call.method = TASK_TYPE_ZKLOGIN
  · have htiga : call.method ≠ TASK_TYPE_TIGA := by
      rw [hzk]
      decide
    rw [if_pos hzk, validateZkLogin_ok_iff]
    exact ⟨fun h => ⟨fun _ => h, fun hmethod => absurd hmethod htiga⟩, fun h => h.verifies hzk⟩
  · rw [if_neg hzk]
    by_cases htiga : call.method = TASK_TYPE_TIGA
    · rw [if_pos htiga, validateTiga_ok_iff]
      exact ⟨fun h => ⟨fun hmethod => absurd hmethod hzk, fun _ => h⟩, fun h => h.decodes htiga⟩
    · rw [if_neg htiga]
      exact iff_of_true ⟨_, rfl⟩
        ⟨fun hmethod => absurd hmethod hzk, fun hmethod => absurd hmethod htiga⟩

/-- **What the validation lets through**, where it returns. -/
theorem validate_yes_iff (h : Validates m node call payload w) :
    (∃ msg, (validateTaskTypeAndInput m.entry node.env call payload w).1 = .ok (.yes, msg)) ↔
      Passes m node call payload w := by
  have hok := (validate_ok_iff m node call payload w).2 h
  unfold validateTaskTypeAndInput at hok ⊢
  unfold Passes
  by_cases hzk : call.method = TASK_TYPE_ZKLOGIN
  · have htiga : call.method ≠ TASK_TYPE_TIGA := by
      rw [hzk]
      decide
    rw [if_pos hzk] at hok ⊢
    rw [validateZkLogin_yes_iff hok]
    exact ⟨fun h => Or.inl ⟨hzk, h⟩,
      fun h => h.elim (fun h => h.2) (fun h => absurd h.1 htiga)⟩
  · rw [if_neg hzk]
    by_cases htiga : call.method = TASK_TYPE_TIGA
    · rw [if_pos htiga, validateTiga_yes_iff]
      exact ⟨fun h => Or.inr ⟨htiga, h⟩,
        fun h => h.elim (fun h => absurd h.1 hzk) (fun h => h.2)⟩
    · simp [hzk, htiga]

theorem validate_code {msg : String} {code : Int}
    (h : (validateTaskTypeAndInput m.entry node.env call payload w).1 = .ok (.code code, msg)) :
    code ≠ STATUS_CODE_SUCCESSFULLY := by
  unfold validateTaskTypeAndInput at h
  split at h
  · exact validateZkLogin_code h
  · split at h
    · exact validateTiga_code h
    · cases h
      decide

end Validation

/-! ## The call of a prover -/

section Prover

variable {m : Method} {node : Node Pub Priv} {call : ProveCall} {payload : String}

theorem exists_bind_ok {α β : Type} (x : Except PyError α) (f : α → Except PyError β) :
    (∃ b, x.bind f = .ok b) ↔ ∃ a, x = .ok a ∧ ∃ b, f a = .ok b := by
  cases x <;> simp [Except.bind]

/-- A step has one result. -/
theorem exists_ok_and_iff {α : Type} (x : Except PyError α) (Q : α → Prop) :
    (∃ a, x = .ok a ∧ Q a) ↔ (∃ a, x = .ok a) ∧ ∀ a, x = .ok a → Q a := by
  cases x <;> simp

theorem orRaise_ok_iff {α : Type} (e : PyError) (x : Option α) (a : α) :
    orRaise e x = .ok a ↔ x = some a := by
  cases x <;> simp [orRaise]

theorem lastItem_ok_iff (v : PyVal) : (∃ x, lastItem v = .ok x) ↔ Indexable v := by
  cases v with
  | list xs => simp [lastItem, Indexable, orRaise_ok_iff, ← Option.isSome_iff_exists]
  | str s =>
      simp only [lastItem, Indexable, orRaise_ok_iff, ← Option.isSome_iff_exists]
      simp
  | _ => simp [lastItem, Indexable]

theorem member_ok_iff (project : PyVal) :
    (∃ project_name, member "project_name" project = .ok project_name ∧
      ∃ verifiers, member "verifiers" project = .ok verifiers) ↔ Record project := by
  unfold Record
  cases project with
  | dict members => simp [member, orRaise_ok_iff]
  | _ => simp [member]

/-- **When a reply is credited without an exception.** -/
theorem credit_ok_iff (reply : ProverReply) :
    (∃ result, credit m node reply = .ok result) ↔
      (reply.hasProof = true → Creditable m node reply) := by
  unfold credit Creditable
  by_cases hproof : reply.hasProof = true
  · simp only [hproof, if_true, true_implies, bind, exists_bind_ok, pure, Except.pure,
      Except.ok.injEq, exists_eq', and_true, member_ok_iff]
    refine exists_congr fun text => and_congr_right fun _ => ?_
    rw [exists_ok_and_iff, lastItem_ok_iff]
    refine and_congr_right fun _ => forall_congr' fun project_id => imp_congr_right fun _ => ?_
    rw [exists_ok_and_iff, getProject_ok_iff]
  · simp [hproof, pure, Except.pure]

theorem finish_ok_iff (outcome : Rpc ProverReply) :
    (∃ result, finish m node outcome = .ok result) ↔ Completes m node outcome := by
  unfold finish
  cases outcome with
  | response reply =>
      simp only [Rpc.reply, credit_ok_iff]
      exact ⟨fun h => ⟨by simp, fun reply' heq => by cases heq; exact h⟩,
        fun h => h.credits reply rfl⟩
  | rpcError code details =>
      refine iff_of_true ?_ ⟨by simp, by simp⟩
      simp [Rpc.reply, credit, ProverReply.hasProof, pure, Except.pure]
  | raised e =>
      cases e with
      | notImplemented msg =>
          refine iff_of_true ⟨_, rfl⟩ ⟨fun e heq => ?_, by simp⟩
          cases heq
          exact ⟨msg, rfl⟩
      | _ =>
          refine iff_of_false (by simp [Rpc.reply]) fun h => ?_
          obtain ⟨msg, hmsg⟩ := h.replies _ rfl
          cases hmsg

/-- A method answers with the code 0 only where the prover did. -/
theorem response_of_finish {outcome : Rpc ProverReply} {result : ProofResult}
    (h : finish m node outcome = .ok result) (hcode : result.code = STATUS_CODE_SUCCESSFULLY) :
    ∃ reply, outcome = .response reply ∧ reply.code = STATUS_CODE_SUCCESSFULLY := by
  unfold finish at h
  cases hreply : outcome.reply with
  | ok reply =>
      simp only [hreply] at h
      rw [credit_reply h] at hcode
      exact ⟨reply, Rpc.response_of_reply hreply hcode, hcode⟩
  | error e =>
      cases e with
      | notImplemented msg =>
          simp only [hreply, Except.ok.injEq] at h
          have hne : STATUS_CODE_ERROR ≠ STATUS_CODE_SUCCESSFULLY := by decide
          rw [← h] at hcode
          exact absurd hcode hne
      | _ => simp [hreply] at h

theorem proverCall_code {code : Int} {msg : String}
    (h : proverCall m node call payload = .error (code, msg)) :
    code ≠ STATUS_CODE_SUCCESSFULLY := by
  unfold proverCall at h
  repeat' split at h
  all_goals cases h
  all_goals decide

end Prover

/-! ## The whole call -/

section Call

variable {m : Method} {node : Node Pub Priv} {call : ProveCall} {payload : String} {w : World}

theorem Opens.unique {payload' : String} (h : Opens node call payload)
    (h' : Opens node call payload') : payload' = payload := by
  have heq := (processInput_yes_iff.2 h').symm.trans (processInput_yes_iff.2 h)
  simpa using heq

theorem run_of_opens (h : Opens node call payload) :
    m.run node call w = m.runDecrypted node call payload w := by
  unfold Method.run
  rw [processInput_yes_iff.2 h]

/-- **What a call needs from its payload on.** -/
theorem runDecrypted_ok_iff :
    (∃ result, (m.runDecrypted node call payload w).1 = .ok result) ↔
      Validates m node call payload w ∧ (Passes m node call payload w →
        ∀ event outcome, proverCall m node call payload = .ok (event, outcome) →
          Completes m node outcome) := by
  have hok := validate_ok_iff m node call payload w
  unfold Method.runDecrypted
  rcases hvalidate : validateTaskTypeAndInput m.entry node.env call payload w with
    ⟨e | ⟨ok, msg⟩, w'⟩
  · rw [hvalidate] at hok
    refine iff_of_false (by simp) fun h => ?_
    obtain ⟨r, hr⟩ := hok.2 h.1
    cases hr
  · have hvalidates : Validates m node call payload w := hok.1 ⟨_, by rw [hvalidate]⟩
    have hyes := validate_yes_iff hvalidates
    rw [hvalidate] at hyes
    cases ok with
    | code code =>
        -- the payload is refused, and no prover is called
        have hnot : ¬Passes m node call payload w := by
          intro hpasses
          obtain ⟨msg', h⟩ := hyes.2 hpasses
          cases h
        exact iff_of_true ⟨_, rfl⟩ ⟨hvalidates, fun hpasses => absurd hpasses hnot⟩
    | yes =>
        have hpasses : Passes m node call payload w := hyes.1 ⟨msg, rfl⟩
        rcases proverCall m node call payload with ⟨code, msg⟩ | ⟨event, outcome⟩
        · exact iff_of_true ⟨_, rfl⟩ ⟨hvalidates, fun _ _ _ hcall => by cases hcall⟩
        · simp only [finish_ok_iff]
          refine ⟨fun h => ⟨hvalidates, fun _ _ _ hcall => ?_⟩, fun h => h.2 hpasses _ _ rfl⟩
          cases hcall
          exact h

/-- An answer with the code 0 is the prover's, on a payload that passed. -/
theorem runDecrypted_code {result : ProofResult}
    (h : (m.runDecrypted node call payload w).1 = .ok result)
    (hcode : result.code = STATUS_CODE_SUCCESSFULLY) :
    Passes m node call payload w ∧ ∃ event reply,
      proverCall m node call payload = .ok (event, .response reply) ∧
        reply.code = STATUS_CODE_SUCCESSFULLY := by
  have hvalidates : Validates m node call payload w := (runDecrypted_ok_iff.1 ⟨_, h⟩).1
  have hyes := validate_yes_iff hvalidates
  unfold Method.runDecrypted at h
  rcases hvalidate : validateTaskTypeAndInput m.entry node.env call payload w with
    ⟨e | ⟨ok, msg⟩, w'⟩
  · simp [hvalidate] at h
  · rw [hvalidate] at hyes
    simp only [hvalidate] at h
    cases ok with
    | code code =>
        have hne := validate_code (congrArg Prod.fst hvalidate)
        rw [← Except.ok.inj h] at hcode
        exact absurd hcode hne
    | yes =>
        refine ⟨hyes.1 ⟨msg, rfl⟩, ?_⟩
        rcases hcall : proverCall m node call payload with ⟨code, msg⟩ | ⟨event, outcome⟩
        · simp only [hcall] at h
          rw [← Except.ok.inj h] at hcode
          exact absurd hcode (proverCall_code hcall)
        · simp only [hcall] at h
          obtain ⟨reply, rfl, hreply⟩ := response_of_finish h hcode
          exact ⟨event, reply, rfl, hreply⟩

/-- **Which calls raise nothing.** -/
theorem run_ok_iff (m : Method) (node : Node Pub Priv) (call : ProveCall) (w : World) :
    (∃ result, (m.run node call w).1 = .ok result) ↔ Answerable m node call w := by
  have hdecrypts := processInput_ok_iff node call
  rcases hinput : processInput node.env call.input_data call.is_encrypted with e | ⟨ok, payload⟩
  · rw [hinput] at hdecrypts
    refine iff_of_false (by simp [Method.run, hinput]) fun h => ?_
    obtain ⟨r, hr⟩ := hdecrypts.2 h.decrypts
    cases hr
  · have hopened := hdecrypts.1 ⟨_, hinput⟩
    cases ok with
    | code code =>
        have hnone : ∀ payload, ¬Opens node call payload := by
          intro payload' hopens
          have heq := hinput.symm.trans (processInput_yes_iff.2 hopens)
          simp at heq
        refine iff_of_true ⟨refused code payload, by simp [Method.run, hinput]⟩ ⟨hopened, ?_, ?_⟩
        · exact fun payload' hopens => absurd hopens (hnone payload')
        · exact fun payload' hopens => absurd hopens (hnone payload')
    | yes =>
        have hopens : Opens node call payload := processInput_yes_iff.1 hinput
        rw [run_of_opens hopens, runDecrypted_ok_iff]
        constructor
        · rintro ⟨hvalidates, hcompletes⟩
          refine ⟨hopened, fun payload' hopens' => ?_, fun payload' hopens' => ?_⟩
          · rw [hopens.unique hopens']
            exact hvalidates
          · rw [hopens.unique hopens']
            exact hcompletes
        · exact fun h => ⟨h.validates payload hopens, h.completes payload hopens⟩

theorem run_code {result : ProofResult} (h : (m.run node call w).1 = .ok result)
    (hcode : result.code = STATUS_CODE_SUCCESSFULLY) : ¬Failed m node call w := by
  refine not_not.2 ?_
  unfold Method.run at h
  rcases hinput : processInput node.env call.input_data call.is_encrypted with e | ⟨ok, payload⟩
  · simp [hinput] at h
  · simp only [hinput] at h
    cases ok with
    | code code =>
        rw [← Except.ok.inj h] at hcode
        exact absurd hcode (processInput_code hinput)
    | yes => exact ⟨payload, processInput_yes_iff.1 hinput, runDecrypted_code h hcode⟩

/-- **Which calls are answered**, with a code that tells a failure. -/
theorem answered_iff_answerable (m : Method) (node : Node Pub Priv) (call : ProveCall) (w : World) :
    (∃ result, (m.run node call w).1 = .ok result ∧
      (Failed m node call w → result.code ≠ STATUS_CODE_SUCCESSFULLY)) ↔
      Answerable m node call w := by
  rw [← run_ok_iff]
  constructor
  · rintro ⟨result, h, -⟩
    exact ⟨result, h⟩
  · rintro ⟨result, h⟩
    exact ⟨result, h, fun hfailed hcode => run_code h hcode hfailed⟩

/-! ## Calls that are not answered -/

theorem run_raises {e : PyError} (hopens : Opens node call payload)
    (h : (validateTaskTypeAndInput m.entry node.env call payload w).1 = .error e) :
    (m.run node call w).1 = .error e := by
  rw [run_of_opens hopens]
  unfold Method.runDecrypted
  rcases hvalidate : validateTaskTypeAndInput m.entry node.env call payload w with ⟨e' | r, w'⟩
  · rw [hvalidate] at h
    cases h
    rfl
  · rw [hvalidate] at h
    cases h

/-- A payload that is looked at and is no JSON. -/
theorem run_undecoded (hopens : Opens node call payload) (hmethod : call.method = TASK_TYPE_TIGA)
    (hexempt : call.circuit_template_id ∉ m.entry.exempt)
    (hloads : node.libs.loads payload = none) : (m.run node call w).1 = .error .valueError := by
  have hzk : call.method ≠ TASK_TYPE_ZKLOGIN := by
    rw [hmethod]
    decide
  refine run_raises hopens ?_
  unfold validateTaskTypeAndInput validateTiga
  rw [if_neg hzk, if_pos hmethod, if_neg hexempt, Node.env_libs, hloads]

section ZkLogin

variable {name : String} {p : Provider}

theorem run_verify {e : PyError} (hopens : Opens node call payload)
    (hmethod : call.method = TASK_TYPE_ZKLOGIN) (hasks : Asks node call w name p)
    (hverify : (p.verify node.libs (node.refresh name) payload).1 = .error e) :
    (m.run node call w).1 = .error e := by
  obtain ⟨specify_provider, hresolve, hasked⟩ := hasks
  refine run_raises hopens ?_
  unfold validateTaskTypeAndInput
  rw [if_pos hmethod, validateZkLogin_asked hresolve hasked, hverify]
  rfl

/-- A payload with a `modulus`, before the provider has loaded its keys. -/
theorem run_unloaded {limbs : PyVal} (hopens : Opens node call payload)
    (hmethod : call.method = TASK_TYPE_ZKLOGIN) (hasks : Asks node call w name p)
    (hlimbs : Provider.modulus? node.libs payload = some limbs) (hjwks : p.jwks = none) :
    (m.run node call w).1 = .error .attributeError :=
  run_verify hopens hmethod hasks (Provider.verify_unloaded hlimbs hjwks)

/-- A payload without a `modulus`, and a refresh that raises. -/
theorem run_unrefreshed {e : PyError} (hopens : Opens node call payload)
    (hmethod : call.method = TASK_TYPE_ZKLOGIN) (hasks : Asks node call w name p)
    (hlimbs : Provider.modulus? node.libs payload = none)
    (hrefresh : node.refresh name = .error e) : (m.run node call w).1 = .error e := by
  refine run_verify hopens hmethod hasks ?_
  rw [Provider.verify_unread hlimbs, hrefresh]
  rfl

end ZkLogin

end Call

end Answers

/-- A node that decodes one payload, with provers that reply without a proof. -/
def payloadNode (limbs : List String) : Node Unit Unit where
  libs := (payloadEnv limbs).libs
  loadsBytes _ := none
  crypto := RSAEncryption.plain
  privateKey := none
  refresh := (payloadEnv limbs).refresh
  template_provider_map := templateProviderMap
  projects := .dict []
  circom :=
    { prove := fun _ _ => .response ⟨0, "Successfully", ""⟩
      proveNosha256 := fun _ _ _ => .response ⟨0, "Successfully", ""⟩
      proveNosha256WithWitness := fun _ _ _ => .response ⟨0, "Successfully", "", ""⟩
      proveNosha256Offchain := fun _ _ _ => .response ⟨0, "Successfully", "", []⟩
      proveV2 := fun _ _ _ => .response ⟨0, "Successfully", "", "", [], "", []⟩ }
  private_ _ _ _ := .response ⟨0, "Successfully", "", "", [], "", []⟩
  format := (payloadEnv limbs).format
  duration := 0

example : ((proveNosha256.run (payloadNode keyLimbs) boundCall boundWorld).1.toOption.map
    (fun result => result.code)) = some 0 := by decide +kernel

/-- A TIGA call with half a list for a payload. -/
def malformedCall : ProveCall :=
  { tigaCall with circuit_template_id := "10001", input_data := "[" }

theorem methods_look {m : Method} (hm : m ∈ methods) : "10001" ∉ m.entry.exempt := by
  have hall : methods.all (fun m => !m.entry.exempt.contains "10001") = true := by decide
  have hlooks := List.all_eq_true.1 hall m hm
  simpa using hlooks

/-- **A malformed payload is not answered**, by any of the methods: `ValueError` leaves
the call. -/
theorem malformed_unanswered :
    (∀ m ∈ methods, Failed m (payloadNode ["1"]) malformedCall boundWorld ∧
      (m.run (payloadNode ["1"]) malformedCall boundWorld).1 = .error .valueError) ∧
    ¬∀ m ∈ methods, ∀ (node : Node Unit Unit) (call : ProveCall) (w : World),
      ∃ result, (m.run node call w).1 = .ok result ∧
        (Failed m node call w → result.code ≠ STATUS_CODE_SUCCESSFULLY) := by
  have hraises : ∀ m ∈ methods,
      (m.run (payloadNode ["1"]) malformedCall boundWorld).1 = .error .valueError :=
    fun m hm => @run_undecoded _ _ m (payloadNode ["1"]) malformedCall "[" boundWorld rfl rfl
      (methods_look hm) (by decide +kernel)
  refine ⟨fun m hm => ⟨?_, hraises m hm⟩, ?_⟩
  · rintro ⟨payload, hopens, hpasses, -⟩
    have hpayload : payload = "[" := hopens
    subst hpayload
    rcases hpasses with ⟨hzk, -⟩ | ⟨-, hexempt | ⟨members, hloads, -⟩⟩
    · exact absurd hzk (by decide)
    · exact methods_look hm hexempt
    · have hnone : (payloadNode ["1"]).libs.loads "[" = none := by decide +kernel
      cases hnone.symm.trans hloads
  · intro h
    obtain ⟨result, hresult, -⟩ :=
      h prove List.mem_cons_self (payloadNode ["1"]) malformedCall boundWorld
    cases (hraises prove List.mem_cons_self).symm.trans hresult

end ProverNetwork.Ports.ProveService
