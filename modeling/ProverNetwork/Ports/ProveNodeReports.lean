import ProverNetwork.Ports.ProveNode
import ProverNetwork.Verified.Weight

/-!
# What stands behind a report

Every request that gets past its claim is one claim of the task cache, in the same
order, whatever the others do in between.  A report leaves a node only for such a
request, and only for a result whose prover replied with a proof; a node reports a
hash no more often than it was pushed there and the node restarted together.

## Main results

* `run_claimsInv` — the requests under way and past are the claims, in order.
* `reports_backed` — the push, the claim and the proof behind a report.
* `reports_le_pushes` — how often a hash is reported.
-/

namespace ProverNetwork.Ports.ProveNode

open ProverNetwork.Verified
open ProverNetwork.Ports
open ProverNetwork.Ports.ProofManagerRun
open ProverNetwork.Ports.ProveService
open ProverNetwork.Ports.ResultReport
open ProverNetwork.Ports.VerifierUpdate

/-! ## The service credits a proof only -/

section Service

variable {Pub Priv : Type} {m : Method} {node : ProveService.Node Pub Priv} {call : ProveCall}
  {w : ProveService.World} {result : ProofResult}

theorem hasProof_of_finish {outcome : Rpc ProverReply} (h : finish m node outcome = .ok result)
    (hproject : result.project_name.truthy = true) : result.hasProof = true := by
  unfold finish at h
  split at h
  next reply hreply =>
    have htoReply := credit_reply h
    by_cases hproof : reply.hasProof = true
    · rw [htoReply]
      exact hproof
    · rw [credit, if_neg hproof] at h
      cases h
      cases hproject
  next msg hmsg =>
    cases h
    cases hproject
  next => cases h

/-- **A project is credited only for a proof.** -/
theorem hasProof_of_run (h : (m.run node call w).1 = .ok result)
    (hproject : result.project_name.truthy = true) : result.hasProof = true := by
  unfold Method.run at h
  split at h
  next => cases h
  next =>
    cases h
    cases hproject
  next =>
    unfold Method.runDecrypted at h
    split at h
    next => cases h
    next =>
      cases h
      cases hproject
    next =>
      split at h
      next =>
        cases h
        cases hproject
      next => exact hasProof_of_finish h hproject

end Service

/-! ## Requests are claims -/

/-- The requests that got past the claim are the claims of the history. -/
def ClaimsInv (w : World) : Prop := w.jobs.map Job.claim = claims w.manager.log

theorem map_set_same {α β : Type} (f : α → β) {l : List α} {i : Nat} {a b : α}
    (hget : l[i]? = some a) (hsame : f b = f a) : (l.set i b).map f = l.map f := by
  rw [List.map_set, hsame]
  have hmap : (l.map f)[i]? = some (f a) := by rw [List.getElem?_map, hget, Option.map_some]
  obtain ⟨hlt, heq⟩ := List.getElem?_eq_some_iff.1 hmap
  rw [← heq, List.set_getElem_self]

theorem Job.claim_kill (job : Job) : job.kill.claim = job.claim := by
  unfold kill
  split <;> rfl

theorem claims_cons (h : String) (t : ℚ) (log : List ProofManagerRun.Event) :
    claims (.claimed h t :: log) = claims log ++ [(h, t)] := by
  have hclaim : claimOf (.claimed h t) = some (h, t) := rfl
  rw [claims, List.filterMap_cons_some hclaim, List.reverse_cons]
  rfl

section Runs

variable {Pub Priv : Type} {verify : String → String → Bool}

/-- **Step lemma.** -/
theorem ClaimsInv.of_effect {w w' : World} (hinv : ClaimsInv w)
    (heff : Effect Pub Priv verify w w') : ClaimsInv w' := by
  unfold ClaimsInv at hinv ⊢
  cases heff with
  | moved kill hmove hclaims =>
      rw [hclaims, ← hinv]
      cases kill with
      | false => rfl
      | true =>
          show (w.jobs.map Job.kill).map Job.claim = w.jobs.map Job.claim
          rw [List.map_map]
          exact List.map_congr_left (fun job _ => job.claim_kill)
  | claimed endpoint r hmove hlog =>
      rw [hlog, claims_cons, ← hinv, List.map_append]
      rfl
  | served i job node providers hjob =>
      rw [← hinv]
      exact map_set_same Job.claim hjob rfl
  | reported i job result libs sessionKey seeds hjob hphase =>
      rw [← hinv]
      exact map_set_same Job.claim hjob rfl
  | cancelled i job hjob =>
      rw [← hinv]
      exact map_set_same Job.claim hjob job.claim_kill

/-- **Run lemma.** -/
theorem run_claimsInv {t₀ : ℚ} {labels : List (Label Pub Priv)} {w : World}
    (hrun : run (World.step verify) (World.initial t₀) labels = some w) : ClaimsInv w :=
  run_invariant ClaimsInv (fun _ => True)
    (fun _ _ _ _ hinv hstep => hinv.of_effect (effect_of_node_step hstep))
    (fun _ _ => trivial) (show ClaimsInv (World.initial t₀) from rfl) hrun

/-! ## What is known of a request -/

/-- The service returned the result for the request. -/
def Served (Pub Priv : Type) (job : Job) (result : ProofResult) : Prop :=
  ∃ (node : ProveService.Node Pub Priv) (providers : ProveService.World),
    (job.endpoint.handler.method.run node job.call providers).1 = .ok result

/-- A result that is reported was served, and credits a project. -/
def Supported (Pub Priv : Type) (job : Job) : Prop :=
  match job.phase with
  | .reporting result => Served Pub Priv job result ∧ result.project_name.truthy = true
  | .answered result (some body) =>
      Served Pub Priv job result ∧ result.project_name.truthy = true ∧
        ∃ (libs : VerifierUpdate.Libs Pub Priv) (sessionKey : FileRead)
          (seeds : Fields (List UInt8)),
          sendResult libs sessionKey seeds (job.report result) = .next body
  | .answered result none => Served Pub Priv job result
  | _ => True

def SupportedInv (Pub Priv : Type) (w : World) : Prop := ∀ job ∈ w.jobs, Supported Pub Priv job

theorem Supported.kill {job : Job} (h : Supported Pub Priv job) :
    Supported Pub Priv job.kill := by
  unfold Job.kill
  split
  next => trivial
  next => trivial
  next => exact h

theorem supported_served {job : Job} (node : ProveService.Node Pub Priv)
    (providers : ProveService.World) :
    Supported Pub Priv (job.With (afterService
      (job.endpoint.handler.method.run node job.call providers).1)) := by
  cases hres : (job.endpoint.handler.method.run node job.call providers).1 with
  | error e => trivial
  | ok result =>
      have hserved : Served Pub Priv job result := ⟨node, providers, hres⟩
      unfold afterService
      dsimp only
      split
      next hproject => exact ⟨hserved, hproject⟩
      next => exact hserved

theorem Supported.reported {job : Job} {result : ProofResult} (h : Supported Pub Priv job)
    (hphase : job.phase = .reporting result) (libs : VerifierUpdate.Libs Pub Priv)
    (sessionKey : FileRead) (seeds : Fields (List UInt8)) :
    Supported Pub Priv (job.With (afterReport result
      (sendResult libs sessionKey seeds (job.report result)))) := by
  rw [Supported, hphase] at h
  cases hsend : sendResult libs sessionKey seeds (job.report result) with
  | next body => exact ⟨h.1, h.2, libs, sessionKey, seeds, hsend⟩
  | respond e =>
      cases e with
      | returns => exact h.1
      | raises => trivial
  | halt e => trivial

theorem SupportedInv.set {w : World} (hinv : SupportedInv Pub Priv w) (i : Nat) {job : Job}
    (hjob : Supported Pub Priv job) :
    SupportedInv Pub Priv { w with jobs := w.jobs.set i job } := by
  intro job' hmem
  cases List.mem_or_eq_of_mem_set hmem with
  | inl hold => exact hinv job' hold
  | inr heq => exact heq ▸ hjob

/-- **Step lemma.** -/
theorem SupportedInv.of_effect {w w' : World} (hinv : SupportedInv Pub Priv w)
    (heff : Effect Pub Priv verify w w') : SupportedInv Pub Priv w' := by
  cases heff with
  | moved kill hmove hclaims =>
      cases kill with
      | false => exact hinv
      | true =>
          intro job hmem
          obtain ⟨old, hold, rfl⟩ := List.mem_map.1 hmem
          exact (hinv old hold).kill
  | claimed endpoint r hmove hlog =>
      intro job hmem
      cases List.mem_append.1 hmem with
      | inl hold => exact hinv job hold
      | inr hnew =>
          cases List.mem_singleton.1 hnew
          trivial
  | served i job node providers hjob => exact hinv.set i (supported_served node providers)
  | reported i job result libs sessionKey seeds hjob hphase =>
      exact hinv.set i ((hinv job (List.mem_of_getElem? hjob)).reported hphase _ _ _)
  | cancelled i job hjob => exact hinv.set i (hinv job (List.mem_of_getElem? hjob)).kill

/-- **Run lemma.** -/
theorem run_supportedInv {t₀ : ℚ} {labels : List (Label Pub Priv)} {w : World}
    (hrun : run (World.step verify) (World.initial t₀) labels = some w) :
    SupportedInv Pub Priv w :=
  run_invariant (SupportedInv Pub Priv) (fun _ => True)
    (fun _ _ _ _ hinv hstep => hinv.of_effect (effect_of_node_step hstep))
    (fun _ _ => trivial) (fun _ hmem => by cases hmem) hrun

/-! ## Reports -/

/-- The task cache of a node has a run of its own. -/
theorem run_manager {t₀ : ℚ} {labels : List (Label Pub Priv)} {w : World}
    (hrun : run (World.step verify) (World.initial t₀) labels = some w) :
    ∃ ops, run (ProofManagerRun.World.step verify) (ProofManagerRun.World.initial t₀) ops =
      some w.manager := by
  obtain ⟨m, ops, hm, hops⟩ := run_component component_manager hrun rfl
  cases hm
  exact ⟨ops, hops⟩

theorem mem_claims {h : String} {t : ℚ} {log : List ProofManagerRun.Event} :
    (h, t) ∈ claims log ↔ .claimed h t ∈ log := by
  rw [claims, List.mem_reverse, List.mem_filterMap]
  constructor
  · rintro ⟨ev, hmem, hev⟩
    cases ev with
    | claimed h' t' =>
        cases hev
        exact hmem
    | pushed h' s t' => cases hev
    | restarted t' => cases hev
  · intro hmem
    exact ⟨_, hmem, rfl⟩

/-- **Behind every report** stand a signed push of its hash, a claim less than sixty
seconds later by the request that reports, and a result of the service with a
proof; and the report is of that result under that hash. -/
theorem reports_backed {t₀ : ℚ} {labels : List (Label Pub Priv)} {w : World}
    (hrun : run (World.step verify) (World.initial t₀) labels = some w) {job : Job}
    {result : ProofResult} {body : Fields String} (hjob : job ∈ w.jobs)
    (hphase : job.phase = .answered result (some body)) :
    (∃ s t, .pushed job.proof_hash s t ∈ w.manager.log ∧ verify job.proof_hash s = true ∧
      t ≤ job.claimed_at ∧ job.claimed_at < t + 60) ∧
    .claimed job.proof_hash job.claimed_at ∈ w.manager.log ∧
    Served Pub Priv job result ∧ result.hasProof = true ∧
    ∃ (libs : VerifierUpdate.Libs Pub Priv) (sessionKey : FileRead) (seeds : Fields (List UInt8)),
      sendResult libs sessionKey seeds ⟨result.project_name, job.proof_hash, result.duration,
        result.verifiers⟩ = .next body := by
  have hclaims : ClaimsInv w := run_claimsInv hrun
  have hclaim : .claimed job.proof_hash job.claimed_at ∈ w.manager.log := by
    rw [← mem_claims, ← hclaims]
    exact List.mem_map_of_mem (f := Job.claim) hjob
  obtain ⟨ops, hops⟩ := run_manager hrun
  have hsupported := run_supportedInv hrun job hjob
  rw [Supported, hphase] at hsupported
  obtain ⟨hserved, hproject, hsend⟩ := hsupported
  obtain ⟨node, providers, hres⟩ := hserved
  exact ⟨run_claimsBacked hops _ _ hclaim, hclaim, ⟨node, providers, hres⟩,
    hasProof_of_run hres hproject, hsend⟩

/-- The request posted a report of the hash. -/
def Job.reports (h : String) (job : Job) : Bool :=
  match job.phase with
  | .answered _ (some _) => job.proof_hash = h
  | _ => false

/-- The reports of the hash that left the node. -/
def World.reportCount (w : World) (h : String) : Nat := w.jobs.countP (Job.reports h)

theorem claimCount_eq (log : List ProofManagerRun.Event) (h : String) :
    claimCount log h = (claims log).countP (fun c => c.1 = h) := by
  induction log with
  | nil => rfl
  | cons ev log ih =>
      cases ev with
      | claimed h' t =>
          rw [claims_cons, List.countP_append, claimCount_cons, ih]
          simp [ProofManagerRun.Event.claims, List.countP_cons]
      | pushed h' s t =>
          rw [claimCount_cons, ih]
          rfl
      | restarted t =>
          rw [claimCount_cons, ih]
          rfl

theorem ClaimsInv.reportCount_le {w : World} (hinv : ClaimsInv w) (h : String) :
    w.reportCount h ≤ claimCount w.manager.log h := by
  unfold ClaimsInv at hinv
  rw [claimCount_eq, ← hinv, List.countP_map]
  apply List.countP_mono_left
  intro job _ hreports
  unfold Job.reports at hreports
  split at hreports
  next => exact hreports
  next => cases hreports

/-- **A hash is reported at most once for each time it was accepted or the node
restarted**, in every run. -/
theorem reports_le_pushes {t₀ : ℚ} {labels : List (Label Pub Priv)} {w : World}
    (hrun : run (World.step verify) (World.initial t₀) labels = some w) (h : String) :
    w.reportCount h ≤ claimCount w.manager.log h ∧
      claimCount w.manager.log h ≤ pushCount w.manager.log h + restartCount w.manager.log := by
  obtain ⟨ops, hops⟩ := run_manager hrun
  have hclaims : ClaimsInv w := run_claimsInv hrun
  exact ⟨hclaims.reportCount_le h, le_trans (Nat.le_add_right _ _) (run_countInv h hops)⟩

end Runs

/-! ## One report -/

/-- A node with one project, whose prover answers one method with a proof. -/
def smallNode : ProveService.Node Unit Unit where
  libs :=
    { loads := fun text => if text = "[\"10007\"]" then some (.list [.str "10007"]) else none
      publicModulus := fun _ => .error .valueError }
  loadsBytes := fun _ => none
  crypto := RSAEncryption.plain
  privateKey := none
  refresh := fun _ => .error .valueError
  template_provider_map := .dict []
  projects := .dict [("10007", .dict [("project_name", .str "Tako"), ("verifiers", .list [])])]
  circom :=
    { prove := fun _ _ => .response ⟨0, "Successfully", ""⟩
      proveNosha256 := fun _ _ _ => .response ⟨0, "Successfully", ""⟩
      proveNosha256WithWitness := fun _ _ _ =>
        .response ⟨0, "Successfully", "[\"10007\"]", "proof"⟩
      proveNosha256Offchain := fun _ _ _ => .response ⟨0, "Successfully", "", []⟩
      proveV2 := fun _ _ _ => .response ⟨0, "Successfully", "", "", [], "", []⟩ }
  private_ := fun _ _ _ => .response ⟨0, "Successfully", "", "", [], "", []⟩
  format := fun v => match v with
    | .str text => text
    | _ => ""
  duration := 3

def smallRequest : Request :=
  ⟨"0xab", some TASK_TYPE_TIGA, PROVER_CIRCOM, "10005", "input", false, 0, none⟩

/-- A push, a claim ten seconds later, a proof, a report, and the same request again. -/
def smallLabels : List (Label Unit Unit) :=
  [.manager (.restart none), .manager (.pushTask "0xab" "signed"), .manager (.advance 10),
    .request .httpProveNosha256WithWitness smallRequest, .proved 0 smallNode ⟨Dict.empty, []⟩,
    .reported 0 smallLibs (.text "session public") ⟨[], [], [], []⟩,
    .request .grpcProveV2 smallRequest]

def smallSignature (_ signature : String) : Bool := signature = "signed"

theorem run_small_isSome :
    (run (World.step smallSignature) (World.initial 0) smallLabels).isSome = true := by
  decide +kernel

def smallEnd : World :=
  (run (World.step smallSignature) (World.initial 0) smallLabels).get run_small_isSome

theorem run_small : run (World.step smallSignature) (World.initial 0) smallLabels =
    some smallEnd := (Option.some_get run_small_isSome).symm

/-- The jobs of the run that have posted a report, with their hashes. -/
def World.posted (w : World) : List (Job × ProofResult × Fields String) :=
  w.jobs.filterMap (fun job =>
    match job.phase with
    | .answered result (some body) => some (job, result, body)
    | _ => none)

theorem mem_posted {w : World} {job : Job} {result : ProofResult} {body : Fields String}
    (h : (job, result, body) ∈ w.posted) :
    job ∈ w.jobs ∧ job.phase = .answered result (some body) := by
  obtain ⟨job', hmem, hsome⟩ := List.mem_filterMap.1 h
  split at hsome
  next hphase =>
    cases hsome
    exact ⟨hmem, hphase⟩
  next => cases hsome

theorem reports_backed_small : ∃ job ∈ smallEnd.jobs, ∃ result body,
    job.phase = .answered result (some body) ∧
      (∃ s t, .pushed job.proof_hash s t ∈ smallEnd.manager.log ∧
        smallSignature job.proof_hash s = true) ∧ result.hasProof = true := by
  have hposted : smallEnd.posted.length = 1 := by decide +kernel
  obtain ⟨⟨job, result, body⟩, hlist⟩ := List.length_eq_one_iff.1 hposted
  obtain ⟨hjob, hphase⟩ := mem_posted (hlist ▸ List.mem_singleton_self (job, result, body))
  obtain ⟨⟨s, t, hpushed, hverify, -⟩, -, -, hproof, -⟩ := reports_backed run_small hjob hphase
  exact ⟨job, hjob, result, body, hphase, ⟨s, t, hpushed, hverify⟩, hproof⟩

theorem reports_le_pushes_small :
    smallEnd.reportCount "0xab" = 1 ∧
      smallEnd.reportCount "0xab" ≤ claimCount smallEnd.manager.log "0xab" :=
  ⟨by decide +kernel, (reports_le_pushes run_small "0xab").1⟩

end ProverNetwork.Ports.ProveNode
