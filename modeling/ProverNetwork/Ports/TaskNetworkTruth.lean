import ProverNetwork.Ports.TaskNetworkBounds

/-!
# What a client is told

A client is told of nodes that its task is pushed to, under its hash, and of no other:
each of them passed every check of the registration, and no two of them have the same
pair of addresses.

## Main results

* `run_ledgerInv` — every push belongs to a request, every model kept has a push.
* `handed_out` — what a client is told.
-/

namespace ProverNetwork.Ports.TaskNetwork

open ProverNetwork.Verified
open ProverNetwork.Ports
open ProverNetwork.Ports.GetNode
open ProverNetwork.Ports.PushTask
open ProverNetwork.Ports.ProofManagerRun (Event pushCount)

variable {ι Ip Net Pub Priv : Type} [DecidableEq ι] {s : Setup Ip Net Pub Priv}

/-! ## Requests and their pushes -/

/-- What a request never changes. -/
def Ticket.Same (t t' : Ticket) : Prop := t'.proof_hash = t.proof_hash ∧ t'.signature = t.signature

theorem again_same (t : Ticket) : Ticket.Same t t.again := by
  unfold Ticket.again
  split <;> exact ⟨rfl, rfl⟩

theorem select_same (t : Ticket) (raw_nodes : List RawNode) :
    Ticket.Same t (t.select raw_nodes) := by
  unfold Ticket.select
  dsimp only
  split
  next => exact again_same { t with attempts := t.attempts + 1 }
  next => exact ⟨rfl, rfl⟩

theorem gather_same (t : Ticket) (raw_nodes : List RawNode) (outcomes : List Processed) :
    Ticket.Same t (t.gather raw_nodes outcomes) := by
  unfold Ticket.gather
  dsimp only
  split
  next => exact again_same { t with node_models := Ticket.models raw_nodes outcomes }
  next => exact ⟨rfl, rfl⟩

/-- The models kept by a request come from its last results, or from before. -/
theorem again_models (t : Ticket) : t.again.node_models = t.node_models := by
  unfold Ticket.again
  split <;> rfl

theorem select_models (t : Ticket) (raw_nodes : List RawNode) :
    (t.select raw_nodes).node_models = t.node_models := by
  unfold Ticket.select
  dsimp only
  split
  next => exact again_models _
  next => rfl

theorem gather_models (t : Ticket) (raw_nodes : List RawNode) (outcomes : List Processed) :
    (t.gather raw_nodes outcomes).node_models = Ticket.models raw_nodes outcomes := by
  unfold Ticket.gather
  dsimp only
  split
  next => exact again_models _
  next => rfl

/-- The nodes that are being processed are those just selected. -/
theorem again_not_gathers (t : Ticket) (raw_nodes : List RawNode) :
    t.again.stage ≠ .gathers raw_nodes := by
  unfold Ticket.again
  split
  next => exact fun h => by cases h
  next => exact fun h => by cases h

theorem select_gathers {t : Ticket} {raw_nodes raw : List RawNode}
    (h : (t.select raw_nodes).stage = .gathers raw) : raw = raw_nodes := by
  unfold Ticket.select at h
  dsimp only at h
  split at h
  next => exact absurd h (again_not_gathers _ raw)
  next => exact (Stage.gathers.inj h).symm

theorem gather_not_gathers (t : Ticket) (raw_nodes raw : List RawNode)
    (outcomes : List Processed) : (t.gather raw_nodes outcomes).stage ≠ .gathers raw := by
  unfold Ticket.gather
  dsimp only
  split
  next => exact again_not_gathers _ raw
  next => exact fun h => by cases h

/-- A push belongs to a request: it carries the hash and the signature, and its
addresses passed every check of the registration. -/
structure Belongs (s : Setup Ip Net Pub Priv) (tickets : List Ticket) (x : Dispatch) : Prop where
  ticket : ∃ t, tickets[x.ticket]? = some t ∧ t.proof_hash = x.proof_hash ∧
    t.signature = x.signature
  passed : NodeRegister.Passed s.hub x.grpc_info x.http_info

/-- Every signature was made by the hub, every node being processed passed the checks,
every push belongs to a request, and every model kept has a push. -/
structure LedgerInv (s : Setup Ip Net Pub Priv) (w : World ι Pub Priv) : Prop where
  signed : ∀ t ∈ w.tickets, ∃ salt, s.sign salt t.proof_hash = some t.signature
  gathers : ∀ t ∈ w.tickets, ∀ raw_nodes, t.stage = .gathers raw_nodes →
    ∀ raw ∈ raw_nodes, NodeRegister.Passed s.hub raw.1 raw.2.1
  belongs : ∀ x ∈ w.dispatches, Belongs s w.tickets x
  models : ∀ i t, w.tickets[i]? = some t → ∀ m ∈ t.node_models, ∃ x ∈ w.dispatches,
    x.ticket = i ∧ (x.grpc_info, x.http_info) = m.pair

/-- Requests keep what a push needs of them. -/
theorem Belongs.mono {tickets tickets' : List Ticket} {x : Dispatch} (hx : Belongs s tickets x)
    (hkept : ∀ (i : Nat) (t : Ticket), tickets[i]? = some t →
      ∃ t', tickets'[i]? = some t' ∧ Ticket.Same t t') :
    Belongs s tickets' x := by
  obtain ⟨⟨t, hget, hhash, hsignature⟩, hpassed⟩ := hx
  obtain ⟨t', hget', hhash', hsignature'⟩ := hkept x.ticket t hget
  exact ⟨⟨t', hget', hhash'.trans hhash, hsignature'.trans hsignature⟩, hpassed⟩

theorem kept_append (tickets : List Ticket) (new : Ticket) (i : Nat) (t : Ticket)
    (hget : tickets[i]? = some t) : ∃ t', (tickets ++ [new])[i]? = some t' ∧ Ticket.Same t t' := by
  have hlt := (List.getElem?_eq_some_iff.1 hget).1
  exact ⟨t, by rw [List.getElem?_append_left hlt, hget], rfl, rfl⟩

theorem kept_set {tickets : List Ticket} {i : Nat} {t new : Ticket}
    (hget : tickets[i]? = some t) (hsame : Ticket.Same t new) (j : Nat) (u : Ticket)
    (hu : tickets[j]? = some u) : ∃ u', (tickets.set i new)[j]? = some u' ∧ Ticket.Same u u' := by
  rw [List.getElem?_set]
  by_cases hij : i = j
  · subst hij
    cases hget.symm.trans hu
    have hlt := (List.getElem?_eq_some_iff.1 hget).1
    exact ⟨new, by rw [if_pos rfl, if_pos hlt], hsame⟩
  · exact ⟨u, by rw [if_neg hij, hu], rfl, rfl⟩

theorem mem_dispatchOf {i : Nat} {t : Ticket} {raws : List RawNode} {x : Dispatch}
    (h : x ∈ raws.map (dispatchOf i t)) : ∃ raw ∈ raws, x = dispatchOf i t raw := by
  obtain ⟨raw, hraw, rfl⟩ := List.mem_map.1 h
  exact ⟨raw, hraw, rfl⟩

omit [DecidableEq ι] in
/-- A push whose phase changes belongs to the same request. -/
theorem LedgerInv.inPhase {w : World ι Pub Priv} (hinv : LedgerInv s w) {d : Nat} {x : Dispatch}
    (hget : w.dispatches[d]? = some x) (phase : Phase) (connections : List Connection) :
    LedgerInv s { w with
      dispatches := w.dispatches.set d (x.inPhase phase)
      connections := connections } := by
  have hx := hinv.belongs x (List.mem_of_getElem? hget)
  refine ⟨hinv.signed, hinv.gathers, ?_, ?_⟩
  · intro y hy
    cases List.mem_or_eq_of_mem_set hy with
    | inl hold => exact hinv.belongs y hold
    | inr heq =>
        subst heq
        exact ⟨hx.ticket, hx.passed⟩
  · intro i t ht m hm
    obtain ⟨y, hy, hticket, hpair⟩ := hinv.models i t ht m hm
    obtain ⟨j, hj, hyj⟩ := List.mem_iff_getElem.1 hy
    by_cases hjd : j = d
    · subst hjd
      rw [List.getElem?_eq_getElem hj, hyj, Option.some.injEq] at hget
      subst hget
      exact ⟨y.inPhase phase, List.mem_set hj _, hticket, hpair⟩
    · refine ⟨y, List.mem_iff_getElem?.2 ⟨j, ?_⟩, hticket, hpair⟩
      rw [List.getElem?_set, if_neg (fun heq => hjd heq.symm), List.getElem?_eq_getElem hj, hyj]

/-- **Step lemma.** -/
theorem LedgerInv.of_effect {w w' : World ι Pub Priv} (hinv : LedgerInv s w)
    (htable : NodeRegister.TableInv s.hub w.hub.nodeList) (heff : Effect s w w') :
    LedgerInv s w' := by
  cases heff with
  | hub => exact ⟨hinv.signed, hinv.gathers, hinv.belongs, hinv.models⟩
  | issued data now salt signature hsign =>
      refine ⟨?_, ?_, fun x hx => (hinv.belongs x hx).mono (kept_append w.tickets _), ?_⟩
      · intro t hmem
        cases List.mem_append.1 hmem with
        | inl hold => exact hinv.signed t hold
        | inr hnew =>
            cases List.mem_singleton.1 hnew
            exact ⟨salt, hsign⟩
      · intro t hmem raw_nodes hstage
        cases List.mem_append.1 hmem with
        | inl hold => exact hinv.gathers t hold raw_nodes hstage
        | inr hnew =>
            cases List.mem_singleton.1 hnew
            cases hstage
      · intro i t hget m hm
        by_cases hlt : i < w.tickets.length
        · rw [List.getElem?_append_left hlt] at hget
          exact hinv.models i t hget m hm
        · rw [List.getElem?_append_right (Nat.le_of_not_lt hlt)] at hget
          cases List.mem_singleton.1 (List.mem_of_getElem? hget)
          cases hm
  | selected i t sample hget hstage hsampled =>
      have hsame := select_same t (w.hub.nodeList.getNode 4 sample)
      have hmem := List.mem_of_getElem? hget
      refine ⟨?_, ?_, fun x hx => (hinv.belongs x hx).mono (kept_set hget hsame), ?_⟩
      · intro u hu
        cases List.mem_or_eq_of_mem_set hu with
        | inl hold => exact hinv.signed u hold
        | inr heq =>
            rw [heq, hsame.1, hsame.2]
            exact hinv.signed t hmem
      · intro u hu raw_nodes hgathers raw hraw
        cases List.mem_or_eq_of_mem_set hu with
        | inl hold => exact hinv.gathers u hold raw_nodes hgathers raw hraw
        | inr heq =>
            rw [heq] at hgathers
            rw [select_gathers hgathers] at hraw
            exact htable.selected hraw
      · intro j u hu m hm
        rw [List.getElem?_set] at hu
        split at hu
        next hij =>
          split at hu
          next =>
            cases hu
            rw [select_models] at hm
            exact hij ▸ hinv.models i t hget m hm
          next => cases hu
        next => exact hinv.models j u hu m hm
  | gathered i t raw_nodes outcomes hget hstage =>
      have hsame := gather_same t raw_nodes outcomes
      have hmem := List.mem_of_getElem? hget
      refine ⟨?_, ?_, ?_, ?_⟩
      · intro u hu
        cases List.mem_or_eq_of_mem_set hu with
        | inl hold => exact hinv.signed u hold
        | inr heq =>
            rw [heq, hsame.1, hsame.2]
            exact hinv.signed t hmem
      · intro u hu raw hgathers
        cases List.mem_or_eq_of_mem_set hu with
        | inl hold => exact hinv.gathers u hold raw hgathers
        | inr heq => exact absurd (heq ▸ hgathers) (gather_not_gathers t raw_nodes raw outcomes)
      · intro x hx
        cases List.mem_append.1 hx with
        | inl hold => exact (hinv.belongs x hold).mono (kept_set hget hsame)
        | inr hnew =>
            obtain ⟨raw, hraw, rfl⟩ := mem_dispatchOf hnew
            obtain ⟨t', hget', hhash, hsignature⟩ := kept_set hget hsame i t hget
            exact ⟨⟨t', hget', hhash, hsignature⟩,
              hinv.gathers t hmem raw_nodes hstage raw (Ticket.mem_of_started hraw)⟩
      · intro j u hu m hm
        rw [List.getElem?_set] at hu
        split at hu
        next hij =>
          split at hu
          next =>
            cases hu
            rw [gather_models] at hm
            obtain ⟨raw, hraw, rfl⟩ := Ticket.started_of_model hm
            exact ⟨dispatchOf i t raw, List.mem_append_right _ (List.mem_map_of_mem hraw), hij,
              rfl⟩
          next => cases hu
        next =>
          obtain ⟨x, hx, hrest⟩ := hinv.models j u hu m hm
          exact ⟨x, List.mem_append_left _ hx, hrest⟩
  | posted d x hget hphase => exact hinv.inPhase hget .posted _
  | reposted d x hget hphase => exact hinv.inPhase hget .reposted _
  | failed d x e hget hopen => exact hinv.inPhase hget _ w.connections
  | answered c x y n hget hstatus hdispatch hawaits => exact hinv.inPhase hdispatch _ _
  | quiet => exact ⟨hinv.signed, hinv.gathers, hinv.belongs, hinv.models⟩
  | delivered => exact ⟨hinv.signed, hinv.gathers, hinv.belongs, hinv.models⟩
  | foreign => exact ⟨hinv.signed, hinv.gathers, hinv.belongs, hinv.models⟩
  | node => exact ⟨hinv.signed, hinv.gathers, hinv.belongs, hinv.models⟩

/-- **Run lemma.** -/
theorem run_ledgerInv {clocks : List (String × ℚ)} {labels : List (Label ι Pub Priv)}
    {w : World ι Pub Priv} (hrun : run (World.step s) (World.initial clocks) labels = some w) :
    LedgerInv s w := by
  refine run_invariant_using (fun w => NodeRegister.TableInv s.hub w.hub.nodeList) (LedgerInv s)
    ?_ (fun _ _ _ htable hinv hstep => hinv.of_effect htable (effect_of_step hstep)) ?_ hrun
  · intro ls v hv
    obtain ⟨moves, hmoves⟩ := run_hub hv
    exact NodeRegister.run_tableInv hmoves
  · exact ⟨fun _ h => (by cases h), fun _ h => (by cases h), fun _ h => (by cases h),
      fun _ _ h => (by cases h)⟩

/-- **A client is told the truth.**  An answered request either failed, with no model
left, or hands out between one and four nodes, no two with the same pair of
addresses; each of them is one that passed every check of the registration and to
which a push of the hash of the request was started, under the hub's signature. -/
theorem handed_out {clocks : List (String × ℚ)} {labels : List (Label ι Pub Priv)}
    {w : World ι Pub Priv} (hrun : run (World.step s) (World.initial clocks) labels = some w)
    {i : Nat} {t : Ticket} {r : Response} (ht : w.tickets[i]? = some t)
    (hr : t.stage = .answered r) :
    (r = failedToProcess ∧ t.node_models = []) ∨
      (r = handedOut t.node_models t.proof_hash ∧ t.node_models ≠ [] ∧
        t.node_models.length ≤ 4 ∧ (t.node_models.map NodeInfoModel.pair).Nodup ∧
        (∃ salt, s.sign salt t.proof_hash = some t.signature) ∧
        ∀ m ∈ t.node_models, NodeRegister.Passed s.hub m.grpc_info.address m.http_info.address ∧
          ∃ x ∈ w.dispatches, x.ticket = i ∧ (x.grpc_info, x.http_info) = m.pair ∧
            x.proof_hash = t.proof_hash ∧ x.signature = t.signature) := by
  have hmem := List.mem_of_getElem? ht
  have hformed := (run_ticketInv "" hrun).wellFormed t hmem
  have hledger := run_ledgerInv hrun
  have hanswer := hformed.answered_eq r hr
  by_cases hempty : t.node_models = []
  · rw [if_pos hempty] at hanswer
    exact Or.inl ⟨hanswer, hempty⟩
  · rw [if_neg hempty] at hanswer
    refine Or.inr ⟨hanswer, hempty, hformed.models_le, hformed.models_nodup,
      hledger.signed t hmem, ?_⟩
    intro m hm
    obtain ⟨x, hx, hticket, hpair⟩ := hledger.models i t ht m hm
    obtain ⟨⟨t', hget', hhash, hsignature⟩, hpassed⟩ := hledger.belongs x hx
    rw [hticket] at hget'
    cases ht.symm.trans hget'
    obtain ⟨hgrpc, hhttp⟩ := Prod.mk.inj hpair
    rw [hgrpc, hhttp] at hpassed
    exact ⟨hpassed, x, hx, hticket, hpair, hhash.symm, hsignature.symm⟩

theorem handed_out_small : ∃ t ∈ smallEnd.tickets, t.node_models ≠ [] ∧
    ∀ m ∈ t.node_models,
      NodeRegister.Passed smallSetup.hub m.grpc_info.address m.http_info.address := by
  have hanswered : smallEnd.tickets[0]?.any (fun t => t.node_models ≠ [] ∧
      t.stage = .answered (handedOut t.node_models t.proof_hash)) = true := by
    decide +kernel
  rw [Option.any_eq_true] at hanswered
  obtain ⟨t, ht, hanswer⟩ := hanswered
  obtain ⟨hne, hstage⟩ := of_decide_eq_true hanswer
  cases handed_out run_small ht hstage with
  | inl hfailed => exact absurd hfailed.2 hne
  | inr hhanded =>
      obtain ⟨-, -, -, -, -, hmodels⟩ := hhanded
      exact ⟨t, List.mem_of_getElem? ht, hne, fun m hm => (hmodels m hm).1⟩

end ProverNetwork.Ports.TaskNetwork
