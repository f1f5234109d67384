import ProverNetwork.Ports.NodeRegisterTable
import ProverNetwork.Ports.ProveNodeReports
import ProverNetwork.Ports.TaskNetwork

/-!
# How often a task is run

A task is not claimed once.  A request for it makes up to three attempts, an attempt
pushes it to up to four nodes, a push posts up to twice, and a post that is accepted
lets the node grant one claim; so does every restart of the node.  Each of these is a
credit that the stage before has paid for, and the credits never exceed what the
requests of the hash brought in.

## Main results

* `run_pushInv` — the pushes a node accepted, against the pushes of the hub.
* `run_ticketInv` — the pushes of the hub, against its requests.
* `claims_bounded` — the claims and the reports of a hash on all nodes together.
-/

namespace ProverNetwork.Ports.TaskNetwork

open ProverNetwork.Verified
open ProverNetwork.Ports
open ProverNetwork.Ports.GetNode
open ProverNetwork.Ports.PushTask
open ProverNetwork.Ports.ProofManagerRun (Event pushCount claimCount restartCount)

/-! ## Accepted pushes -/

/-- A push of the hash to the address. -/
def Dispatch.isFor (address h : String) (x : Dispatch) : Nat :=
  if x.http_info = address ∧ x.proof_hash = h then 1 else 0

/-- The posts that it can still make. -/
def Dispatch.credit (address h : String) (x : Dispatch) : Nat := x.phase.left * x.isFor address h

/-- The pushes of the hash that the node at the address accepted. -/
def pushesAt (nodes : Dict String ProveNode.World) (address h : String) : Nat :=
  match nodes.get? address with
  | some v => pushCount v.manager.log h
  | none => 0

/-- What a node accepted, what is on its way to it and what can still be posted was
all paid for by a push of the hub, two posts each, or by somebody else. -/
def PushInv {ι Pub Priv : Type} (address h : String) (w : World ι Pub Priv) : Prop :=
  pushesAt w.nodes address h + weight (Connection.carries address h) w.connections +
      weight (Dispatch.credit address h) w.dispatches ≤
    2 * weight (Dispatch.isFor address h) w.dispatches + w.foreign.count (address, h)

theorem pushesAt_set {nodes : Dict String ProveNode.World} {a : String} {v : ProveNode.World}
    (v' : ProveNode.World) (hv : nodes.get? a = some v) (address h : String) :
    pushesAt (nodes.set a v') address h + (if address = a then pushCount v.manager.log h else 0) =
      pushesAt nodes address h + if address = a then pushCount v'.manager.log h else 0 := by
  unfold pushesAt
  rw [Dict.get?_set]
  by_cases ha : address = a
  · subst ha
    rw [if_pos rfl, if_pos rfl, if_pos rfl, hv]
    exact Nat.add_comm _ _
  · rw [if_neg ha, if_neg ha, if_neg ha]

/-- A push is accepted at most once, and for its own hash only. -/
theorem pushCount_push (verify : String → String → Bool) (m : ProofManagerRun.World)
    (pm : ProofManager) (h' signature h : String) :
    pushCount (m.push verify pm h' signature).log h ≤
      pushCount m.log h + if h' = h then 1 else 0 := by
  unfold ProofManagerRun.World.push
  rcases pushTask verify pm m.now h' signature with ⟨e | r, pm'⟩
  · exact Nat.le_add_right _ _
  · show pushCount (.pushed h' signature m.now :: m.log) h ≤ _
    rw [ProofManagerRun.pushCount_cons]
    simp [Event.pushes]

theorem pushCount_of_manager_step {verify : String → String → Bool}
    {m m' : ProofManagerRun.World} {op : ProofManagerRun.Op}
    (hop : ∀ h signature, op ≠ .pushTask h signature) (hstep : m.step verify op = some m')
    (h : String) : pushCount m'.log h = pushCount m.log h := by
  cases ProofManagerRun.effect_of_step hstep with
  | accepted h' signature => exact absurd rfl (hop h' signature)
  | claimed h' e => exact ProofManagerRun.pushCount_cons _ _ _
  | shrunk => rfl
  | crashed => rfl
  | restarted choice => exact ProofManagerRun.pushCount_cons _ _ _
  | advanced d => rfl

section Counting

variable {ι Ip Net Pub Priv : Type} [DecidableEq ι] {s : Setup Ip Net Pub Priv}

/-- A node that does something other than accept a push leaves its cache alone or makes
a step of it that is no push. -/
theorem manager_of_node_step {verify : String → String → Bool} {v v' : ProveNode.World}
    {l : ProveNode.Label Pub Priv} (hl : ∀ h signature, l ≠ .manager (.pushTask h signature))
    (hstep : v.step verify l = some v') :
    v'.manager = v.manager ∨ ∃ op, (∀ h signature, op ≠ .pushTask h signature) ∧
      v.manager.step verify op = some v'.manager := by
  obtain ⟨⟨a, u⟩, hhandle, rfl⟩ := Option.map_eq_some_iff.1 hstep
  cases l with
  | request endpoint r =>
      obtain ⟨pm, hpm, hres⟩ := Option.map_eq_some_iff.1 hhandle
      have hmove : v.manager.step verify (.claimTask r.proof_hash) =
          some (v.manager.claim pm r.proof_hash) := by
        rw [ProofManagerRun.World.step, hpm]
        rfl
      have hmanager : u.manager = v.manager.claim pm r.proof_hash := by
        rw [show u = (v.arrive pm endpoint r).2 from by rw [hres]]
        unfold ProveNode.World.arrive
        dsimp only
        split <;> rfl
      exact Or.inr ⟨_, fun _ _ heq => (by cases heq), hmanager ▸ hmove⟩
  | proved i node providers =>
      simp only [ProveNode.World.handle] at hhandle
      split at hhandle
      next =>
        split at hhandle
        next =>
          cases hhandle
          exact Or.inl rfl
        next => cases hhandle
      next => cases hhandle
  | reported i libs sessionKey seeds =>
      simp only [ProveNode.World.handle] at hhandle
      split at hhandle
      next =>
        split at hhandle
        next =>
          cases hhandle
          exact Or.inl rfl
        next => cases hhandle
      next => cases hhandle
  | cancel i =>
      obtain ⟨job, hjob, hres⟩ := Option.map_eq_some_iff.1 hhandle
      cases hres
      exact Or.inl rfl
  | manager op =>
      have hop : ∀ h signature, op ≠ .pushTask h signature :=
        fun h signature heq => hl h signature (congrArg ProveNode.Label.manager heq)
      simp only [ProveNode.World.handle] at hhandle
      split at hhandle
      next => cases hhandle
      next =>
        obtain ⟨m, hm, hres⟩ := Option.map_eq_some_iff.1 hhandle
        cases hres
        exact Or.inr ⟨_, hop, hm⟩
      next =>
        obtain ⟨m, hm, hres⟩ := Option.map_eq_some_iff.1 hhandle
        cases hres
        exact Or.inr ⟨_, hop, hm⟩

/-- Only a push adds to the accepted pushes of a node. -/
theorem pushCount_of_node_step {verify : String → String → Bool} {v v' : ProveNode.World}
    {l : ProveNode.Label Pub Priv} (hl : ∀ h signature, l ≠ .manager (.pushTask h signature))
    (hstep : v.step verify l = some v') (h : String) :
    pushCount v'.manager.log h = pushCount v.manager.log h := by
  cases manager_of_node_step hl hstep with
  | inl hsame => rw [hsame]
  | inr hmove =>
      obtain ⟨op, hop, hm⟩ := hmove
      exact pushCount_of_manager_step hop hm h

theorem carries_connection (x : Dispatch) (d attempt : Nat) (address h : String) :
    (x.connection d attempt).carries address h = x.isFor address h := by
  simp [Connection.carries, Dispatch.connection, Dispatch.isFor]

theorem credit_inPhase (x : Dispatch) (phase : Phase) (address h : String) :
    (x.inPhase phase).credit address h = phase.left * x.isFor address h := rfl

/-- A push whose phase changes keeps its address and its hash. -/
theorem weight_isFor_set {dispatches : List Dispatch} {d : Nat} {x : Dispatch}
    (hget : dispatches[d]? = some x) (phase : Phase) (address h : String) :
    weight (Dispatch.isFor address h) (dispatches.set d (x.inPhase phase)) =
      weight (Dispatch.isFor address h) dispatches :=
  Nat.add_right_cancel (weight_set (Dispatch.isFor address h) hget (x.inPhase phase))

/-- The end of a post leaves a push with no more to post. -/
theorem weight_credit_settles {dispatches : List Dispatch} {d : Nat} {x : Dispatch}
    (hget : dispatches[d]? = some x) (lower : String → String) (o : PostOutcome)
    (address h : String) :
    weight (Dispatch.credit address h) (dispatches.set d (x.inPhase (x.phase.settles lower o))) ≤
      weight (Dispatch.credit address h) dispatches := by
  have hset := weight_set (Dispatch.credit address h) hget
    (x.inPhase (x.phase.settles lower o))
  have hleft := Nat.mul_le_mul_right (x.isFor address h) (x.phase.left_settles lower o)
  rw [credit_inPhase] at hset
  have hcredit : x.credit address h = x.phase.left * x.isFor address h := rfl
  omega

/-- **Step lemma.** -/
theorem PushInv.of_effect {address h : String} {w w' : World ι Pub Priv}
    (hinv : PushInv address h w) (heff : Effect s w w') : PushInv address h w' := by
  unfold PushInv at hinv ⊢
  cases heff with
  | hub l hub hmove => exact hinv
  | issued data now salt signature hsign => exact hinv
  | selected i t sample hget hstage hsampled => exact hinv
  | gathered i t raw_nodes outcomes hget hstage =>
      have hnew : weight (Dispatch.credit address h)
          ((Ticket.started raw_nodes outcomes).map (dispatchOf i t)) =
          2 * weight (Dispatch.isFor address h)
            ((Ticket.started raw_nodes outcomes).map (dispatchOf i t)) := by
        rw [weight_map, weight_map, ← weight_mul]
        rfl
      dsimp only
      rw [weight_append, weight_append]
      omega
  | posted d x hget hphase =>
      have hset := weight_set (Dispatch.credit address h) hget (x.inPhase .posted)
      have hcredit : x.credit address h = 2 * x.isFor address h := by
        rw [Dispatch.credit, hphase]
        rfl
      have hposted : Phase.left .posted = 1 := rfl
      rw [credit_inPhase, hposted] at hset
      dsimp only
      rw [weight_isFor_set hget, weight_append, weight_cons, weight_nil, carries_connection]
      omega
  | reposted d x hget hphase =>
      have hset := weight_set (Dispatch.credit address h) hget (x.inPhase .reposted)
      have hcredit : x.credit address h = 1 * x.isFor address h := by
        rw [Dispatch.credit, hphase]
        rfl
      have hreposted : Phase.left .reposted = 0 := rfl
      rw [credit_inPhase, hreposted] at hset
      dsimp only
      rw [weight_isFor_set hget, weight_append, weight_cons, weight_nil, carries_connection]
      omega
  | failed d x e hget hopen =>
      have hcredit := weight_credit_settles hget s.hub.libs.lower (.error e) address h
      dsimp only
      rw [weight_isFor_set hget]
      omega
  | answered c x y n hget hstatus hdispatch hawaits =>
      have hcredit := weight_credit_settles hdispatch s.hub.libs.lower (.status n) address h
      have herase := weight_eraseIdx (Connection.carries address h) hget
      dsimp only
      rw [weight_isFor_set hdispatch]
      omega
  | quiet connections hquiet =>
      have hle := hquiet.carries_le address h
      dsimp only
      omega
  | delivered c x v pm hget hopen hv hpm =>
      have hconn := weight_set (Connection.carries address h) hget
        { x with
          status := some (statusOf
            (pushTask s.verify pm v.manager.now x.proof_hash x.signature).1) }
      have hpush := pushCount_push s.verify v.manager pm x.proof_hash x.signature h
      have hset := pushesAt_set (pushed s v pm x.proof_hash x.signature) hv address h
      simp only [Connection.carries, hopen, true_and, reduceCtorEq, false_and, if_false] at hconn
      simp only [pushed] at hset hpush ⊢
      by_cases ha : address = x.http_info
      · subst ha
        simp only [true_and, if_true] at hconn hset
        omega
      · have ha' : ¬ x.http_info = address := fun heq => ha heq.symm
        simp only [if_neg ha, ha', false_and, if_false] at hconn hset
        omega
  | foreign a h' signature v pm hv hpm =>
      have hpush := pushCount_push s.verify v.manager pm h' signature h
      have hset := pushesAt_set (pushed s v pm h' signature) hv address h
      dsimp only
      rw [List.count_cons]
      simp only [pushed] at hset hpush ⊢
      by_cases ha : address = a
      · subst ha
        simp only [if_true] at hset
        by_cases hh : h' = h
        · subst hh
          simp only [if_true, beq_self_eq_true] at hpush ⊢
          omega
        · simp only [if_neg hh] at hpush
          omega
      · simp only [if_neg ha] at hset
        omega
  | node a v v' l hv hmove hl =>
      have hsame := pushCount_of_node_step hl hmove h
      have hset := pushesAt_set v' hv address h
      dsimp only
      by_cases ha : address = a
      · simp only [if_pos ha] at hset
        omega
      · simp only [if_neg ha] at hset
        omega

/-- **Run lemma.** -/
theorem run_pushInv {clocks : List (String × ℚ)} {labels : List (Label ι Pub Priv)}
    {w : World ι Pub Priv} (address h : String)
    (hrun : run (World.step s) (World.initial clocks) labels = some w) :
    PushInv address h w := by
  have hinitial : PushInv address h (World.initial clocks : World ι Pub Priv) := by
    have hpushes : pushesAt (World.initial clocks : World ι Pub Priv).nodes address h = 0 := by
      unfold pushesAt
      split
      next v hv =>
        obtain ⟨now, rfl⟩ := initial_nodes hv
        rfl
      next => rfl
    unfold PushInv
    rw [hpushes]
    exact Nat.zero_le _
  exact run_invariant (PushInv address h) (fun _ => True)
    (fun _ _ _ _ hinv hstep => hinv.of_effect (effect_of_step hstep))
    (fun _ _ => trivial) hinitial hrun

/-! ## Started pushes -/

/-- A push of the hash. -/
def Dispatch.hasHash (h : String) (x : Dispatch) : Nat := if x.proof_hash = h then 1 else 0

/-- A request that was given the hash. -/
def Ticket.isFor (h : String) (t : Ticket) : Nat := if t.proof_hash = h then 1 else 0

/-- The pushes of the hash that a request can still start. -/
def Ticket.credit (h : String) (t : Ticket) : Nat := t.room * Ticket.isFor h t

/-- Requests are well formed, and each of them pays for twelve pushes. -/
structure TicketInv (h : String) (w : World ι Pub Priv) : Prop where
  wellFormed : ∀ t ∈ w.tickets, t.WellFormed
  paid : weight (Dispatch.hasHash h) w.dispatches + weight (Ticket.credit h) w.tickets ≤
    12 * weight (Ticket.isFor h) w.tickets

theorem again_proof_hash (t : Ticket) : t.again.proof_hash = t.proof_hash := by
  unfold Ticket.again
  split <;> rfl

theorem select_proof_hash (t : Ticket) (raw_nodes : List RawNode) :
    (t.select raw_nodes).proof_hash = t.proof_hash := by
  unfold Ticket.select
  dsimp only
  split
  next => exact again_proof_hash _
  next => rfl

theorem gather_proof_hash (t : Ticket) (raw_nodes : List RawNode) (outcomes : List Processed) :
    (t.gather raw_nodes outcomes).proof_hash = t.proof_hash := by
  unfold Ticket.gather
  dsimp only
  split
  next => exact again_proof_hash _
  next => rfl

theorem credit_of_proof_hash {t t' : Ticket} (hsame : t'.proof_hash = t.proof_hash) (h : String) :
    Ticket.credit h t' = t'.room * Ticket.isFor h t ∧ Ticket.isFor h t' = Ticket.isFor h t := by
  unfold Ticket.credit Ticket.isFor
  rw [hsame]
  exact ⟨rfl, rfl⟩

/-- The pushes of an attempt are pushes of the hash of the request. -/
theorem weight_hasHash_started (h : String) (i : Nat) (t : Ticket) (raws : List RawNode) :
    weight (Dispatch.hasHash h) (raws.map (dispatchOf i t)) =
      raws.length * Ticket.isFor h t := by
  rw [weight_map, Nat.mul_comm]
  exact weight_const (Ticket.isFor h t) raws

/-- A push whose phase changes keeps its hash. -/
theorem weight_hasHash_set {dispatches : List Dispatch} {d : Nat} {x : Dispatch}
    (hget : dispatches[d]? = some x) (phase : Phase) (h : String) :
    weight (Dispatch.hasHash h) (dispatches.set d (x.inPhase phase)) =
      weight (Dispatch.hasHash h) dispatches :=
  Nat.add_right_cancel (weight_set (Dispatch.hasHash h) hget (x.inPhase phase))

theorem mem_set_wellFormed {tickets : List Ticket} {i : Nat} {t : Ticket}
    (htickets : ∀ t ∈ tickets, t.WellFormed) (ht : t.WellFormed) :
    ∀ t' ∈ tickets.set i t, t'.WellFormed := by
  intro t' hmem
  cases List.mem_or_eq_of_mem_set hmem with
  | inl hold => exact htickets t' hold
  | inr heq => exact heq ▸ ht

/-- **Step lemma.** -/
theorem TicketInv.of_effect {h : String} {w w' : World ι Pub Priv} (hinv : TicketInv h w)
    (htable : NodeRegister.TableInv s.hub w.hub.nodeList) (heff : Effect s w w') :
    TicketInv h w' := by
  obtain ⟨hformed, hpaid⟩ := hinv
  cases heff with
  | hub => exact ⟨hformed, hpaid⟩
  | issued data now salt signature hsign =>
      refine ⟨?_, ?_⟩
      · intro t hmem
        cases List.mem_append.1 hmem with
        | inl hold => exact hformed t hold
        | inr hnew =>
            cases List.mem_singleton.1 hnew
            exact Ticket.issue_wellFormed _ _
      · have hcredit : Ticket.credit h
            (.issue (generateProofHash s.hub.digest data now) signature) =
            12 * Ticket.isFor h (.issue (generateProofHash s.hub.digest data now) signature) :=
          rfl
        dsimp only
        rw [weight_append, weight_append, weight_cons, weight_cons, weight_nil, weight_nil, hcredit]
        omega
  | selected i t sample hget hstage hsampled =>
      have hmem := List.mem_of_getElem? hget
      have ht := hformed t hmem
      have hselection := htable.selection hsampled
      obtain ⟨hcredit, hfor⟩ := credit_of_proof_hash
        (select_proof_hash t (w.hub.nodeList.getNode 4 sample)) h
      have hroom := Nat.mul_le_mul_right (Ticket.isFor h t)
        (Ticket.room_select hstage (ht.selects_lt hstage) (w.hub.nodeList.getNode 4 sample))
      have hcredits := weight_set (Ticket.credit h) hget
        (t.select (w.hub.nodeList.getNode 4 sample))
      have hissued := weight_set (Ticket.isFor h) hget
        (t.select (w.hub.nodeList.getNode 4 sample))
      have hbefore : Ticket.credit h t = t.room * Ticket.isFor h t := rfl
      refine ⟨mem_set_wellFormed hformed (Ticket.select_wellFormed ht hstage hselection), ?_⟩
      dsimp only
      omega
  | gathered i t raw_nodes outcomes hget hstage =>
      have hmem := List.mem_of_getElem? hget
      have ht := hformed t hmem
      have hselection := (ht.gathers_pos raw_nodes hstage).2
      obtain ⟨hcredit, hfor⟩ := credit_of_proof_hash (gather_proof_hash t raw_nodes outcomes) h
      have hroom := Nat.mul_le_mul_right (Ticket.isFor h t)
        (Ticket.room_gather hstage ht outcomes)
      rw [Nat.add_mul] at hroom
      have hcredits := weight_set (Ticket.credit h) hget (t.gather raw_nodes outcomes)
      have hissued := weight_set (Ticket.isFor h) hget (t.gather raw_nodes outcomes)
      have hbefore : Ticket.credit h t = t.room * Ticket.isFor h t := rfl
      refine ⟨mem_set_wellFormed hformed (Ticket.gather_wellFormed ht hselection outcomes), ?_⟩
      dsimp only
      rw [weight_append, weight_hasHash_started]
      omega
  | posted d x hget hphase => exact ⟨hformed, (weight_hasHash_set hget .posted h).symm ▸ hpaid⟩
  | reposted d x hget hphase => exact ⟨hformed, (weight_hasHash_set hget .reposted h).symm ▸ hpaid⟩
  | failed d x e hget hopen => exact ⟨hformed, (weight_hasHash_set hget _ h).symm ▸ hpaid⟩
  | answered c x y n hget hstatus hdispatch hawaits =>
      exact ⟨hformed, (weight_hasHash_set hdispatch _ h).symm ▸ hpaid⟩
  | quiet => exact ⟨hformed, hpaid⟩
  | delivered => exact ⟨hformed, hpaid⟩
  | foreign => exact ⟨hformed, hpaid⟩
  | node => exact ⟨hformed, hpaid⟩

/-- **Run lemma.** -/
theorem run_ticketInv {clocks : List (String × ℚ)} {labels : List (Label ι Pub Priv)}
    {w : World ι Pub Priv} (h : String)
    (hrun : run (World.step s) (World.initial clocks) labels = some w) : TicketInv h w := by
  refine run_invariant_using (fun w => NodeRegister.TableInv s.hub w.hub.nodeList) (TicketInv h)
    ?_ (fun _ _ _ htable hinv hstep => hinv.of_effect htable (effect_of_step hstep)) ?_ hrun
  · intro ls v hv
    obtain ⟨moves, hmoves⟩ := run_hub hv
    exact NodeRegister.run_tableInv hmoves
  · exact ⟨fun _ hmem => (by cases hmem), le_rfl⟩

/-! ## All nodes together -/

/-- The claims of the hash on all nodes. -/
def World.claims (w : World ι Pub Priv) (h : String) : Nat :=
  weight (fun item => claimCount item.2.manager.log h) w.nodes.items

/-- The reports of the hash that left any node. -/
def World.reports (w : World ι Pub Priv) (h : String) : Nat :=
  weight (fun item => item.2.reportCount h) w.nodes.items

/-- The restarts of all nodes. -/
def World.restarts (w : World ι Pub Priv) : Nat :=
  weight (fun item => restartCount item.2.manager.log) w.nodes.items

/-- The requests that were given the hash. -/
def World.issued (w : World ι Pub Priv) (h : String) : Nat := weight (Ticket.isFor h) w.tickets

/-- The pushes of the hash that others made. -/
def World.foreignPushes (w : World ι Pub Priv) (h : String) : Nat :=
  weight (fun f => if f.2 = h then 1 else 0) w.foreign

theorem count_eq_weight (foreign : List (String × String)) (address h : String) :
    foreign.count (address, h) =
      weight (fun f => if f.1 = address then (if f.2 = h then 1 else 0) else 0) foreign := by
  induction foreign with
  | nil => rfl
  | cons f foreign ih =>
      obtain ⟨a, k⟩ := f
      rw [List.count_cons, weight_cons, ih, Nat.add_comm]
      by_cases ha : a = address <;> by_cases hk : k = h <;> simp [ha, hk]

theorem isFor_eq (address h : String) (x : Dispatch) :
    x.isFor address h = if x.http_info = address then x.hasHash h else 0 := by
  unfold Dispatch.isFor Dispatch.hasHash
  by_cases ha : x.http_info = address <;> by_cases hh : x.proof_hash = h <;> simp [ha, hh]

omit [DecidableEq ι] in
/-- What a node granted, it was paid for. -/
theorem claimCount_le_paid {w : World ι Pub Priv} {address h : String} {v : ProveNode.World}
    (hv : w.nodes.get? address = some v) (hpush : PushInv address h w)
    (hcount : ProofManagerRun.CountInv h v.manager) :
    claimCount v.manager.log h ≤
      2 * weight (Dispatch.isFor address h) w.dispatches + w.foreign.count (address, h) +
        restartCount v.manager.log := by
  unfold ProofManagerRun.CountInv at hcount
  have hpushes : pushesAt w.nodes address h = pushCount v.manager.log h := by
    rw [pushesAt, hv]
  unfold PushInv at hpush
  omega

/-- **A request for a task lets it be claimed twenty-four times at most.**  In every
run, whatever is delayed, lost or retried and whichever nodes restart, the claims of
a hash on all nodes are at most twenty-four for each request that was given it, one
for each push of it by others and one for each restart; and there are no more
reports of it than claims. -/
theorem claims_bounded {clocks : List (String × ℚ)} {labels : List (Label ι Pub Priv)}
    {w : World ι Pub Priv} (hrun : run (World.step s) (World.initial clocks) labels = some w)
    (h : String) :
    w.reports h ≤ w.claims h ∧
      w.claims h ≤ 24 * w.issued h + w.foreignPushes h + w.restarts := by
  have hnode : ∀ item ∈ w.nodes.items, ∃ (t₀ : ℚ) (moves : List (ProveNode.Label Pub Priv)),
      run (ProveNode.World.step s.verify) (ProveNode.World.initial t₀) moves = some item.2 :=
    fun item hmem => run_node hrun ((w.nodes.mem_items_iff item.1 item.2).1 hmem)
  constructor
  · apply weight_mono
    intro item hmem
    obtain ⟨t₀, moves, hmoves⟩ := hnode item hmem
    exact (ProveNode.run_claimsInv hmoves).reportCount_le h
  -- Each node is paid for by the pushes to its address, which are distinct.
  have hpaid : ∀ item ∈ w.nodes.items, claimCount item.2.manager.log h ≤
      (2 * weight (Dispatch.isFor item.1 h) w.dispatches + w.foreign.count (item.1, h)) +
        restartCount item.2.manager.log := by
    intro item hmem
    obtain ⟨t₀, moves, hmoves⟩ := hnode item hmem
    obtain ⟨ops, hops⟩ := ProveNode.run_manager hmoves
    exact claimCount_le_paid ((w.nodes.mem_items_iff item.1 item.2).1 hmem)
      (run_pushInv item.1 h hrun) (ProofManagerRun.run_countInv h hops)
  have hsum : w.claims h ≤
      2 * weight (fun item : String × ProveNode.World =>
        weight (Dispatch.isFor item.1 h) w.dispatches) w.nodes.items +
      weight (fun item : String × ProveNode.World => w.foreign.count (item.1, h))
        w.nodes.items + w.restarts := by
    refine le_trans (weight_mono hpaid) ?_
    rw [weight_add, weight_add, weight_mul]
    exact le_rfl
  have hdispatches : weight (fun item : String × ProveNode.World =>
      weight (Dispatch.isFor item.1 h) w.dispatches) w.nodes.items ≤
      weight (Dispatch.hasHash h) w.dispatches := by
    have hsplit := weight_split_le (Dispatch.hasHash h) Dispatch.http_info w.nodes.nodup
      w.dispatches
    rw [weight_map] at hsplit
    have hfor : ∀ address, Dispatch.isFor address h =
        fun x => if x.http_info = address then x.hasHash h else 0 :=
      fun address => funext (isFor_eq address h)
    simp only [hfor]
    exact hsplit
  have hforeign : weight (fun item : String × ProveNode.World => w.foreign.count (item.1, h))
      w.nodes.items ≤ w.foreignPushes h := by
    have hsplit := weight_split_le (fun f : String × String => if f.2 = h then 1 else 0) Prod.fst
      w.nodes.nodup w.foreign
    rw [weight_map] at hsplit
    simp only [count_eq_weight]
    exact hsplit
  have hstarted := (run_ticketInv h hrun).paid
  have hissued : w.issued h = weight (Ticket.isFor h) w.tickets := rfl
  omega

end Counting

theorem claims_bounded_small : smallEnd.claims smallHash = 1 ∧
    smallEnd.claims smallHash ≤
      24 * smallEnd.issued smallHash + smallEnd.foreignPushes smallHash + smallEnd.restarts :=
  ⟨by decide +kernel, (claims_bounded run_small smallHash).2⟩

end ProverNetwork.Ports.TaskNetwork
