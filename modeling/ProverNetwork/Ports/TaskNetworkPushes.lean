import ProverNetwork.Ports.TaskNetworkTruth

/-!
# What the hub learns of a push

The status that a node answers to a push says what the node has done, and it stays
true: histories only grow.  The answer may come back to a push that is long over, or
get lost; but a push that ends with a status ends with the one its node sent.

## Main results

* `run_toldInv` — every status, on the way and at the hub, says what the node did.
* `push_reported` — what the result of a push means.
* `claims_issued` — a claim is of a hash that was sent to the node.
-/

namespace ProverNetwork.Ports.TaskNetwork

open ProverNetwork.Verified
open ProverNetwork.Ports
open ProverNetwork.Ports.GetNode
open ProverNetwork.Ports.PushTask
open ProverNetwork.Ports.ProofManagerRun (Event pushCount restartCount)

/-! ## Histories only grow -/

theorem log_of_manager_step {verify : String → String → Bool} {m m' : ProofManagerRun.World}
    {op : ProofManagerRun.Op} (hstep : m.step verify op = some m') : m.log ⊆ m'.log := by
  cases ProofManagerRun.effect_of_step hstep with
  | accepted h signature => exact List.subset_cons_self _ _
  | claimed h e => exact List.subset_cons_self _ _
  | shrunk => exact List.Subset.refl _
  | crashed => exact List.Subset.refl _
  | restarted choice => exact List.subset_cons_self _ _
  | advanced d => exact List.Subset.refl _

/-- Each node afterwards was there before, with a part of its history. -/
def Grown (nodes nodes' : Dict String ProveNode.World) : Prop :=
  ∀ address v', nodes'.get? address = some v' →
    ∃ v, nodes.get? address = some v ∧ v.manager.log ⊆ v'.manager.log

theorem Grown.refl (nodes : Dict String ProveNode.World) : Grown nodes nodes :=
  fun _ v hv => ⟨v, hv, List.Subset.refl _⟩

theorem Grown.set {nodes : Dict String ProveNode.World} {a : String} {v v' : ProveNode.World}
    (hv : nodes.get? a = some v) (hlog : v.manager.log ⊆ v'.manager.log) :
    Grown nodes (nodes.set a v') := by
  intro address u hu
  rw [Dict.get?_set] at hu
  split at hu
  next ha =>
    cases hu
    exact ⟨v, ha ▸ hv, hlog⟩
  next => exact ⟨u, hu, List.Subset.refl _⟩

/-! ## What a status says -/

/-- A 200 says that the push was accepted, and a 400 to a signed push that the hash has
been claimed. -/
structure Told (verify : String → String → Bool) (log : List Event) (h signature : String)
    (n : Nat) : Prop where
  accepted : n = 200 → ∃ t, .pushed h signature t ∈ log
  refused : n = 400 → verify h signature = true → ∃ t, .claimed h t ∈ log

theorem Told.mono {verify : String → String → Bool} {log log' : List Event}
    {h signature : String} {n : Nat} (htold : Told verify log h signature n)
    (hsub : log ⊆ log') : Told verify log' h signature n where
  accepted := fun hn => by
    obtain ⟨t, ht⟩ := htold.accepted hn
    exact ⟨t, hsub ht⟩
  refused := fun hn hverify => by
    obtain ⟨t, ht⟩ := htold.refused hn hverify
    exact ⟨t, hsub ht⟩

theorem told_unreadable (verify : String → String → Bool) (log : List Event)
    (h signature : String) : Told verify log h signature 500 :=
  ⟨fun hn => (by cases hn), fun hn => (by cases hn)⟩

/-- A push is refused with one status only. -/
theorem statusOf_error {verify : String → String → Bool} {pm : ProofManager} {now : ℚ}
    {h signature : String} {e : HTTPException}
    (hrefused : (pushTask verify pm now h signature).1 = .error e) :
    statusOf (pushTask verify pm now h signature).1 = 400 := by
  rw [hrefused]
  unfold pushTask at hrefused
  dsimp only at hrefused
  split at hrefused
  next =>
    cases hrefused
    rfl
  next =>
    split at hrefused
    next =>
      cases hrefused
      rfl
    next => cases hrefused

/-- A task cache with a run of its own. -/
def Ran (verify : String → String → Bool) (m : ProofManagerRun.World) : Prop :=
  ∃ (t₀ : ℚ) (ops : List ProofManagerRun.Op),
    run (ProofManagerRun.World.step verify) (ProofManagerRun.World.initial t₀) ops = some m

/-- **The status of a push says what the push did.** -/
theorem told_pushed {verify : String → String → Bool} {m : ProofManagerRun.World}
    {pm : ProofManager} (hran : Ran verify m) (hpm : m.process = some pm) (h signature : String) :
    Told verify (m.push verify pm h signature).log h signature
      (statusOf (pushTask verify pm m.now h signature).1) := by
  cases hres : (pushTask verify pm m.now h signature).1 with
  | ok r =>
      refine ⟨fun _ => ⟨m.now, ?_⟩, fun hn => (by cases hn)⟩
      have hpair : pushTask verify pm m.now h signature =
          (.ok r, (pushTask verify pm m.now h signature).2) := Prod.ext hres rfl
      rw [ProofManagerRun.World.push, hpair]
      exact List.mem_cons_self
  | error e =>
      have hstatus := statusOf_error hres
      rw [hres] at hstatus
      rw [hstatus]
      refine ⟨fun hn => (by cases hn), fun _ hverify => ?_⟩
      obtain ⟨t₀, ops, hops⟩ := hran
      obtain ⟨t, ht, -⟩ := ProofManagerRun.refused_push_claimed hops hpm hverify hres
      have hpair : pushTask verify pm m.now h signature =
          (.error e, (pushTask verify pm m.now h signature).2) := Prod.ext hres rfl
      refine ⟨t, ?_⟩
      rw [ProofManagerRun.World.push, hpair]
      exact ht

theorem push_log (verify : String → String → Bool) (m : ProofManagerRun.World) (pm : ProofManager)
    (h signature : String) : m.log ⊆ (m.push verify pm h signature).log := by
  unfold ProofManagerRun.World.push
  split
  next => exact List.subset_cons_self _ _
  next => exact List.Subset.refl _

section Telling

variable {ι Ip Net Pub Priv : Type} [DecidableEq ι] {s : Setup Ip Net Pub Priv}

/-- The history of a node only grows. -/
theorem log_of_node_step {verify : String → String → Bool} {v v' : ProveNode.World}
    {l : ProveNode.Label Pub Priv} (hstep : v.step verify l = some v') :
    v.manager.log ⊆ v'.manager.log := by
  cases ProveNode.effect_of_node_step hstep with
  | moved kill hmove => exact log_of_manager_step hmove
  | claimed endpoint r hmove => exact log_of_manager_step hmove
  | served => exact List.Subset.refl _
  | reported => exact List.Subset.refl _
  | cancelled => exact List.Subset.refl _

theorem grown_of_effect {w w' : World ι Pub Priv} (heff : Effect s w w') :
    Grown w.nodes w'.nodes := by
  cases heff with
  | delivered c x v pm hget hopen hv hpm => exact .set hv (push_log _ _ _ _ _)
  | foreign a h signature v pm hv hpm => exact .set hv (push_log _ _ _ _ _)
  | node a v v' l hv hmove _ => exact .set hv (log_of_node_step hmove)
  | _ => exact .refl _

/-- What is known at the address of a push. -/
def ToldAt (s : Setup Ip Net Pub Priv) (nodes : Dict String ProveNode.World)
    (address h signature : String) (n : Nat) : Prop :=
  ∀ v, nodes.get? address = some v → Told s.verify v.manager.log h signature n

theorem ToldAt.mono {nodes nodes' : Dict String ProveNode.World} {address h signature : String}
    {n : Nat} (htold : ToldAt s nodes address h signature n) (hgrown : Grown nodes nodes') :
    ToldAt s nodes' address h signature n := by
  intro v' hv'
  obtain ⟨v, hv, hlog⟩ := hgrown address v' hv'
  exact (htold v hv).mono hlog

/-- The push that a connection belongs to. -/
def Linked (dispatches : List Dispatch) (x : Connection) : Prop :=
  ∃ y, dispatches[x.dispatch]? = some y ∧ y.http_info = x.http_info ∧
    y.proof_hash = x.proof_hash ∧ y.signature = x.signature

/-- A result is true, and its status is what the node sent. -/
def Reported (s : Setup Ip Net Pub Priv) (nodes : Dict String ProveNode.World) (x : Dispatch) :
    Prop :=
  ∀ r, x.phase = .returned r → Truthful r ∧
    ∀ n, r.status = some n → ToldAt s nodes x.http_info x.proof_hash x.signature n

/-- Every connection belongs to a push, every status says what the node did, and every
result is a true one. -/
structure ToldInv (s : Setup Ip Net Pub Priv) (w : World ι Pub Priv) : Prop where
  linked : ∀ x ∈ w.connections, Linked w.dispatches x
  answers : ∀ x ∈ w.connections, ∀ n, x.status = some n →
    ToldAt s w.nodes x.http_info x.proof_hash x.signature n
  results : ∀ x ∈ w.dispatches, Reported s w.nodes x

theorem Linked.append {dispatches : List Dispatch} {x : Connection}
    (hx : Linked dispatches x) (new : List Dispatch) : Linked (dispatches ++ new) x := by
  obtain ⟨y, hget, hrest⟩ := hx
  have hlt := (List.getElem?_eq_some_iff.1 hget).1
  exact ⟨y, by rw [List.getElem?_append_left hlt, hget], hrest⟩

/-- A push whose phase changes keeps its connections. -/
theorem Linked.inPhase {dispatches : List Dispatch} {x : Connection} (hx : Linked dispatches x)
    {d : Nat} {y : Dispatch} (hy : dispatches[d]? = some y) (phase : Phase) :
    Linked (dispatches.set d (y.inPhase phase)) x := by
  obtain ⟨z, hget, hrest⟩ := hx
  unfold Linked
  rw [List.getElem?_set]
  by_cases hd : d = x.dispatch
  · subst hd
    cases hy.symm.trans hget
    have hlt := (List.getElem?_eq_some_iff.1 hget).1
    exact ⟨y.inPhase phase, by rw [if_pos rfl, if_pos hlt], hrest⟩
  · exact ⟨z, by rw [if_neg hd, hget], hrest⟩

theorem linked_connection {dispatches : List Dispatch} {d : Nat} {y : Dispatch}
    (hy : dispatches[d]? = some y) (attempt : Nat) : Linked dispatches (y.connection d attempt) :=
  ⟨y, hy, rfl, rfl, rfl⟩

theorem Reported.mono {nodes nodes' : Dict String ProveNode.World} {x : Dispatch}
    (hx : Reported s nodes x) (hgrown : Grown nodes nodes') : Reported s nodes' x :=
  fun r hr => ⟨(hx r hr).1, fun n hn => ((hx r hr).2 n hn).mono hgrown⟩

/-- The end of a post makes a true result, given what is known of its status. -/
theorem reported_settles {nodes : Dict String ProveNode.World} {x : Dispatch} {o : PostOutcome}
    (hopen : ∀ r, x.phase ≠ .returned r)
    (hstatus : ∀ n, o = .status n →
      ToldAt s nodes x.http_info x.proof_hash x.signature n) (lower : String → String) :
    Reported s nodes (x.inPhase (x.phase.settles lower o)) := by
  intro r hr
  obtain ⟨htruthful, hsame, -⟩ := settles_spec lower hopen hr
  exact ⟨htruthful, fun n hn => hstatus n ((hsame n).1 hn)⟩

theorem reported_of_waiting {nodes : Dict String ProveNode.World} {x : Dispatch} {phase : Phase}
    (hphase : ∀ r, phase ≠ .returned r) : Reported s nodes (x.inPhase phase) :=
  fun r hr => absurd hr (hphase r)

omit [DecidableEq ι] in
/-- A push is in another phase, and may have a new connection. -/
theorem ToldInv.inPhase {w : World ι Pub Priv} (hinv : ToldInv s w) {d : Nat} {x : Dispatch}
    (hget : w.dispatches[d]? = some x) {phase : Phase}
    (hphase : Reported s w.nodes (x.inPhase phase)) {connections : List Connection}
    (hconnections : ∀ y ∈ connections, y ∈ w.connections ∨ ∃ attempt, y = x.connection d attempt) :
    ToldInv s { w with
      dispatches := w.dispatches.set d (x.inPhase phase)
      connections := connections } := by
  refine ⟨?_, ?_, ?_⟩
  · intro y hy
    cases hconnections y hy with
    | inl hold => exact (hinv.linked y hold).inPhase hget phase
    | inr hnew =>
        obtain ⟨attempt, rfl⟩ := hnew
        exact (linked_connection hget attempt).inPhase hget phase
  · intro y hy n hn
    cases hconnections y hy with
    | inl hold => exact hinv.answers y hold n hn
    | inr hnew =>
        obtain ⟨attempt, rfl⟩ := hnew
        cases hn
  · intro y hy
    cases List.mem_or_eq_of_mem_set hy with
    | inl hold => exact hinv.results y hold
    | inr heq =>
        subst heq
        exact hphase

theorem mem_connections_append {connections : List Connection} {x : Dispatch} {d attempt : Nat} :
    ∀ y ∈ connections ++ [x.connection d attempt],
      y ∈ connections ∨ ∃ attempt, y = x.connection d attempt := by
  intro y hy
  cases List.mem_append.1 hy with
  | inl hold => exact Or.inl hold
  | inr hnew => exact Or.inr ⟨attempt, List.mem_singleton.1 hnew⟩

/-- A push that waits has not returned. -/
theorem not_returned_of_awaits {phase : Phase} {attempt : Nat}
    (h : phase.awaits attempt = true) (r : PushResult) : phase ≠ .returned r := by
  intro heq
  rw [heq] at h
  cases h

/-- **Step lemma.** -/
theorem ToldInv.of_effect {w w' : World ι Pub Priv} (hinv : ToldInv s w)
    (hran : ∀ address v, w.nodes.get? address = some v → Ran s.verify v.manager)
    (heff : Effect s w w') : ToldInv s w' := by
  have hgrown := grown_of_effect heff
  cases heff with
  | hub => exact ⟨hinv.linked, hinv.answers, hinv.results⟩
  | issued => exact ⟨hinv.linked, hinv.answers, hinv.results⟩
  | selected => exact ⟨hinv.linked, hinv.answers, hinv.results⟩
  | gathered i t raw_nodes outcomes hget hstage =>
      refine ⟨fun x hx => (hinv.linked x hx).append _, hinv.answers, ?_⟩
      intro x hx
      cases List.mem_append.1 hx with
      | inl hold => exact hinv.results x hold
      | inr hnew =>
          obtain ⟨raw, -, rfl⟩ := mem_dispatchOf hnew
          exact fun r hr => by cases hr
  | posted d x hget hphase =>
      exact hinv.inPhase hget (reported_of_waiting (fun r h => by cases h)) mem_connections_append
  | reposted d x hget hphase =>
      exact hinv.inPhase hget (reported_of_waiting (fun r h => by cases h)) mem_connections_append
  | failed d x e hget hopen =>
      exact hinv.inPhase hget (reported_settles hopen (fun n hn => by cases hn) _)
        (fun y hy => Or.inl hy)
  | answered c x y n hget hstatus hdispatch hawaits =>
      have hx := List.mem_of_getElem? hget
      obtain ⟨z, hz, hhttp, hhash, hsignature⟩ := hinv.linked x hx
      cases hdispatch.symm.trans hz
      have htold := hinv.answers x hx n hstatus
      rw [← hhttp, ← hhash, ← hsignature] at htold
      refine hinv.inPhase hdispatch (reported_settles (not_returned_of_awaits hawaits) ?_ _)
        (fun y hy => Or.inl (List.mem_of_mem_eraseIdx hy))
      intro n' hn'
      cases hn'
      exact htold
  | quiet connections hquiet =>
      refine ⟨?_, ?_, hinv.results⟩
      · intro x hx
        cases hquiet.source x hx with
        | inl hold => exact hinv.linked x hold
        | inr hnew =>
            obtain ⟨y, hy, heq, -⟩ := hnew
            rw [heq]
            exact hinv.linked y hy
      · intro x hx n hn
        cases hquiet.source x hx with
        | inl hold => exact hinv.answers x hold n hn
        | inr hnew =>
            obtain ⟨y, hy, heq, hsource⟩ := hnew
            intro v hv
            cases hsource with
            | inl hnode =>
                dsimp only at hv
                rw [hnode] at hv
                cases hv
            | inr hunreadable =>
                cases hn.symm.trans hunreadable
                exact told_unreadable _ _ _ _
  | delivered c x v pm hget hopen hv hpm =>
      have hx := List.mem_of_getElem? hget
      refine ⟨?_, ?_, fun y hy => (hinv.results y hy).mono hgrown⟩
      · intro y hy
        cases List.mem_or_eq_of_mem_set hy with
        | inl hold => exact hinv.linked y hold
        | inr heq =>
            rw [heq]
            exact hinv.linked x hx
      · intro y hy n hn
        cases List.mem_or_eq_of_mem_set hy with
        | inl hold => exact (hinv.answers y hold n hn).mono hgrown
        | inr heq =>
            rw [heq] at hn ⊢
            cases hn
            intro u hu
            dsimp only at hu
            rw [Dict.get?_set_self, Option.some.injEq] at hu
            subst hu
            exact told_pushed (hran x.http_info v hv) hpm x.proof_hash x.signature
  | foreign a h signature v pm hv hpm =>
      exact ⟨hinv.linked, fun y hy n hn => (hinv.answers y hy n hn).mono hgrown,
        fun y hy => (hinv.results y hy).mono hgrown⟩
  | node a v v' l hv hmove hl =>
      exact ⟨hinv.linked, fun y hy n hn => (hinv.answers y hy n hn).mono hgrown,
        fun y hy => (hinv.results y hy).mono hgrown⟩

theorem run_ran {clocks : List (String × ℚ)} {labels : List (Label ι Pub Priv)}
    {w : World ι Pub Priv} (hrun : run (World.step s) (World.initial clocks) labels = some w)
    {address : String} {v : ProveNode.World} (hv : w.nodes.get? address = some v) :
    Ran s.verify v.manager := by
  obtain ⟨t₀, moves, hmoves⟩ := run_node hrun hv
  obtain ⟨ops, hops⟩ := ProveNode.run_manager hmoves
  exact ⟨t₀, ops, hops⟩

/-- **Run lemma.** -/
theorem run_toldInv {clocks : List (String × ℚ)} {labels : List (Label ι Pub Priv)}
    {w : World ι Pub Priv} (hrun : run (World.step s) (World.initial clocks) labels = some w) :
    ToldInv s w :=
  run_invariant_using
    (fun w => ∀ address v, w.nodes.get? address = some v → Ran s.verify v.manager) (ToldInv s)
    (fun _ _ hv _ _ hget => run_ran hv hget)
    (fun _ _ _ hran hinv hstep => hinv.of_effect hran (effect_of_step hstep))
    ⟨fun _ h => (by cases h), fun _ h => (by cases h), fun _ h => (by cases h)⟩ hrun

/-- What the hub signs, the nodes accept. -/
def Signs (s : Setup Ip Net Pub Priv) : Prop :=
  ∀ salt message signature, s.sign salt message = some signature →
    s.verify message signature = true

omit [DecidableEq ι] in
/-- A pair of keys has that property. -/
theorem signs_of_pair {pss : Signing Pub Priv} (e e' : RSAEncryption Pub Priv) {pub : Pub}
    {priv : Priv} (hpriv : e.private_key = some priv) (hpub : e'.public_key = some pub)
    (hpair : RSAEncryption.SigningPair pss pub priv)
    (hsign : s.sign = fun salt message => (e.sign pss salt message).toOption)
    (hverify : s.verify = e'.verify pss) : Signs s := by
  intro salt message signature hsigned
  rw [hsign] at hsigned
  dsimp only at hsigned
  rw [hverify]
  cases hres : e.sign pss salt message with
  | error err =>
      rw [hres] at hsigned
      cases hsigned
  | ok signature' =>
      rw [hres] at hsigned
      cases hsigned
      exact RSAEncryption.verify_sign hpriv hpub hpair hres

/-- **What the result of a push means**, for a push to the address of a node, in every
run: a success that the node accepted the hash, a refusal that the hash has been
claimed there, and the members of the result agree with each other. -/
theorem push_reported {clocks : List (String × ℚ)} {labels : List (Label ι Pub Priv)}
    {w : World ι Pub Priv} (hsigns : Signs s)
    (hrun : run (World.step s) (World.initial clocks) labels = some w) {x : Dispatch}
    {r : PushResult} (hx : x ∈ w.dispatches) (hr : x.phase = .returned r) {v : ProveNode.World}
    (hv : w.nodes.get? x.http_info = some v) :
    Truthful r ∧
      (r.success = true → ∃ t, .pushed x.proof_hash x.signature t ∈ v.manager.log) ∧
      (r.status = some 400 → ∃ t, .claimed x.proof_hash t ∈ v.manager.log) := by
  obtain ⟨htruthful, htold⟩ := (run_toldInv hrun).results x hx r hr
  have hledger := run_ledgerInv hrun
  obtain ⟨t, hget, hhash, hsignature⟩ := (hledger.belongs x hx).ticket
  obtain ⟨salt, hsalt⟩ := hledger.signed t (List.mem_of_getElem? hget)
  rw [hhash, hsignature] at hsalt
  refine ⟨htruthful, fun hsuccess => ?_, fun hstatus => ?_⟩
  · exact (htold 200 (htruthful.success_iff.1 hsuccess) v hv).accepted rfl
  · exact (htold 400 hstatus v hv).refused rfl (hsigns salt _ _ hsalt)

/-! ## Whose hashes the nodes work on -/

/-- A push to the address carried the hash and the signature, or somebody else pushed
the hash there. -/
def Sent (w : World ι Pub Priv) (address h signature : String) : Prop :=
  (∃ x ∈ w.dispatches, x.http_info = address ∧ x.proof_hash = h ∧ x.signature = signature) ∨
    (address, h) ∈ w.foreign

/-- Everything that a node accepted was sent to it. -/
def SentInv (w : World ι Pub Priv) : Prop :=
  ∀ address v h signature t, w.nodes.get? address = some v →
    .pushed h signature t ∈ v.manager.log → Sent w address h signature

omit [DecidableEq ι] in
/-- A push in another phase was sent as before. -/
theorem Sent.inPhase {w : World ι Pub Priv} {address h signature : String}
    (hsent : Sent w address h signature) {d : Nat} {x : Dispatch}
    (hget : w.dispatches[d]? = some x) (phase : Phase) (connections : List Connection) :
    Sent { w with
      dispatches := w.dispatches.set d (x.inPhase phase)
      connections := connections } address h signature := by
  cases hsent with
  | inr hforeign => exact Or.inr hforeign
  | inl hdispatch =>
      obtain ⟨y, hy, hrest⟩ := hdispatch
      obtain ⟨j, hj⟩ := List.mem_iff_getElem?.1 hy
      refine Or.inl ?_
      by_cases hjd : d = j
      · subst hjd
        cases hget.symm.trans hj
        have hlt := (List.getElem?_eq_some_iff.1 hget).1
        exact ⟨x.inPhase phase, List.mem_set hlt _, hrest⟩
      · refine ⟨y, List.mem_iff_getElem?.2 ⟨j, ?_⟩, hrest⟩
        rw [List.getElem?_set, if_neg hjd, hj]

/-- What a push adds to the history is the push itself. -/
theorem pushed_of_push {verify : String → String → Bool} {m : ProofManagerRun.World}
    {pm : ProofManager} {h' signature' h signature : String} {t : ℚ}
    (hmem : .pushed h signature t ∈ (m.push verify pm h' signature').log) :
    .pushed h signature t ∈ m.log ∨ h = h' ∧ signature = signature' := by
  unfold ProofManagerRun.World.push at hmem
  split at hmem
  next =>
    cases List.mem_cons.1 hmem with
    | inl heq =>
        cases heq
        exact Or.inr ⟨rfl, rfl⟩
    | inr hold => exact Or.inl hold
  next => exact Or.inl hmem

/-- Only a push adds a push to the history. -/
theorem pushed_of_manager_step {verify : String → String → Bool} {m m' : ProofManagerRun.World}
    {op : ProofManagerRun.Op} (hop : ∀ h signature, op ≠ .pushTask h signature)
    (hstep : m.step verify op = some m') {h signature : String} {t : ℚ}
    (hmem : .pushed h signature t ∈ m'.log) : .pushed h signature t ∈ m.log := by
  cases ProofManagerRun.effect_of_step hstep with
  | accepted h' signature' => exact absurd rfl (hop h' signature')
  | claimed h' e => exact List.mem_of_ne_of_mem (fun heq => by cases heq) hmem
  | shrunk => exact hmem
  | crashed => exact hmem
  | restarted choice => exact List.mem_of_ne_of_mem (fun heq => by cases heq) hmem
  | advanced d => exact hmem

theorem pushed_of_node_step {verify : String → String → Bool} {v v' : ProveNode.World}
    {l : ProveNode.Label Pub Priv} (hl : ∀ h signature, l ≠ .manager (.pushTask h signature))
    (hstep : v.step verify l = some v') {h signature : String} {t : ℚ}
    (hmem : .pushed h signature t ∈ v'.manager.log) : .pushed h signature t ∈ v.manager.log := by
  cases manager_of_node_step hl hstep with
  | inl hsame => exact hsame ▸ hmem
  | inr hmove =>
      obtain ⟨op, hop, hm⟩ := hmove
      exact pushed_of_manager_step hop hm hmem

omit [DecidableEq ι] in
/-- After a change at one address, what is new there was sent and the rest is as before. -/
theorem SentInv.set {w w' : World ι Pub Priv} (hinv : SentInv w)
    (hkept : ∀ address h signature, Sent w address h signature → Sent w' address h signature)
    {a : String} {v v' : ProveNode.World} (hv : w.nodes.get? a = some v)
    (hnodes : w'.nodes = w.nodes.set a v')
    (hnew : ∀ h signature t, .pushed h signature t ∈ v'.manager.log →
      .pushed h signature t ∈ v.manager.log ∨ Sent w' a h signature) : SentInv w' := by
  intro address u h signature t hu hmem
  rw [hnodes, Dict.get?_set] at hu
  split at hu
  next ha =>
    cases hu
    subst ha
    cases hnew h signature t hmem with
    | inl hold => exact hkept _ _ _ (hinv address v h signature t hv hold)
    | inr hsent => exact hsent
  next => exact hkept _ _ _ (hinv address u h signature t hu hmem)

/-- **Step lemma.** -/
theorem SentInv.of_effect {w w' : World ι Pub Priv} (hinv : SentInv w) (htold : ToldInv s w)
    (heff : Effect s w w') : SentInv w' := by
  cases heff with
  | hub => exact hinv
  | issued => exact hinv
  | selected => exact hinv
  | gathered i t raw_nodes outcomes hget hstage =>
      intro address v h signature t' hv hmem
      cases hinv address v h signature t' hv hmem with
      | inl hdispatch =>
          obtain ⟨x, hx, hrest⟩ := hdispatch
          exact Or.inl ⟨x, List.mem_append_left _ hx, hrest⟩
      | inr hforeign => exact Or.inr hforeign
  | posted d x hget hphase =>
      exact fun address v h signature t hv hmem =>
        (hinv address v h signature t hv hmem).inPhase hget .posted _
  | reposted d x hget hphase =>
      exact fun address v h signature t hv hmem =>
        (hinv address v h signature t hv hmem).inPhase hget .reposted _
  | failed d x e hget hopen =>
      exact fun address v h signature t hv hmem =>
        (hinv address v h signature t hv hmem).inPhase hget _ w.connections
  | answered c x y n hget hstatus hdispatch hawaits =>
      exact fun address v h signature t hv hmem =>
        (hinv address v h signature t hv hmem).inPhase hdispatch _ _
  | quiet => exact hinv
  | delivered c x v pm hget hopen hv hpm =>
      refine hinv.set (fun _ _ _ hsent => hsent) hv rfl (fun h signature t hmem => ?_)
      cases pushed_of_push hmem with
      | inl hold => exact Or.inl hold
      | inr heq =>
          obtain ⟨y, hy, hhttp, hhash, hsignature⟩ := htold.linked x (List.mem_of_getElem? hget)
          exact Or.inr (Or.inl ⟨y, List.mem_of_getElem? hy, hhttp, hhash.trans heq.1.symm,
            hsignature.trans heq.2.symm⟩)
  | foreign a h' signature' v pm hv hpm =>
      refine hinv.set ?_ hv rfl (fun h signature t hmem => ?_)
      · intro address h signature hsent
        cases hsent with
        | inl hdispatch => exact Or.inl hdispatch
        | inr hforeign => exact Or.inr (List.mem_cons_of_mem _ hforeign)
      · cases pushed_of_push hmem with
        | inl hold => exact Or.inl hold
        | inr heq =>
            rw [heq.1]
            exact Or.inr (Or.inr List.mem_cons_self)
  | node a v v' l hv hmove hl =>
      exact hinv.set (fun _ _ _ hsent => hsent) hv rfl
        (fun h signature t hmem => Or.inl (pushed_of_node_step hl hmove hmem))

/-- **Run lemma.** -/
theorem run_sentInv {clocks : List (String × ℚ)} {labels : List (Label ι Pub Priv)}
    {w : World ι Pub Priv} (hrun : run (World.step s) (World.initial clocks) labels = some w) :
    SentInv w := by
  refine run_invariant_using (ToldInv s) SentInv (fun _ _ hv => run_toldInv hv)
    (fun _ _ _ htold hinv hstep => hinv.of_effect htold (effect_of_step hstep)) ?_ hrun
  intro address v h signature t hv hmem
  obtain ⟨now, rfl⟩ := initial_nodes hv
  cases hmem

/-- **A claim is of a hash that was sent to the node**, in every run.  A signed push of
it was accepted less than sixty seconds before; and unless others pushed the hash to
that node, the push was one of the hub, for a request that was given the hash. -/
theorem claims_issued {clocks : List (String × ℚ)} {labels : List (Label ι Pub Priv)}
    {w : World ι Pub Priv} (hrun : run (World.step s) (World.initial clocks) labels = some w)
    {address h : String} {v : ProveNode.World} {t : ℚ} (hv : w.nodes.get? address = some v)
    (hclaim : .claimed h t ∈ v.manager.log) :
    ∃ signature t', .pushed h signature t' ∈ v.manager.log ∧ s.verify h signature = true ∧
      t' ≤ t ∧ t < t' + 60 ∧
      ((address, h) ∈ w.foreign ∨
        ∃ x ∈ w.dispatches, x.http_info = address ∧ x.proof_hash = h ∧
          x.signature = signature ∧ Belongs s w.tickets x ∧
          ∃ salt, s.sign salt h = some signature) := by
  obtain ⟨t₀, moves, hmoves⟩ := run_node hrun hv
  obtain ⟨ops, hops⟩ := ProveNode.run_manager hmoves
  obtain ⟨signature, t', hpushed, hverify, hle, hlt⟩ :=
    ProofManagerRun.run_claimsBacked hops h t hclaim
  refine ⟨signature, t', hpushed, hverify, hle, hlt, ?_⟩
  cases run_sentInv hrun address v h signature t' hv hpushed with
  | inr hforeign => exact Or.inl hforeign
  | inl hdispatch =>
      obtain ⟨x, hx, hhttp, hhash, hsignature⟩ := hdispatch
      have hledger := run_ledgerInv hrun
      have hbelongs := hledger.belongs x hx
      obtain ⟨ticket, hget, hthash, htsignature⟩ := hbelongs.ticket
      have hsigned := hledger.signed ticket (List.mem_of_getElem? hget)
      rw [hthash, htsignature, hhash, hsignature] at hsigned
      exact Or.inr ⟨x, hx, hhttp, hhash, hsignature, hbelongs, hsigned⟩

end Telling

theorem smallSetup_signs : Signs smallSetup :=
  signs_of_pair (s := smallSetup) NodeRegister.smallKey NodeRegister.smallKey rfl rfl
    (fun _ _ _ h => decide_eq_true (Option.some.inj h).symm) rfl rfl

theorem push_reported_small : ∃ x ∈ smallEnd.dispatches, ∃ v,
    smallEnd.nodes.get? x.http_info = some v ∧
      ∃ t, .pushed x.proof_hash x.signature t ∈ v.manager.log := by
  have hreturned : smallEnd.dispatches.any (fun x => x.phase = .returned (answered 0 false 200) ∧
      (smallEnd.nodes.get? x.http_info).isSome = true) = true := by
    decide +kernel
  obtain ⟨x, hx, hphase⟩ := List.any_eq_true.1 hreturned
  obtain ⟨hr, hnode⟩ := of_decide_eq_true hphase
  obtain ⟨v, hv⟩ := Option.isSome_iff_exists.1 hnode
  exact ⟨x, hx, v, hv, (push_reported smallSetup_signs run_small hx hr hv).2.1 (by decide)⟩

theorem claims_issued_small : ∃ v, smallEnd.nodes.get? smallAddress = some v ∧
    .claimed smallHash 0 ∈ v.manager.log ∧
      ∃ signature t, .pushed smallHash signature t ∈ v.manager.log ∧ t ≤ 0 ∧ 0 < t + 60 := by
  have hclaimed : (smallEnd.nodes.get? smallAddress).any (fun v =>
      Event.claimed smallHash 0 ∈ v.manager.log) = true := by
    decide +kernel
  rw [Option.any_eq_true] at hclaimed
  obtain ⟨v, hv, hclaim⟩ := hclaimed
  have hmem := of_decide_eq_true hclaim
  obtain ⟨signature, t, hpushed, -, hle, hlt, -⟩ := claims_issued run_small hv hmem
  exact ⟨v, hv, hmem, signature, t, hpushed, hle, hlt⟩

end ProverNetwork.Ports.TaskNetwork
