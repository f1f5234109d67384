import ProverNetwork.Ports.OAuthModulus
import ProverNetwork.Verified.Component

/-!
# Verifications at the same time

`verify` looks for a key with the limbs of the payload, and where there is none it
fetches the keys of the provider and looks again.  It gives way to other
verifications while it fetches, and between the fetch and the second look, and all
of them share the keys.  So the keys of the second look may be those of another
verification, and a reply that was long on its way may replace newer keys.

The provider publishes what it likes, when it likes.

## Main results

* `exists_alone` — a verification by itself does what `verify` does.
* `accepted_published` — an accepted payload has the limbs of a published key.
* `published_accepted` — where a key stays published, no new payload with its limbs
  is refused.
-/

namespace ProverNetwork.Ports.KeyRefresh

open ProverNetwork.Verified
open ProverNetwork.Ports.Provider

/-! ## The reply of the provider -/

/-- `JWK(**data)`, on the decoded JSON. -/
def jwk (data : PyVal) : Except PyError Jwk :=
  match data.item? "kty", data.item? "kid", data.item? "alg", data.item? "use", data.item? "n",
    data.item? "e" with
  | some (.str kty), some (.str kid), some (.str alg), some (.str use), some (.str n),
    some (.str e) => .ok ⟨kty, kid, alg, use, n, e⟩
  | _, _, _, _, _, _ => .error .valueError

/-- `JWKS(**data)`, for the Google and the Telegram provider. -/
def jwks (data : PyVal) : Except PyError (List Jwk) :=
  match data with
  | .dict _ =>
      match data.item? "keys" with
      | some (.list items) => items.mapM jwk
      | _ => .error .valueError
  | _ => .error .typeError

/-! ## The state -/

/-- Where a verification is: its request has been sent; the reply is on its way, with
what was published; the keys are installed; or it is over. -/
inductive Phase (Body : Type)
  | fetching
  | replied (body : Body)
  | refreshed
  | ended (result : Except PyError Bool)

structure Verification (Body : Type) where
  input_data : String
  phase : Phase Body

/-- The provider object of the node, what the provider publishes and what it published
before, and the verifications since the start. -/
structure World (Body : Type) where
  provider : Provider
  current : Body
  earlier : List Body
  verifications : List (Verification Body)

/-- Everything that has been published. -/
def World.bodies {Body : Type} (w : World Body) : List Body := w.current :: w.earlier

/-- The gRPC services of a node that has just started: `build` has awaited `update_jwks` of
its providers, those of Google and X.509.  It makes none of Telegram. -/
def World.init {Body : Type} (p : Provider) (body : Body) (keys : List Jwk) : World Body :=
  ⟨{ p with jwks := some keys }, body, [], []⟩

/-- The provider publishes something else; a payload arrives, and is looked at; the
provider replies; the reply is read and its keys installed; the payload is looked at
again; or what a verification waits for raises. -/
inductive Label (Body : Type)
  | publish (body : Body)
  | verify (input_data : String)
  | reply (i : Nat)
  | install (i : Nat)
  | look (i : Nat)
  | fail (i : Nat) (e : PyError)

/-! ## The steps -/

section Steps

variable {Body : Type} (libs : Libs) (read : Body → Except PyError (List Jwk))

/-- The first look. -/
def firstPhase (p : Provider) (input_data : String) : Phase Body :=
  match verifyOnce libs p input_data with
  | .ok false => .fetching
  | result => .ended result

/-- `self.jwks = JWKS(**data)`. -/
def installed (p : Provider) (body : Body) : Provider × Phase Body :=
  match read body with
  | .ok keys => ({ p with jwks := some keys }, .refreshed)
  | .error e => (p, .ended (.error e))

/-- A step of one verification. -/
def stepOf (w : World Body) (v : Verification Body) (label : Label Body) :
    Option (Provider × Phase Body) :=
  match label, v.phase with
  | .reply _, .fetching => some (w.provider, .replied w.current)
  | .install _, .replied body => some (installed read w.provider body)
  | .look _, .refreshed => some (w.provider, .ended (verifyOnce libs w.provider v.input_data))
  | .fail _ _, .ended _ => none
  | .fail _ e, _ => some (w.provider, .ended (.error e))
  | _, _ => none

def Label.verification : Label Body → Option Nat
  | .publish _ => none
  | .verify _ => none
  | .reply i => some i
  | .install i => some i
  | .look i => some i
  | .fail i _ => some i

def World.step (w : World Body) (label : Label Body) : Option (World Body) :=
  match label with
  | .publish body => some { w with current := body, earlier := w.current :: w.earlier }
  | .verify input_data =>
      some { w with
        verifications := w.verifications ++ [⟨input_data, firstPhase libs w.provider input_data⟩] }
  | label =>
      label.verification.bind (fun i => w.verifications[i]?.bind (fun v =>
        (stepOf libs read w v label).map (fun r =>
          { w with
            provider := r.1
            verifications := w.verifications.set i { v with phase := r.2 } })))

end Steps

/-! ## What a step does -/

section Effects

variable {Body : Type} {libs : Libs} {read : Body → Except PyError (List Jwk)}
  {w w' : World Body} {label : Label Body}

/-- What a step of one verification can be. -/
inductive Move (libs : Libs) (read : Body → Except PyError (List Jwk)) (w : World Body)
    (v : Verification Body) : Provider → Phase Body → Prop
  | replied (hphase : v.phase = .fetching) : Move libs read w v w.provider (.replied w.current)
  | refreshed (body : Body) (keys : List Jwk) (hphase : v.phase = .replied body)
      (hread : read body = .ok keys) :
      Move libs read w v { w.provider with jwks := some keys } .refreshed
  | looked (hphase : v.phase = .refreshed) :
      Move libs read w v w.provider (.ended (verifyOnce libs w.provider v.input_data))
  | raised (e : PyError) : Move libs read w v w.provider (.ended (.error e))

theorem move_of_stepOf {v : Verification Body} {r : Provider × Phase Body}
    (h : stepOf libs read w v label = some r) : Move libs read w v r.1 r.2 := by
  unfold stepOf at h
  split at h
  next hphase =>
    cases h
    exact .replied hphase
  next body hphase =>
    cases h
    unfold installed
    cases hread : read body with
    | ok keys => exact .refreshed body keys hphase hread
    | error e => exact .raised e
  next hphase =>
    cases h
    exact .looked hphase
  next => cases h
  next e _ =>
    cases h
    exact .raised e
  next => cases h

/-- What a step can be. -/
inductive Effect (libs : Libs) (read : Body → Except PyError (List Jwk)) (w : World Body) :
    Label Body → World Body → Prop
  | published (body : Body) :
      Effect libs read w (.publish body) { w with current := body, earlier := w.current :: w.earlier }
  | arrived (input_data : String) :
      Effect libs read w (.verify input_data) { w with
        verifications := w.verifications ++ [⟨input_data, firstPhase libs w.provider input_data⟩] }
  | moved (label : Label Body) (i : Nat) (v : Verification Body) (p : Provider)
      (phase : Phase Body) (hv : w.verifications[i]? = some v) (hmove : Move libs read w v p phase) :
      Effect libs read w label { w with
        provider := p, verifications := w.verifications.set i { v with phase := phase } }

theorem effect_of_step (h : w.step libs read label = some w') : Effect libs read w label w' := by
  have hmoved : ∀ {l : Label Body}, l.verification.bind (fun i => w.verifications[i]?.bind
      (fun v => (stepOf libs read w v l).map (fun r =>
        { w with
          provider := r.1
          verifications := w.verifications.set i { v with phase := r.2 } }))) = some w' →
      Effect libs read w l w' := by
    intro l h
    obtain ⟨i, -, h⟩ := Option.bind_eq_some_iff.1 h
    obtain ⟨v, hv, h⟩ := Option.bind_eq_some_iff.1 h
    obtain ⟨r, hr, rfl⟩ := Option.map_eq_some_iff.1 h
    exact .moved l i v r.1 r.2 hv (move_of_stepOf hr)
  cases label with
  | publish body =>
      cases h
      exact .published body
  | verify input_data =>
      cases h
      exact .arrived input_data
  | reply i => exact hmoved h
  | install i => exact hmoved h
  | look i => exact hmoved h
  | fail i e => exact hmoved h

variable (Body libs) in
/-- A verification that the first look does not end with `True` fetches or raises. -/
theorem firstPhase_cases (p : Provider) (input_data : String) :
    (firstPhase libs p input_data : Phase Body) = .fetching ∨
      verifyOnce libs p input_data = .ok true ∧
        (firstPhase libs p input_data : Phase Body) = .ended (.ok true) ∨
      ∃ e, (firstPhase libs p input_data : Phase Body) = .ended (.error e) := by
  unfold firstPhase
  cases verifyOnce libs p input_data with
  | error e => exact Or.inr (Or.inr ⟨e, rfl⟩)
  | ok accepted =>
      cases accepted with
      | false => exact Or.inl rfl
      | true => exact Or.inr (Or.inl ⟨rfl, rfl⟩)

/-- No reply is on its way when a payload arrives. -/
theorem firstPhase_ne_replied (p : Provider) (input_data : String) (body : Body) :
    firstPhase libs p input_data ≠ .replied body := by
  intro hphase
  obtain hfirst | ⟨-, hfirst⟩ | ⟨e, hfirst⟩ := firstPhase_cases Body libs p input_data <;>
    cases hfirst.symm.trans hphase

theorem firstPhase_ne_refreshed (p : Provider) (input_data : String) :
    (firstPhase libs p input_data : Phase Body) ≠ .refreshed := by
  intro hphase
  obtain hfirst | ⟨-, hfirst⟩ | ⟨e, hfirst⟩ := firstPhase_cases Body libs p input_data <;>
    cases hfirst.symm.trans hphase

/-- The first look refuses nothing. -/
theorem firstPhase_ne_refused (p : Provider) (input_data : String) :
    (firstPhase libs p input_data : Phase Body) ≠ .ended (.ok false) := by
  intro hphase
  obtain hfirst | ⟨-, hfirst⟩ | ⟨e, hfirst⟩ := firstPhase_cases Body libs p input_data <;>
    cases hfirst.symm.trans hphase

/-- What the first look accepts, it has found. -/
theorem firstPhase_accepted {p : Provider} {input_data : String}
    (hphase : (firstPhase libs p input_data : Phase Body) = .ended (.ok true)) :
    verifyOnce libs p input_data = .ok true := by
  obtain hfirst | ⟨hlook, -⟩ | ⟨e, hfirst⟩ := firstPhase_cases Body libs p input_data
  · cases hfirst.symm.trans hphase
  · exact hlook
  · cases hfirst.symm.trans hphase

end Effects

/-! ## A verification by itself -/

section Alone

variable {Body : Type} {libs : Libs} {read : Body → Except PyError (List Jwk)}

/-- The newest verification takes a step. -/
theorem run_newest {w w' : World Body} {v : Verification Body} {label : Label Body}
    {rest : List (Label Body)} {r : Provider × Phase Body}
    (hlabel : label.verification = some w.verifications.length)
    (hr : stepOf libs read { w with verifications := w.verifications ++ [v] } v label = some r)
    (hrest : run (World.step libs read) { w with
      provider := r.1, verifications := w.verifications ++ [{ v with phase := r.2 }] } rest =
        some w') :
    run (World.step libs read) { w with verifications := w.verifications ++ [v] }
      (label :: rest) = some w' := by
  refine run_cons_eq_some.2 ⟨_, ?_, hrest⟩
  have hset : (w.verifications ++ [v]).set w.verifications.length { v with phase := r.2 } =
      w.verifications ++ [{ v with phase := r.2 }] := by
    rw [List.set_append_right _ _ (Nat.le_refl _), Nat.sub_self]
    rfl
  cases label with
  | publish body => cases hlabel
  | verify input_data => cases hlabel
  | reply i =>
      cases hlabel
      simp only [World.step, Label.verification, Option.bind_some, List.getElem?_concat_length,
        hr, Option.map_some, hset]
  | install i =>
      cases hlabel
      simp only [World.step, Label.verification, Option.bind_some, List.getElem?_concat_length,
        hr, Option.map_some, hset]
  | look i =>
      cases hlabel
      simp only [World.step, Label.verification, Option.bind_some, List.getElem?_concat_length,
        hr, Option.map_some, hset]
  | fail i e =>
      cases hlabel
      simp only [World.step, Label.verification, Option.bind_some, List.getElem?_concat_length,
        hr, Option.map_some, hset]

/-- **A verification that nothing comes between** does what `verify` does with the keys
that are published. -/
theorem exists_alone (libs : Libs) (read : Body → Except PyError (List Jwk)) (w : World Body)
    (input_data : String) :
    ∃ moves, run (World.step libs read) w (.verify input_data :: moves) = some { w with
      provider := (verify libs (read w.current) w.provider input_data).2
      verifications := w.verifications ++
        [⟨input_data, .ended (verify libs (read w.current) w.provider input_data).1⟩] } := by
  let i := w.verifications.length
  unfold verify
  cases hfirst : verifyOnce libs w.provider input_data with
  | error e =>
      refine ⟨[], run_cons_eq_some.2 ⟨_, rfl, ?_⟩⟩
      rw [firstPhase, hfirst]
      rfl
  | ok accepted =>
      cases accepted with
      | true =>
          refine ⟨[], run_cons_eq_some.2 ⟨_, rfl, ?_⟩⟩
          rw [firstPhase, hfirst]
          rfl
      | false =>
          cases hread : read w.current with
          | error e =>
              refine ⟨[.reply i, .install i], run_cons_eq_some.2 ⟨_, rfl, ?_⟩⟩
              rw [firstPhase, hfirst]
              refine run_newest rfl rfl (run_newest (w := w) rfl rfl ?_)
              rw [installed, hread]
              rfl
          | ok keys =>
              refine ⟨[.reply i, .install i, .look i], run_cons_eq_some.2 ⟨_, rfl, ?_⟩⟩
              rw [firstPhase, hfirst]
              refine run_newest rfl rfl (run_newest (w := w) rfl rfl ?_)
              rw [installed, hread]
              exact run_newest (w := { w with provider := { w.provider with jwks := some keys } })
                rfl rfl rfl

end Alone

/-! ## What is accepted -/

section Accepted

variable {Body : Type} {libs : Libs} {read : Body → Except PyError (List Jwk)} {p : Provider}
  {w w' : World Body} {label : Label Body}

/-- The payload has the limbs of a key that has been published. -/
def Published (libs : Libs) (read : Body → Except PyError (List Jwk)) (p : Provider)
    (bodies : List Body) (input_data : String) : Prop :=
  ∃ body ∈ bodies, ∃ keys, read body = .ok keys ∧ ∃ key ∈ keys, ∃ n,
    libs.publicModulus key = .ok n ∧
    modulus? libs input_data = some (.list ((p.toCircomBigintBytes n).map .str))

theorem Published.mono {bodies bodies' : List Body} {input_data : String}
    (h : Published libs read p bodies input_data) (hsub : bodies ⊆ bodies') :
    Published libs read p bodies' input_data := by
  obtain ⟨body, hbody, hkeys⟩ := h
  exact ⟨body, hsub hbody, hkeys⟩

/-- The keys of the node are those of one published body. -/
def Held (read : Body → Except PyError (List Jwk)) (p : Provider) (bodies : List Body)
    (q : Provider) : Prop :=
  ∃ keys, q = { p with jwks := some keys } ∧ ∃ body ∈ bodies, read body = .ok keys

theorem Held.published {bodies : List Body} {q : Provider} (hheld : Held read p bodies q)
    {input_data : String} (h : verifyOnce libs q input_data = .ok true) :
    Published libs read p bodies input_data := by
  obtain ⟨keys, rfl, body, hbody, hread⟩ := hheld
  obtain ⟨keys', hkeys, key, hkey, n, hn, hmodulus⟩ := verifyOnce_eq_true h
  cases hkeys
  exact ⟨body, hbody, keys, hread, key, hkey, n, hn, hmodulus⟩

structure PublishedInv (libs : Libs) (read : Body → Except PyError (List Jwk)) (p : Provider)
    (w : World Body) : Prop where
  held : Held read p w.bodies w.provider
  replies : ∀ v ∈ w.verifications, ∀ body, v.phase = .replied body → body ∈ w.bodies
  accepted : ∀ v ∈ w.verifications, v.phase = .ended (.ok true) →
    Published libs read p w.bodies v.input_data

/-- **Step lemma.** -/
theorem PublishedInv.step (hinv : PublishedInv libs read p w)
    (hstep : w.step libs read label = some w') : PublishedInv libs read p w' := by
  cases effect_of_step hstep with
  | published body =>
      have hsub : w.bodies ⊆ body :: w.bodies := List.subset_cons_self body w.bodies
      obtain ⟨keys, hformat, old, hold, hread⟩ := hinv.held
      refine ⟨⟨keys, hformat, old, hsub hold, hread⟩, ?_, ?_⟩
      · intro v hv old hreplied
        exact hsub (hinv.replies v hv old hreplied)
      · intro v hv haccepted
        exact (hinv.accepted v hv haccepted).mono hsub
  | arrived input_data =>
      refine ⟨hinv.held, ?_, ?_⟩
      · intro v hv body hreplied
        cases List.mem_append.1 hv with
        | inl hold => exact hinv.replies v hold body hreplied
        | inr hnew =>
            cases List.mem_singleton.1 hnew
            exact absurd hreplied (firstPhase_ne_replied w.provider input_data body)
      · intro v hv haccepted
        cases List.mem_append.1 hv with
        | inl hold => exact hinv.accepted v hold haccepted
        | inr hnew =>
            cases List.mem_singleton.1 hnew
            exact hinv.held.published (firstPhase_accepted haccepted)
  | moved _ i v q phase hv hmove =>
      have hmem := List.mem_of_getElem? hv
      have hheld : Held read p w.bodies q := by
        cases hmove with
        | refreshed body keys hphase hread =>
            obtain ⟨old, hformat, -⟩ := hinv.held
            refine ⟨keys, ?_, body, hinv.replies v hmem body hphase, hread⟩
            rw [hformat]
        | replied => exact hinv.held
        | looked => exact hinv.held
        | raised => exact hinv.held
      refine ⟨hheld, ?_, ?_⟩
      · intro u hu body hreplied
        cases List.mem_or_eq_of_mem_set hu with
        | inl hold => exact hinv.replies u hold body hreplied
        | inr hnew =>
            subst hnew
            cases hmove with
            | replied =>
                cases hreplied
                exact List.mem_cons_self
            | refreshed => cases hreplied
            | looked => cases hreplied
            | raised => cases hreplied
      · intro u hu haccepted
        cases List.mem_or_eq_of_mem_set hu with
        | inl hold => exact hinv.accepted u hold haccepted
        | inr hnew =>
            subst hnew
            cases hmove with
            | looked => exact hinv.held.published (Phase.ended.inj haccepted)
            | replied => cases haccepted
            | refreshed => cases haccepted
            | raised => cases haccepted

/-- **An accepted payload has the limbs of a published key**: in every run from a start,
under every order of the verifications and of what the provider publishes. -/
theorem accepted_published {body : Body} {keys : List Jwk} (hload : read body = .ok keys)
    {labels : List (Label Body)}
    (hrun : run (World.step libs read) (World.init p body keys) labels = some w)
    {v : Verification Body} (hv : v ∈ w.verifications) (haccepted : v.phase = .ended (.ok true)) :
    Published libs read p w.bodies v.input_data := by
  have hstart : PublishedInv libs read p (World.init p body keys) :=
    ⟨⟨keys, rfl, body, List.mem_cons_self, hload⟩, fun v hv => absurd hv List.not_mem_nil,
      fun v hv => absurd hv List.not_mem_nil⟩
  have hinv := run_invariant (PublishedInv libs read p) (fun _ => True)
    (fun _ _ _ _ hinv hstep => hinv.step hstep) (fun _ _ => trivial) hstart hrun
  exact hinv.accepted v hv haccepted

end Accepted

/-- A payload is the decimal text of its modulus, of which the provider takes 8 bits; the
modulus of a key is the length of its text. -/
def smallLibs : Libs where
  loads text := some (.dict [("modulus", .list [.str text])])
  publicModulus key := .ok key.n.length

def smallKey (n : Nat) : Jwk :=
  ⟨"RSA", "", "RS256", "sig", String.ofList (List.replicate n 'x'), ""⟩

/-- The decoded body with the keys of these lengths. -/
def smallBody (lengths : List Nat) : PyVal :=
  .dict [("keys", .list (lengths.map (fun n =>
    .dict [("kty", .str "RSA"), ("kid", .str ""), ("alg", .str "RS256"), ("use", .str "sig"),
      ("n", .str (smallKey n).n), ("e", .str "")])))]

theorem jwks_smallBody (lengths : List Nat) :
    jwks (smallBody lengths) = .ok (lengths.map smallKey) := by
  show List.mapM jwk (lengths.map _) = _
  induction lengths with
  | nil => rfl
  | cons n lengths ih =>
      rw [List.map_cons, List.mapM_cons, ih]
      rfl

def smallProvider : Provider := ⟨8, 1, none⟩

/-- The second key is published when the node has started. -/
def rotatedLabels : List (Label PyVal) :=
  [.publish (smallBody [3]), .verify "3", .verify "1", .reply 0, .install 0, .look 0]

def rotatedEnd : World PyVal :=
  ⟨⟨8, 1, some [smallKey 3]⟩, smallBody [3], [smallBody [1]],
    [⟨"3", .ended (.ok true)⟩, ⟨"1", .ended (.ok true)⟩]⟩

theorem run_rotated : run (World.step smallLibs jwks)
    (World.init smallProvider (smallBody [1]) [smallKey 1]) rotatedLabels = some rotatedEnd := by
  rfl

theorem accepted_published_rotated :
    Published smallLibs jwks smallProvider [smallBody [3], smallBody [1]] "3" ∧
      Published smallLibs jwks smallProvider [smallBody [3], smallBody [1]] "1" := by
  have hload : jwks (smallBody [1]) = .ok [smallKey 1] := jwks_smallBody [1]
  have hfirst : ⟨"3", .ended (.ok true)⟩ ∈ rotatedEnd.verifications := List.mem_cons_self
  have hsecond : ⟨"1", .ended (.ok true)⟩ ∈ rotatedEnd.verifications :=
    List.mem_cons_of_mem _ List.mem_cons_self
  exact ⟨accepted_published hload run_rotated hfirst rfl,
    accepted_published hload run_rotated hsecond rfl⟩

/-! ## What is refused -/

section Refused

variable {Body : Type} {libs : Libs} {read : Body → Except PyError (List Jwk)} {p : Provider}
  {limbs : PyVal} {w w' : World Body} {label : Label Body}

/-- The loop over the keys of the body, where it can be read, does not end without a match:
it comes to the limbs, or to a key that raises. -/
def Serves (libs : Libs) (read : Body → Except PyError (List Jwk)) (p : Provider) (limbs : PyVal)
    (body : Body) : Prop :=
  ∀ keys, read body = .ok keys → matchKey libs p limbs keys ≠ .ok false

/-- No verification is under way. -/
def Quiet (w : World Body) : Prop := ∀ v ∈ w.verifications, ∃ result, v.phase = .ended result

/-- What is so since a moment at which there had been `count` verifications, while all
that is published has the limbs. -/
structure Since (libs : Libs) (read : Body → Except PyError (List Jwk)) (p : Provider)
    (limbs : PyVal) (count : Nat) (w : World Body) : Prop where
  format : ∃ jwks, w.provider = { p with jwks := jwks }
  current : Serves libs read p limbs w.current
  replies : ∀ v ∈ w.verifications, ∀ body, v.phase = .replied body → Serves libs read p limbs body
  refreshed : ∀ v ∈ w.verifications, v.phase = .refreshed →
    ∃ keys, w.provider.jwks = some keys ∧ matchKey libs p limbs keys ≠ .ok false
  answers : ∀ j v, count ≤ j → w.verifications[j]? = some v →
    modulus? libs v.input_data = some limbs → v.phase ≠ .ended (.ok false)

theorem Quiet.since (hquiet : Quiet w) (hcurrent : Serves libs read w.provider limbs w.current) :
    Since libs read w.provider limbs w.verifications.length w where
  format := ⟨w.provider.jwks, rfl⟩
  current := hcurrent
  replies v hv body hreplied := by
    obtain ⟨result, hended⟩ := hquiet v hv
    cases hended.symm.trans hreplied
  refreshed v hv hrefreshed := by
    obtain ⟨result, hended⟩ := hquiet v hv
    cases hended.symm.trans hrefreshed
  answers j v hj hv := by
    rw [List.getElem?_eq_none hj] at hv
    cases hv

/-- A second look at such keys does not refuse. -/
theorem Since.not_refused {count : Nat} (hinv : Since libs read p limbs count w)
    {v : Verification Body} (hv : v ∈ w.verifications) (hphase : v.phase = .refreshed)
    (hmodulus : modulus? libs v.input_data = some limbs) :
    verifyOnce libs w.provider v.input_data ≠ .ok false := by
  obtain ⟨keys, hkeys, hmatch⟩ := hinv.refreshed v hv hphase
  obtain ⟨jwks, hformat⟩ := hinv.format
  rw [verifyOnce_some hmodulus hkeys, hformat, matchKey_refreshed]
  exact hmatch

/-- **Step lemma.** -/
theorem Since.step {count : Nat} (hinv : Since libs read p limbs count w)
    (hserves : ∀ body, label = .publish body → Serves libs read p limbs body)
    (hstep : w.step libs read label = some w') : Since libs read p limbs count w' := by
  cases effect_of_step hstep with
  | published body =>
      exact ⟨hinv.format, hserves body rfl, hinv.replies, hinv.refreshed, hinv.answers⟩
  | arrived input_data =>
      refine ⟨hinv.format, hinv.current, ?_, ?_, ?_⟩
      · intro v hv body hreplied
        cases List.mem_append.1 hv with
        | inl hold => exact hinv.replies v hold body hreplied
        | inr hnew =>
            cases List.mem_singleton.1 hnew
            exact absurd hreplied (firstPhase_ne_replied w.provider input_data body)
      · intro v hv hrefreshed
        cases List.mem_append.1 hv with
        | inl hold => exact hinv.refreshed v hold hrefreshed
        | inr hnew =>
            cases List.mem_singleton.1 hnew
            exact absurd hrefreshed (firstPhase_ne_refreshed w.provider input_data)
      · intro j v hj hv hmodulus
        obtain hold | ⟨-, rfl⟩ := getElem?_concat_cases hv
        · exact hinv.answers j v hj hold hmodulus
        · exact firstPhase_ne_refused w.provider input_data
  | moved _ i v q phase hv hmove =>
      have hmem := List.mem_of_getElem? hv
      -- whoever installs keys installs some with the limbs
      have hkeys : ∀ u ∈ w.verifications, u.phase = .refreshed →
          ∃ keys, q.jwks = some keys ∧ matchKey libs p limbs keys ≠ .ok false := by
        intro u hu hrefreshed
        cases hmove with
        | refreshed body keys hphase hread =>
            exact ⟨keys, rfl, hinv.replies v hmem body hphase keys hread⟩
        | replied => exact hinv.refreshed u hu hrefreshed
        | looked => exact hinv.refreshed u hu hrefreshed
        | raised => exact hinv.refreshed u hu hrefreshed
      refine ⟨?_, hinv.current, ?_, ?_, ?_⟩
      · obtain ⟨jwks, hformat⟩ := hinv.format
        cases hmove with
        | refreshed body keys hphase hread =>
            rw [hformat]
            exact ⟨some keys, rfl⟩
        | replied => exact ⟨jwks, hformat⟩
        | looked => exact ⟨jwks, hformat⟩
        | raised => exact ⟨jwks, hformat⟩
      · intro u hu body hreplied
        cases List.mem_or_eq_of_mem_set hu with
        | inl hold => exact hinv.replies u hold body hreplied
        | inr hnew =>
            subst hnew
            cases hmove with
            | replied =>
                cases hreplied
                exact hinv.current
            | refreshed => cases hreplied
            | looked => cases hreplied
            | raised => cases hreplied
      · intro u hu hrefreshed
        cases List.mem_or_eq_of_mem_set hu with
        | inl hold => exact hkeys u hold hrefreshed
        | inr hnew =>
            subst hnew
            cases hmove with
            | refreshed body keys hphase hread =>
                exact ⟨keys, rfl, hinv.replies v hmem body hphase keys hread⟩
            | replied => cases hrefreshed
            | looked => cases hrefreshed
            | raised => cases hrefreshed
      · intro j u hj hu hmodulus hrefused
        obtain ⟨-, rfl⟩ | ⟨-, hold⟩ := getElem?_set_cases hu
        · cases hmove with
          | looked hphase =>
              exact hinv.not_refused hmem hphase hmodulus (Phase.ended.inj hrefused)
          | replied => cases hrefused
          | refreshed => cases hrefused
          | raised => cases hrefused
        · exact hinv.answers j u hj hold hmodulus hrefused

/-- **Where a key stays published, no new payload with its limbs is refused**: from any
state in which no verification is under way, as long as all that is published has a key
with the limbs, each verification of such a payload that arrives afterwards and returns
accepts, in every order of the verifications, whoever's keys it looks at. -/
theorem published_accepted (hquiet : Quiet w)
    (hcurrent : Serves libs read w.provider limbs w.current) {labels : List (Label Body)}
    (hserves : ∀ body, .publish body ∈ labels → Serves libs read w.provider limbs body)
    (hrun : run (World.step libs read) w labels = some w') {j : Nat} {v : Verification Body}
    (hnew : w.verifications.length ≤ j) (hv : w'.verifications[j]? = some v)
    (hmodulus : modulus? libs v.input_data = some limbs) {accepted : Bool}
    (hended : v.phase = .ended (.ok accepted)) : accepted = true := by
  have hinv : Since libs read w.provider limbs w.verifications.length w' := by
    refine run_invariant (Since libs read w.provider limbs w.verifications.length)
      (fun label => ∀ body, label = .publish body → Serves libs read w.provider limbs body)
      (fun _ _ _ hserves hinv hstep => hinv.step hserves hstep) ?_ (hquiet.since hcurrent) hrun
    rintro label hlabel body rfl
    exact hserves body hlabel
  cases accepted with
  | true => rfl
  | false => exact absurd hended (hinv.answers j v hnew hv hmodulus)

end Refused

theorem serves_smallBody {p : Provider} {limbs : PyVal} (lengths : List Nat)
    (h : matchKey smallLibs p limbs (lengths.map smallKey) ≠ .ok false) :
    Serves smallLibs jwks p limbs (smallBody lengths) := by
  intro keys hkeys
  rw [← Except.ok.inj ((jwks_smallBody lengths).symm.trans hkeys)]
  exact h

/-- The node holds the first key only, and both are published. -/
def quietStart : World PyVal := ⟨⟨8, 1, some [smallKey 1]⟩, smallBody [1, 3], [], []⟩

/-- The reply to the second verification is installed between those of the first. -/
def crossedLabels : List (Label PyVal) :=
  [.verify "3", .verify "9", .reply 1, .publish (smallBody [3]), .reply 0, .install 0,
    .install 1, .look 0]

def crossedEnd : World PyVal :=
  ⟨⟨8, 1, some [smallKey 1, smallKey 3]⟩, smallBody [3], [smallBody [1, 3]],
    [⟨"3", .ended (.ok true)⟩, ⟨"9", .refreshed⟩]⟩

theorem run_crossed :
    run (World.step smallLibs jwks) quietStart crossedLabels = some crossedEnd := by
  rfl

theorem published_accepted_crossed :
    ∃ v accepted, crossedEnd.verifications[0]? = some v ∧ v.phase = .ended (.ok accepted) ∧
      accepted = true := by
  refine ⟨_, true, rfl, rfl, ?_⟩
  refine published_accepted (w := quietStart) (fun v hv => absurd hv List.not_mem_nil)
    (serves_smallBody [1, 3] (by decide +kernel)) ?_ run_crossed (Nat.zero_le 0)
    rfl rfl rfl
  intro body hbody
  simp only [crossedLabels, List.mem_cons, Label.publish.injEq, reduceCtorEq, false_or,
    List.not_mem_nil, or_false] at hbody
  rw [hbody]
  exact serves_smallBody [3] (by decide +kernel)

end ProverNetwork.Ports.KeyRefresh
