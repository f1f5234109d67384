import ProverNetwork.Ports.PyVal

/-!
# The OAuth providers of the node

A provider accepts a payload whose `modulus` is the limb list of a key it
holds; where no key matches it refreshes its keys once and looks again.  The
Google, X.509 and Telegram providers differ in how a refresh reads the reply,
so the refreshed keys are an argument.  The resolver binds some circuit
templates to a provider.

## Main results

* `verify_eq_true` — an accepted payload carries the limbs of a held key.
* `verify_ok_iff` — when `verify` returns at all.
-/

namespace ProverNetwork.Ports

open ProverNetwork.Verified

structure Jwk where
  kty : String
  kid : String
  alg : String
  use : String
  n : String
  e : String
  deriving DecidableEq

/-- The libraries behind the providers: `ujson.loads`, `none` where it raises,
and the modulus of `_jwk_to_rsa_public_key`. -/
structure Libs where
  loads : String → Option PyVal
  publicModulus : Jwk → Except PyError Nat

/-- A provider with the keys it holds; none before the first refresh. -/
structure Provider where
  circom_bigint_n : Nat
  circom_bigint_k : Nat
  jwks : Option (List Jwk)

namespace Provider

/-- `_to_circom_bigint_bytes`.  `str` takes every limb of a width below 14285 bits; the
providers use 121. -/
def toCircomBigintBytes (p : Provider) (num : Nat) : List String :=
  let msk := (1 <<< p.circom_bigint_n) - 1
  (List.range p.circom_bigint_k).map (fun i =>
    toString ((num >>> (i * p.circom_bigint_n)) &&& msk))

/-- The loop over the keys. -/
def matchKey (libs : Libs) (p : Provider) (input_bigint_bytes : PyVal) :
    List Jwk → Except PyError Bool
  | [] => .ok false
  | key :: keys =>
      match libs.publicModulus key with
      | .error e => .error e
      | .ok n =>
          if input_bigint_bytes.eqStrList (p.toCircomBigintBytes n) then .ok true
          else matchKey libs p input_bigint_bytes keys

/-- `_verify`.  What goes wrong while the payload is read is a refusal; keys
that were never loaded are an `AttributeError`. -/
def verifyOnce (libs : Libs) (p : Provider) (input_data : String) : Except PyError Bool :=
  match (libs.loads input_data).bind (fun v => v.item? "modulus") with
  | none => .ok false
  | some input_bigint_bytes =>
      match p.jwks with
      | none => .error .attributeError
      | some keys => matchKey libs p input_bigint_bytes keys

/-- `verify`, with the outcome of the refresh it may need. -/
def verify (libs : Libs) (refresh : Except PyError (List Jwk)) (p : Provider)
    (input_data : String) : Except PyError Bool × Provider :=
  match verifyOnce libs p input_data with
  | .error e => (.error e, p)
  | .ok true => (.ok true, p)
  | .ok false =>
      match refresh with
      | .error e => (.error e, p)
      | .ok keys =>
          let p := { p with jwks := some keys }
          (verifyOnce libs p input_data, p)

theorem matchKey_eq_true {libs : Libs} {p : Provider} {limbs : PyVal} {keys : List Jwk}
    (h : matchKey libs p limbs keys = .ok true) :
    ∃ key ∈ keys, ∃ n, libs.publicModulus key = .ok n ∧
      limbs = .list ((p.toCircomBigintBytes n).map .str) := by
  induction keys with
  | nil => cases h
  | cons key keys ih =>
      unfold matchKey at h
      cases hn : libs.publicModulus key with
      | error e => simp [hn] at h
      | ok n =>
          simp only [hn] at h
          split at h
          case isTrue heq =>
            refine ⟨key, List.mem_cons_self, n, hn, ?_⟩
            cases limbs with
            | list xs => rw [(PyVal.eqStrs_iff xs _).1 heq]
            | _ => cases heq
          case isFalse =>
            obtain ⟨key', hmem, hmatch⟩ := ih h
            exact ⟨key', List.mem_cons_of_mem key hmem, hmatch⟩

theorem verifyOnce_eq_true {libs : Libs} {p : Provider} {input_data : String}
    (h : verifyOnce libs p input_data = .ok true) :
    ∃ keys, p.jwks = some keys ∧ ∃ key ∈ keys, ∃ n, libs.publicModulus key = .ok n ∧
      (libs.loads input_data).bind (fun v => v.item? "modulus") =
        some (.list ((p.toCircomBigintBytes n).map .str)) := by
  unfold verifyOnce at h
  cases hlimbs : (libs.loads input_data).bind (fun v => v.item? "modulus") with
  | none => simp [hlimbs] at h
  | some limbs =>
      simp only [hlimbs] at h
      cases hkeys : p.jwks with
      | none => simp [hkeys] at h
      | some keys =>
          simp only [hkeys] at h
          obtain ⟨key, hmem, n, hn, rfl⟩ := matchKey_eq_true h
          exact ⟨keys, rfl, key, hmem, n, hn, rfl⟩

/-- **An accepted payload carries the limbs of a held key**, held when the
decision was made. -/
theorem verify_eq_true {libs : Libs} {refresh : Except PyError (List Jwk)}
    {p p' : Provider} {input_data : String}
    (h : verify libs refresh p input_data = (.ok true, p')) :
    ∃ keys, p'.jwks = some keys ∧ ∃ key ∈ keys, ∃ n, libs.publicModulus key = .ok n ∧
      (libs.loads input_data).bind (fun v => v.item? "modulus") =
        some (.list ((p'.toCircomBigintBytes n).map .str)) := by
  unfold verify at h
  cases hfirst : verifyOnce libs p input_data with
  | error e => simp [hfirst] at h
  | ok accepted =>
      cases accepted with
      | true =>
          simp only [hfirst, Prod.mk.injEq, true_and] at h
          rw [← h]
          exact verifyOnce_eq_true hfirst
      | false =>
          cases refresh with
          | error e => simp [hfirst] at h
          | ok keys =>
              simp only [hfirst, Prod.mk.injEq] at h
              rw [← h.2]
              exact verifyOnce_eq_true h.1

/-! ## When `verify` returns -/

/-- The member `modulus` of a payload, where it can be read. -/
def modulus? (libs : Libs) (input_data : String) : Option PyVal :=
  (libs.loads input_data).bind (fun v => v.item? "modulus")

/-- One of the keys has the given limbs. -/
def Matched (libs : Libs) (p : Provider) (limbs : PyVal) (keys : List Jwk) : Prop :=
  ∃ key ∈ keys, ∃ n, libs.publicModulus key = .ok n ∧
    limbs.eqStrList (p.toCircomBigintBytes n) = true

/-- The keys up to the first match can be converted. -/
def Convertible (libs : Libs) (p : Provider) (limbs : PyVal) : List Jwk → Prop
  | [] => True
  | key :: keys => ∃ n, libs.publicModulus key = .ok n ∧
      (limbs.eqStrList (p.toCircomBigintBytes n) = false → Convertible libs p limbs keys)

theorem matchKey_ok_iff {libs : Libs} {p : Provider} {limbs : PyVal} {keys : List Jwk} :
    (∃ b, matchKey libs p limbs keys = .ok b) ↔ Convertible libs p limbs keys := by
  induction keys with
  | nil => simp [matchKey, Convertible]
  | cons key keys ih =>
      unfold matchKey Convertible
      cases hn : libs.publicModulus key with
      | error e => simp
      | ok n => cases heq : limbs.eqStrList (p.toCircomBigintBytes n) <;> simp [heq, ih]

theorem matchKey_true_iff {libs : Libs} {p : Provider} {limbs : PyVal} {keys : List Jwk}
    (h : Convertible libs p limbs keys) :
    matchKey libs p limbs keys = .ok true ↔ Matched libs p limbs keys := by
  induction keys with
  | nil => simp [matchKey, Matched]
  | cons key keys ih =>
      obtain ⟨n, hn, hrest⟩ := h
      unfold matchKey Matched
      cases heq : limbs.eqStrList (p.toCircomBigintBytes n) with
      | true => simp [hn, heq]
      | false =>
          have hkeys := ih (hrest heq)
          unfold Matched at hkeys
          simp [hn, heq, hkeys]

/-- What `verify` needs to return: keys that are there and can be converted, and a
refresh that succeeds where they have no match. -/
def Answers (libs : Libs) (refresh : Except PyError (List Jwk)) (p : Provider)
    (input_data : String) : Prop :=
  match modulus? libs input_data with
  | none => ∃ keys, refresh = .ok keys
  | some limbs => ∃ held, p.jwks = some held ∧ Convertible libs p limbs held ∧
      (¬Matched libs p limbs held →
        ∃ keys, refresh = .ok keys ∧ Convertible libs p limbs keys)

/-- The payload has the limbs of a held key or of a refreshed one. -/
def Accepts (libs : Libs) (refresh : Except PyError (List Jwk)) (p : Provider)
    (input_data : String) : Prop :=
  ∃ limbs, modulus? libs input_data = some limbs ∧
    ((∃ held, p.jwks = some held ∧ Matched libs p limbs held) ∨
      ∃ keys, refresh = .ok keys ∧ Matched libs p limbs keys)

theorem verifyOnce_some {libs : Libs} {p : Provider} {input_data : String} {limbs : PyVal}
    {keys : List Jwk} (h : modulus? libs input_data = some limbs) (hkeys : p.jwks = some keys) :
    verifyOnce libs p input_data = matchKey libs p limbs keys := by
  unfold modulus? at h
  simp only [verifyOnce, h, hkeys]

theorem matchKey_of_not_matched {libs : Libs} {p : Provider} {limbs : PyVal} {keys : List Jwk}
    (h : Convertible libs p limbs keys) (hnot : ¬Matched libs p limbs keys) :
    matchKey libs p limbs keys = .ok false := by
  obtain ⟨b, hb⟩ := matchKey_ok_iff.2 h
  cases b with
  | false => exact hb
  | true => exact absurd ((matchKey_true_iff h).1 hb) hnot

/-- The loop reads the limb format of the provider and not its keys. -/
theorem matchKey_refreshed (libs : Libs) (p : Provider) (jwks : Option (List Jwk))
    (limbs : PyVal) (keys : List Jwk) :
    matchKey libs { p with jwks := jwks } limbs keys = matchKey libs p limbs keys := by
  induction keys with
  | nil => rfl
  | cons key keys ih =>
      simp only [matchKey, ih]
      rfl

section Verify

variable {libs : Libs} {refresh : Except PyError (List Jwk)} {p : Provider}
  {input_data : String} {limbs : PyVal} {held : List Jwk}

theorem verify_unread (h : modulus? libs input_data = none) :
    (verify libs refresh p input_data).1 = refresh.map (fun _ => false) := by
  unfold modulus? at h
  cases refresh <;> simp [verify, verifyOnce, h, Except.map]

theorem verify_unloaded (h : modulus? libs input_data = some limbs) (hnone : p.jwks = none) :
    (verify libs refresh p input_data).1 = .error .attributeError := by
  unfold modulus? at h
  simp [verify, verifyOnce, h, hnone]

theorem verify_raises {e : PyError} (h : modulus? libs input_data = some limbs)
    (hheld : p.jwks = some held) (hraise : matchKey libs p limbs held = .error e) :
    (verify libs refresh p input_data).1 = .error e := by
  simp only [verify, verifyOnce_some h hheld, hraise]

theorem verify_held (h : modulus? libs input_data = some limbs) (hheld : p.jwks = some held)
    (hmatch : matchKey libs p limbs held = .ok true) :
    (verify libs refresh p input_data).1 = .ok true := by
  simp only [verify, verifyOnce_some h hheld, hmatch]

/-- Where the held keys have no match, the refreshed ones decide. -/
theorem verify_refreshed (h : modulus? libs input_data = some limbs)
    (hheld : p.jwks = some held) (hmatch : matchKey libs p limbs held = .ok false) :
    (verify libs refresh p input_data).1 =
      refresh.bind (fun keys => matchKey libs p limbs keys) := by
  simp only [verify, verifyOnce_some h hheld, hmatch]
  cases refresh with
  | error e => rfl
  | ok keys =>
      simp only [Except.bind]
      rw [verifyOnce_some h rfl, matchKey_refreshed]

/-- **When `verify` returns.** -/
theorem verify_ok_iff : (∃ b, (verify libs refresh p input_data).1 = .ok b) ↔
    Answers libs refresh p input_data := by
  unfold Answers
  cases h : modulus? libs input_data with
  | none => cases refresh <;> simp [verify_unread h, Except.map]
  | some limbs =>
      cases hheld : p.jwks with
      | none => simp [verify_unloaded h hheld]
      | some held =>
          cases hfirst : matchKey libs p limbs held with
          | error e =>
              have hnot : ¬Convertible libs p limbs held := by
                simp [← matchKey_ok_iff, hfirst]
              simp [verify_raises h hheld hfirst, hnot]
          | ok b =>
              have hconv := matchKey_ok_iff.1 ⟨b, hfirst⟩
              have hmatch := matchKey_true_iff hconv
              cases b with
              | true => simp [verify_held h hheld hfirst, hconv, hmatch.1 hfirst]
              | false =>
                  have hnot : ¬Matched libs p limbs held := by simp [← hmatch, hfirst]
                  cases refresh with
                  | error e => simp [verify_refreshed h hheld hfirst, hnot, Except.bind]
                  | ok keys =>
                      rw [verify_refreshed h hheld hfirst]
                      simp only [Except.bind, matchKey_ok_iff]
                      simp [hconv, hnot]

/-- A `verify` that returns `True` accepts, and one that returns and accepts
returns `True`. -/
theorem verify_true_iff (hanswers : Answers libs refresh p input_data) :
    (verify libs refresh p input_data).1 = .ok true ↔ Accepts libs refresh p input_data := by
  unfold Answers at hanswers
  unfold Accepts
  cases h : modulus? libs input_data with
  | none => cases refresh <;> simp [verify_unread h, Except.map]
  | some limbs =>
      simp only [h] at hanswers
      obtain ⟨held, hheld, hconv, hrefresh⟩ := hanswers
      by_cases hmatch : Matched libs p limbs held
      · simp [verify_held h hheld ((matchKey_true_iff hconv).2 hmatch), hheld, hmatch]
      · obtain ⟨keys, rfl, hkeys⟩ := hrefresh hmatch
        have hfirst := matchKey_of_not_matched hconv hmatch
        simp [verify_refreshed h hheld hfirst, hheld, hmatch, Except.bind,
          matchKey_true_iff hkeys]

end Verify

end Provider

/-- `OAuthProviderResolver.resolve_provider`, on the loaded configuration. -/
def resolveProvider (template_provider_map : PyVal) (template_id : String) :
    Except PyError PyVal :=
  match template_provider_map with
  | .dict members =>
      match Dict.lookup template_id members with
      | some (.str name) => .ok (.str name)
      | some (.dict info) =>
          if info.isEmpty then .ok .none
          else .ok ((Dict.lookup "provider" info).getD .none)
      | _ => .ok .none
  | _ => .error .attributeError

/-- The resolver binds the template to the provider. -/
def Binds (template_provider_map : PyVal) (template_id name : String) : Prop :=
  resolveProvider template_provider_map template_id = .ok (.str name) ∧ name ≠ ""

end ProverNetwork.Ports
