import ProverNetwork.Ports.X509Google
import ProverNetwork.Verified.Decimal
import ProverNetwork.Verified.FixedDigits

/-!
# What an accepted modulus says

A provider compares the limbs in a payload with those of its keys.  Limbs of a
fixed number and width hold a modulus up to a bound; of a larger one they keep
the low part.

## Main results

* `eqStrList_iff` — which limb lists match a key.
* `verify_modulus` — what `verify` returns, by the number that the limbs of the
  payload stand for.
* `long_modulus_accepted` — a key that is longer than the limbs.
-/

namespace ProverNetwork.Ports

open ProverNetwork.Verified

namespace Provider

/-- The limbs are canonical decimal strings, of the provider's number and width. -/
structure Limbs (p : Provider) (modulus : PyVal) (limbs : List Nat) : Prop where
  texts : modulus = .list (limbs.map (fun limb => .str (toString limb)))
  length : limbs.length = p.circom_bigint_k
  bounded : ∀ limb ∈ limbs, limb < 2 ^ p.circom_bigint_n

/-- `sum(limb * 2 ** (circom_bigint_n * i) for i, limb in enumerate(limbs))`. -/
def limbSum (p : Provider) (limbs : List Nat) : Nat :=
  (limbs.zipIdx.map (fun l => l.1 * 2 ^ (p.circom_bigint_n * l.2))).sum

/-- What the limbs of the provider can hold. -/
def capacity (p : Provider) : Nat := 2 ^ (p.circom_bigint_n * p.circom_bigint_k)

theorem limbSum_eq (p : Provider) (limbs : List Nat) :
    p.limbSum limbs = Nat.ofDigits (2 ^ p.circom_bigint_n) limbs := by
  have hshifted : ∀ (l : List Nat) (i : Nat),
      ((l.zipIdx i).map (fun l => l.1 * 2 ^ (p.circom_bigint_n * l.2))).sum =
        2 ^ (p.circom_bigint_n * i) * Nat.ofDigits (2 ^ p.circom_bigint_n) l := by
    intro l
    induction l with
    | nil =>
        intro i
        rfl
    | cons limb l ih =>
        intro i
        rw [List.zipIdx_cons, List.map_cons, List.sum_cons, ih, Nat.ofDigits_cons, Nat.mul_succ,
          Nat.pow_add]
        ring
  rw [limbSum, hshifted, Nat.mul_zero, Nat.pow_zero, Nat.one_mul]

theorem toCircomBigintBytes_eq (p : Provider) (num : Nat) :
    p.toCircomBigintBytes num =
      (fixedDigits (2 ^ p.circom_bigint_n) p.circom_bigint_k num).map toString := by
  rw [← map_shift_eq_fixedDigits, List.map_map, toCircomBigintBytes, Nat.one_shiftLeft]
  rfl

theorem toString_nat_injective : Function.Injective (toString : Nat → String) := by
  intro m n h
  exact natRepr_inj (congrArg String.toList h)

/-- **The limb lists that match a key** stand for the modulus, up to what the
limbs can hold. -/
theorem eqStrList_iff (p : Provider) (modulus : PyVal) (num : Nat) :
    modulus.eqStrList (p.toCircomBigintBytes num) = true ↔
      ∃ limbs, p.Limbs modulus limbs ∧ p.limbSum limbs = num % p.capacity := by
  have hbase : 0 < 2 ^ p.circom_bigint_n := Nat.two_pow_pos _
  have heq : modulus.eqStrList (p.toCircomBigintBytes num) = true ↔
      modulus = .list ((p.toCircomBigintBytes num).map .str) := by
    cases modulus with
    | list xs =>
        rw [PyVal.list.injEq]
        exact PyVal.eqStrs_iff xs _
    | _ => exact ⟨fun h => (by cases h), fun h => (by cases h)⟩
  rw [heq, toCircomBigintBytes_eq, List.map_map]
  constructor
  · intro hmodulus
    obtain ⟨hlength, hbounded, hvalue⟩ := (fixedDigits_eq_iff hbase).1
      (rfl : fixedDigits (2 ^ p.circom_bigint_n) p.circom_bigint_k num = _)
    refine ⟨_, ⟨hmodulus, hlength, hbounded⟩, ?_⟩
    rw [limbSum_eq, capacity, Nat.pow_mul]
    exact hvalue
  · rintro ⟨limbs, ⟨htexts, hlength, hbounded⟩, hsum⟩
    rw [limbSum_eq, capacity, Nat.pow_mul] at hsum
    rw [htexts, (fixedDigits_eq_iff hbase).2 ⟨hlength, hbounded, hsum⟩]
    rfl

/-- The limbs of a payload determine its numbers. -/
theorem Limbs.unique {p : Provider} {modulus : PyVal} {limbs limbs' : List Nat}
    (h : p.Limbs modulus limbs) (h' : p.Limbs modulus limbs') : limbs = limbs' := by
  have hlist := PyVal.list.inj (h.texts.symm.trans h'.texts)
  refine List.map_injective_iff.2 (fun m n hmn => ?_) hlist
  exact toString_nat_injective (PyVal.str.inj hmn)

theorem verify_of_matchKey {libs : Libs} {refresh : Except PyError (List Jwk)} {p : Provider}
    {input_data : String} {modulus : PyVal} {held : List Jwk}
    (h : modulus? libs input_data = some modulus) (hheld : p.jwks = some held)
    (hmatch : matchKey libs p modulus held = .ok true) :
    verify libs refresh p input_data = (.ok true, p) := by
  simp only [verify, verifyOnce_some h hheld, hmatch]

/-- All the keys are RSA keys. -/
def AllRsa (libs : Libs) (keys : List Jwk) : Prop :=
  ∀ key ∈ keys, ∃ num, libs.publicModulus key = .ok num

theorem convertible_of_allRsa {libs : Libs} {p : Provider} {modulus : PyVal} {keys : List Jwk}
    (h : AllRsa libs keys) : Convertible libs p modulus keys := by
  induction keys with
  | nil => trivial
  | cons key keys ih =>
      obtain ⟨num, hnum⟩ := h key List.mem_cons_self
      exact ⟨num, hnum, fun _ => ih (fun k hk => h k (List.mem_cons_of_mem key hk))⟩

/-- The limbs stand for the modulus of one of the keys, up to what they can hold. -/
def StandsForKey (libs : Libs) (p : Provider) (limbs : List Nat) (keys : List Jwk) : Prop :=
  ∃ key ∈ keys, ∃ num, libs.publicModulus key = .ok num ∧ p.limbSum limbs = num % p.capacity

theorem matched_iff {libs : Libs} {p : Provider} {modulus : PyVal} {limbs : List Nat}
    (hlimbs : p.Limbs modulus limbs) (keys : List Jwk) :
    Matched libs p modulus keys ↔ StandsForKey libs p limbs keys := by
  constructor
  · rintro ⟨key, hmem, num, hnum, heq⟩
    obtain ⟨limbs', hlimbs', hsum⟩ := (eqStrList_iff p modulus num).1 heq
    exact ⟨key, hmem, num, hnum, hlimbs.unique hlimbs' ▸ hsum⟩
  · rintro ⟨key, hmem, num, hnum, hsum⟩
    exact ⟨key, hmem, num, hnum, (eqStrList_iff p modulus num).2 ⟨limbs, hlimbs, hsum⟩⟩

/-- A `verify` leaves the limb format of the provider. -/
theorem verify_format {libs : Libs} {refresh : Except PyError (List Jwk)} {p p' : Provider}
    {input_data : String} {r : Except PyError Bool}
    (h : verify libs refresh p input_data = (r, p')) : ∃ jwks, p' = { p with jwks := jwks } := by
  unfold verify at h
  cases hfirst : verifyOnce libs p input_data with
  | error e =>
      rw [hfirst] at h
      exact ⟨p.jwks, (congrArg Prod.snd h).symm⟩
  | ok accepted =>
      rw [hfirst] at h
      cases accepted with
      | true => exact ⟨p.jwks, (congrArg Prod.snd h).symm⟩
      | false =>
          cases refresh with
          | error e => exact ⟨p.jwks, (congrArg Prod.snd h).symm⟩
          | ok keys => exact ⟨some keys, (congrArg Prod.snd h).symm⟩

/-- **Modulus acceptance is exact up to what the limbs can hold.**  An accepted
payload has limbs in the provider's format that stand for the modulus of a key
held at the decision, reduced by the capacity of the limbs; and a payload whose
limbs stand for that of a held or a refreshed key is accepted. -/
theorem verify_modulus {libs : Libs} {refresh : Except PyError (List Jwk)} {p : Provider}
    {held : List Jwk} (hheld : p.jwks = some held) (hrsa : AllRsa libs held)
    (hrefresh : ∀ keys, refresh = .ok keys → AllRsa libs keys) (input_data : String) :
    (∀ p', verify libs refresh p input_data = (.ok true, p') →
      ∃ modulus limbs keys, modulus? libs input_data = some modulus ∧ p.Limbs modulus limbs ∧
        p'.jwks = some keys ∧ StandsForKey libs p limbs keys) ∧
    ∀ modulus limbs, modulus? libs input_data = some modulus → p.Limbs modulus limbs →
      (StandsForKey libs p limbs held ∨
        ∃ keys, refresh = .ok keys ∧ StandsForKey libs p limbs keys) →
      (verify libs refresh p input_data).1 = .ok true := by
  constructor
  · intro p' hverify
    obtain ⟨jwks, hformat⟩ := verify_format hverify
    obtain ⟨keys, hkeys, key, hmem, num, hnum, hmodulus⟩ := verify_eq_true hverify
    have hsame : p'.toCircomBigintBytes num = p.toCircomBigintBytes num := by rw [hformat]; rfl
    rw [hsame] at hmodulus
    have heq : (PyVal.list ((p.toCircomBigintBytes num).map .str)).eqStrList
        (p.toCircomBigintBytes num) = true := (PyVal.eqStrs_iff _ _).2 rfl
    obtain ⟨limbs, hlimbs, hsum⟩ := (eqStrList_iff p _ num).1 heq
    exact ⟨_, limbs, keys, hmodulus, hlimbs, hkeys, key, hmem, num, hnum, hsum⟩
  · intro modulus limbs hmodulus hlimbs hkey
    have hheldConvertible : Convertible libs p modulus held := convertible_of_allRsa hrsa
    by_cases hmatched : Matched libs p modulus held
    · exact verify_held hmodulus hheld ((matchKey_true_iff hheldConvertible).2 hmatched)
    · rcases hkey with hkey | ⟨keys, rfl, hkey⟩
      · exact absurd ((matched_iff hlimbs held).2 hkey) hmatched
      · rw [verify_refreshed hmodulus hheld (matchKey_of_not_matched hheldConvertible hmatched)]
        show matchKey libs p modulus keys = .ok true
        exact (matchKey_true_iff (convertible_of_allRsa (hrefresh keys rfl))).2
          ((matched_iff hlimbs keys).2 hkey)

/-! ## Two keys -/

/-- `ujson.loads` on the payload with the given limbs, and the RSA keys. -/
def payload (limbs : List Nat) : String :=
  "\x7b\"modulus\": [" ++
    ", ".intercalate (limbs.map (fun limb => "\"" ++ toString limb ++ "\"")) ++ "]\x7d"

def payloadValue (limbs : List Nat) : PyVal :=
  .list (limbs.map (fun limb => .str (toString limb)))

def payloadLibs (limbs : List Nat) : Libs where
  loads text :=
    if text = payload limbs then some (.dict [("modulus", payloadValue limbs)]) else none
  publicModulus jwk := (jwkToRsaPublicKey X509Google.checkedRsa jwk).map (fun key => key.1.n)

theorem modulus?_payload (limbs : List Nat) :
    modulus? (payloadLibs limbs) (payload limbs) = some (payloadValue limbs) := by
  have hloads : (payloadLibs limbs).loads (payload limbs) =
      some (.dict [("modulus", payloadValue limbs)]) := if_pos rfl
  rw [modulus?, hloads]
  rfl

theorem publicModulus_rsaJwk (limbs : List Nat) (fingerprint : List UInt8)
    (key : {numbers : RSAPublicNumbers // X509Google.Checked numbers}) :
    (payloadLibs limbs).publicModulus (X509Google.rsaJwk fingerprint key.1) = .ok key.1.n := by
  have hkey : X509Google.checkedRsa.public_key key.1 = .ok key := dif_pos key.2
  simp only [payloadLibs]
  rw [X509Google.jwkToRsaPublicKey_rsaJwk, hkey]
  rfl

/-- A provider of the default format that holds one key. -/
def holding (fingerprint : List UInt8)
    (key : {numbers : RSAPublicNumbers // X509Google.Checked numbers}) : Provider :=
  ⟨121, 17, some [X509Google.rsaJwk fingerprint key.1]⟩

/-- The limbs of a key of 1024 bits are accepted. -/
theorem rsaKey_accepted :
    (verify (payloadLibs (fixedDigits (2 ^ 121) 17 X509Google.rsaKey.1.n))
      (.error (.clientError "")) (holding X509Google.rsaFingerprint X509Google.rsaKey)
      (payload (fixedDigits (2 ^ 121) 17 X509Google.rsaKey.1.n))).1 = .ok true := by
  have hmodulus := publicModulus_rsaJwk (fixedDigits (2 ^ 121) 17 X509Google.rsaKey.1.n)
    X509Google.rsaFingerprint X509Google.rsaKey
  refine (verify_modulus (p := holding X509Google.rsaFingerprint X509Google.rsaKey) rfl
    ?_ (fun keys h => by cases h) _).2 _ (fixedDigits (2 ^ 121) 17 X509Google.rsaKey.1.n)
    (modulus?_payload _) ⟨rfl, length_fixedDigits _ _ _, fixedDigits_lt (Nat.two_pow_pos _) _ _⟩
    (.inl ⟨_, List.mem_singleton_self _, _, hmodulus, ?_⟩)
  · intro key hmem
    rw [List.mem_singleton.1 hmem]
    exact ⟨_, hmodulus⟩
  · rw [limbSum_eq, capacity, Nat.pow_mul]
    exact ofDigits_fixedDigits _ _ _

/-- A key of 4484 bits; both factors of its modulus are prime. -/
def longKey : {numbers : RSAPublicNumbers // X509Google.Checked numbers} :=
  ⟨⟨65537, (2 ^ 2203 - 1) * (2 ^ 2281 - 1)⟩, by decide +kernel⟩

/-- The limbs of the number one. -/
def oneLimbs : List Nat := 1 :: List.replicate 16 0

/-- **A modulus that is longer than the limbs**: the payload of the number one is
accepted for the key. -/
theorem long_modulus_accepted :
    verify (payloadLibs oneLimbs) (.error (.clientError "")) (holding [] longKey)
        (payload oneLimbs) = (.ok true, holding [] longKey) ∧
      modulus? (payloadLibs oneLimbs) (payload oneLimbs) = some (payloadValue oneLimbs) ∧
      (holding [] longKey).Limbs (payloadValue oneLimbs) oneLimbs ∧
      ∀ keys, (holding [] longKey).jwks = some keys → ∀ key ∈ keys,
        ∀ num, (payloadLibs oneLimbs).publicModulus key = .ok num →
          (holding [] longKey).limbSum oneLimbs ≠ num := by
  have hmodulus := publicModulus_rsaJwk oneLimbs [] longKey
  have hlimbs : (holding [] longKey).Limbs (payloadValue oneLimbs) oneLimbs :=
    ⟨rfl, rfl, by decide +kernel⟩
  have hone : (holding [] longKey).limbSum oneLimbs = 1 := by decide +kernel
  have hmatched : Matched (payloadLibs oneLimbs) (holding [] longKey) (payloadValue oneLimbs)
      [X509Google.rsaJwk [] longKey.1] := by
    refine (matched_iff hlimbs _).2 ⟨_, List.mem_singleton_self _, _, hmodulus, ?_⟩
    rw [hone]
    decide +kernel
  have hconvertible : Convertible (payloadLibs oneLimbs) (holding [] longKey)
      (payloadValue oneLimbs) [X509Google.rsaJwk [] longKey.1] := ⟨_, hmodulus, fun _ => trivial⟩
  have hmatch := (matchKey_true_iff hconvertible).2 hmatched
  refine ⟨?_, modulus?_payload oneLimbs, hlimbs, ?_⟩
  · exact verify_of_matchKey (modulus?_payload oneLimbs) rfl hmatch
  · intro keys hkeys key hmem num hnum
    rw [← Option.some.inj hkeys, List.mem_singleton] at hmem
    rw [hmem, hmodulus] at hnum
    rw [hone, ← Except.ok.inj hnum]
    decide +kernel

end Provider

end ProverNetwork.Ports
