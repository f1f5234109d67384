import ProverNetwork.Ports.OAuthProvider
import ProverNetwork.Verified.Base64
import ProverNetwork.Verified.Hex
import ProverNetwork.Verified.Sha256

/-!
# The X.509 provider

Google publishes its keys a second time, as certificates under their key ids.
The provider turns each certificate into a JWK and holds the list; where it
checks a payload it turns the JWKs back into RSA keys.

The certificate parser and the RSA keys are parameters.

## Main results

* `jwk_round_trip` — the numbers of a key survive the way to a JWK and back.
* `updateJwks_of_ok` — what a refresh that succeeds installs.
* `installs_iff` — which responses have their RSA keys installed.
-/

namespace ProverNetwork.Ports

open ProverNetwork.Verified

structure RSAPublicNumbers where
  e : Nat
  n : Nat
  deriving DecidableEq

/-- `cryptography`'s RSA public keys. -/
structure RSA (P : Type) where
  public_numbers : P → RSAPublicNumbers
  public_key : RSAPublicNumbers → Except PyError P

/-- A public key can be made from its numbers again. -/
def RSA.Documented {P : Type} (rsa : RSA P) : Prop :=
  ∀ key, (rsa.public_key (rsa.public_numbers key)).map rsa.public_numbers =
    .ok (rsa.public_numbers key)

/-- `base64.urlsafe_b64decode`; its errors are `ValueError`s. -/
def urlsafeB64decode (text : String) : Except PyError (List UInt8) :=
  (Base64.decode text.toList).mapError (fun _ => .valueError)

/-- `base64.urlsafe_b64encode(num.to_bytes(…, 'big')).decode().rstrip("=")`. -/
def urlsafeB64encode (num : Nat) : String :=
  String.ofList (Base64.rstrip (Base64.encode (Base64.toBytes num)))

/-- `_jwk_to_rsa_public_key`. -/
def jwkToRsaPublicKey {P : Type} (rsa : RSA P) (jwk : Jwk) : Except PyError P := do
  let n_bytes ← urlsafeB64decode (jwk.n ++ "==")
  let e_bytes ← urlsafeB64decode (jwk.e ++ "==")
  rsa.public_key ⟨Base64.ofBytes e_bytes, Base64.ofBytes n_bytes⟩

namespace X509Google

inductive PublicKey (P : Type)
  | rsa (key : P)
  | other

structure Certificate (P : Type) where
  public_key : Except PyError (PublicKey P)
  fingerprint : List UInt8

structure X509 (P : Type) where
  rsa : RSA P
  load_pem_x509_certificate : String → Except PyError (Certificate P)

/-- `hashlib.sha256(bs).hexdigest()`. -/
def sha256Hex (bs : List UInt8) : String :=
  String.ofList (Hex.encode (Sha256.sha256 bs))

/-- The dictionary that stands for an RSA key. -/
def rsaJwk (fingerprint : List UInt8) (numbers : RSAPublicNumbers) : Jwk where
  kty := "RSA"
  kid := sha256Hex fingerprint
  alg := "RS256"
  use := "sig"
  n := urlsafeB64encode numbers.n
  e := urlsafeB64encode numbers.e

section Refresh

variable {P : Type} (x509 : X509 P)

/-- `_extract_jwk_from_pem` once the certificate is loaded; `none` is what a
function returns that ends without a `return`. -/
def extractJwk (cert : Certificate P) : Except PyError (Option Jwk) := do
  let public_key ← cert.public_key
  match public_key with
  | .rsa key => .ok (some (rsaJwk cert.fingerprint (x509.rsa.public_numbers key)))
  | .other => .ok none

/-- `_extract_jwk_from_pem`. -/
def extractJwkFromPem (pem_cert : String) : Except PyError (Option Jwk) := do
  let cert ← x509.load_pem_x509_certificate pem_cert
  extractJwk x509 cert

/-- `JWKS(**data)`, of which only the member `keys` is a field: every item has to
be a JWK. -/
def validateKeys : List (Option Jwk) → Except PyError (List Jwk)
  | [] => .ok []
  | none :: _ => .error .valueError
  | some jwk :: keys => (validateKeys keys).map (jwk :: ·)

/-- The keys that a response holds, or what the refresh raises on it. -/
def refreshed (response : Except PyError (Dict String String)) :
    Except PyError (List Jwk) := do
  let data ← response
  let data := data.filter (fun k _ => k ≠ "keys")
  let keys ← data.values.mapM (extractJwkFromPem x509)
  validateKeys keys

/-- `update_jwks`, on the decoded body of the response or what fetching it raises. -/
def updateJwks (response : Except PyError (Dict String String)) (p : Provider) :
    Except PyError Unit × Provider :=
  match refreshed x509 response with
  | .error e => (.error e, p)
  | .ok keys => (.ok (), { p with jwks := some keys })

end Refresh

/-! ## The numbers of a key -/

theorem decode_urlsafeB64encode (num : Nat) :
    (urlsafeB64decode (urlsafeB64encode num ++ "==")).map Base64.ofBytes = .ok num := by
  have htext : (urlsafeB64encode num ++ "==").toList =
      Base64.digits (Base64.toBytes num) ++ ['=', '='] := by
    rw [urlsafeB64encode, String.toList_append, String.toList_ofList, Base64.rstrip_encode]
    rfl
  rw [urlsafeB64decode, htext, Base64.decode_digits]
  show Except.ok (Base64.ofBytes (Base64.toBytes num)) = Except.ok num
  rw [Base64.ofBytes_toBytes]

theorem jwkToRsaPublicKey_rsaJwk {P : Type} (rsa : RSA P) (fingerprint : List UInt8)
    (numbers : RSAPublicNumbers) :
    jwkToRsaPublicKey rsa (rsaJwk fingerprint numbers) = rsa.public_key numbers := by
  have hn := decode_urlsafeB64encode numbers.n
  have he := decode_urlsafeB64encode numbers.e
  show (do
    let n_bytes ← urlsafeB64decode (urlsafeB64encode numbers.n ++ "==")
    let e_bytes ← urlsafeB64decode (urlsafeB64encode numbers.e ++ "==")
    rsa.public_key ⟨Base64.ofBytes e_bytes, Base64.ofBytes n_bytes⟩) = _
  cases hnb : urlsafeB64decode (urlsafeB64encode numbers.n ++ "==") with
  | error err =>
      rw [hnb] at hn
      cases hn
  | ok n_bytes =>
      cases heb : urlsafeB64decode (urlsafeB64encode numbers.e ++ "==") with
      | error err =>
          rw [heb] at he
          cases he
      | ok e_bytes =>
          rw [hnb] at hn
          rw [heb] at he
          show rsa.public_key ⟨Base64.ofBytes e_bytes, Base64.ofBytes n_bytes⟩ = _
          rw [Except.ok.inj hn, Except.ok.inj he]

/-- **JWK numbers round-trip**: the JWK made from a certificate of an RSA key
decodes to the numbers of the key, whatever their sizes. -/
theorem jwk_round_trip {P : Type} (x509 : X509 P) (key : P) (fingerprint : List UInt8) (n e : Nat)
    (hnumbers : x509.rsa.public_numbers key = ⟨e, n⟩) :
    ∃ jwk, extractJwk x509 ⟨.ok (.rsa key), fingerprint⟩ = .ok (some jwk) ∧
      (urlsafeB64decode (jwk.n ++ "==")).map Base64.ofBytes = .ok n ∧
      (urlsafeB64decode (jwk.e ++ "==")).map Base64.ofBytes = .ok e ∧
      jwkToRsaPublicKey x509.rsa jwk = x509.rsa.public_key ⟨e, n⟩ := by
  refine ⟨rsaJwk fingerprint ⟨e, n⟩, ?_, decode_urlsafeB64encode n, decode_urlsafeB64encode e,
    jwkToRsaPublicKey_rsaJwk x509.rsa fingerprint ⟨e, n⟩⟩
  show Except.ok (some (rsaJwk fingerprint (x509.rsa.public_numbers key))) = _
  rw [hnumbers]

/-! ## What a refresh installs -/

section Refresh

variable {P : Type} {x509 : X509 P}

/-- The numbers of a certificate of an RSA key. -/
def rsaNumbers? (x509 : X509 P) (pem_cert : String) : Option RSAPublicNumbers :=
  match x509.load_pem_x509_certificate pem_cert with
  | .ok ⟨.ok (.rsa key), _⟩ => some (x509.rsa.public_numbers key)
  | _ => none

theorem rsaNumbers?_of_load {pem_cert : String} {key : P} {fingerprint : List UInt8}
    (h : x509.load_pem_x509_certificate pem_cert = .ok ⟨.ok (.rsa key), fingerprint⟩) :
    rsaNumbers? x509 pem_cert = some (x509.rsa.public_numbers key) := by
  rw [rsaNumbers?, h]

theorem extractJwkFromPem_rsa {pem_cert : String} {key : P} {fingerprint : List UInt8}
    (h : x509.load_pem_x509_certificate pem_cert = .ok ⟨.ok (.rsa key), fingerprint⟩) :
    extractJwkFromPem x509 pem_cert =
      .ok (some (rsaJwk fingerprint (x509.rsa.public_numbers key))) := by
  rw [extractJwkFromPem, h]
  rfl

theorem extractJwkFromPem_other {pem_cert : String} {fingerprint : List UInt8}
    (h : x509.load_pem_x509_certificate pem_cert = .ok ⟨.ok .other, fingerprint⟩) :
    extractJwkFromPem x509 pem_cert = .ok none := by
  rw [extractJwkFromPem, h]
  rfl

/-- What a JWK of the provider stands for. -/
def jwkNumbers (x509 : X509 P) (jwk : Jwk) : Except PyError RSAPublicNumbers :=
  (jwkToRsaPublicKey x509.rsa jwk).map x509.rsa.public_numbers

/-- The ways an item of the response comes out. -/
theorem extract_cases (documented : x509.rsa.Documented) (pem_cert : String) :
    (∃ jwk numbers, extractJwkFromPem x509 pem_cert = .ok (some jwk) ∧
      rsaNumbers? x509 pem_cert = some numbers ∧ jwkNumbers x509 jwk = .ok numbers) ∨
    ((extractJwkFromPem x509 pem_cert = .ok none ∨
      ∃ err, extractJwkFromPem x509 pem_cert = .error err) ∧
      rsaNumbers? x509 pem_cert = none) := by
  unfold extractJwkFromPem rsaNumbers?
  cases x509.load_pem_x509_certificate pem_cert with
  | error err => exact .inr ⟨.inr ⟨err, rfl⟩, rfl⟩
  | ok cert =>
      obtain ⟨public_key, fingerprint⟩ := cert
      cases public_key with
      | error err => exact .inr ⟨.inr ⟨err, rfl⟩, rfl⟩
      | ok public_key =>
          cases public_key with
          | other => exact .inr ⟨.inl rfl, rfl⟩
          | rsa key =>
              refine .inl ⟨_, _, rfl, rfl, ?_⟩
              rw [jwkNumbers, jwkToRsaPublicKey_rsaJwk]
              exact documented key

/-- The items up to the validation of the whole list. -/
def installable (x509 : X509 P) (pems : List String) : Except PyError (List Jwk) := do
  let keys ← pems.mapM (extractJwkFromPem x509)
  validateKeys keys

theorem installable_cons_rsa {pem : String} {jwk : Jwk} (pems : List String)
    (h : extractJwkFromPem x509 pem = .ok (some jwk)) :
    installable x509 (pem :: pems) = (installable x509 pems).map (jwk :: ·) := by
  unfold installable
  rw [List.mapM_cons, h]
  cases pems.mapM (extractJwkFromPem x509) <;> rfl

theorem installable_cons_odd {pem : String} (pems : List String)
    (h : extractJwkFromPem x509 pem = .ok none ∨
      ∃ err, extractJwkFromPem x509 pem = .error err) (keys : List Jwk) :
    installable x509 (pem :: pems) ≠ .ok keys := by
  intro hkeys
  unfold installable at hkeys
  rw [List.mapM_cons] at hkeys
  rcases h with hnone | ⟨err, herror⟩
  · rw [hnone] at hkeys
    cases hrest : pems.mapM (extractJwkFromPem x509) with
    | error err =>
        rw [hrest] at hkeys
        cases hkeys
    | ok rest =>
        rw [hrest] at hkeys
        cases hkeys
  · rw [herror] at hkeys
    cases hkeys

/-- Certificates of RSA keys are installed in their order. -/
theorem installable_of_rsa (documented : x509.rsa.Documented) {pems : List String}
    (hrsa : ∀ pem ∈ pems, rsaNumbers? x509 pem ≠ none) :
    ∃ keys, installable x509 pems = .ok keys ∧
      keys.map (jwkNumbers x509) = (pems.filterMap (rsaNumbers? x509)).map .ok := by
  induction pems with
  | nil => exact ⟨[], rfl, rfl⟩
  | cons pem pems ih =>
      obtain ⟨keys, hkeys, hmap⟩ := ih (fun q hq => hrsa q (List.mem_cons_of_mem pem hq))
      rcases extract_cases documented pem with ⟨jwk, numbers, hjwk, hnumbers, hdecode⟩ | ⟨-, hnone⟩
      · refine ⟨jwk :: keys, ?_, ?_⟩
        · rw [installable_cons_rsa pems hjwk, hkeys]
          rfl
        · rw [List.map_cons, hdecode, hmap, List.filterMap_cons_some hnumbers, List.map_cons]
      · exact absurd hnone (hrsa pem List.mem_cons_self)

/-- One item that is no certificate of an RSA key refuses the list. -/
theorem rsa_of_installable (documented : x509.rsa.Documented) {pems : List String}
    {keys : List Jwk} (h : installable x509 pems = .ok keys) :
    ∀ pem ∈ pems, rsaNumbers? x509 pem ≠ none := by
  induction pems generalizing keys with
  | nil =>
      intro pem hmem
      cases hmem
  | cons pem pems ih =>
      rcases extract_cases documented pem with ⟨jwk, numbers, hjwk, hnumbers, -⟩ | ⟨hodd, -⟩
      · rw [installable_cons_rsa pems hjwk] at h
        cases hrest : installable x509 pems with
        | error err =>
            rw [hrest] at h
            cases h
        | ok rest =>
            rw [List.forall_mem_cons]
            exact ⟨by rw [hnumbers]; exact Option.some_ne_none numbers, ih hrest⟩
      · exact absurd h (installable_cons_odd pems hodd keys)

/-- The certificates of a response that a refresh looks at. -/
def certificates (data : Dict String String) : List String :=
  (data.filter (fun k _ => k ≠ "keys")).values

theorem refreshed_ok (data : Dict String String) :
    refreshed x509 (.ok data) = installable x509 (certificates data) := rfl

theorem updateJwks_of_error {data : Dict String String} {err : PyError}
    (h : installable x509 (certificates data) = .error err) (p : Provider) :
    updateJwks x509 (.ok data) p = (.error err, p) := by
  rw [updateJwks, refreshed_ok, h]

theorem updateJwks_of_ok {data : Dict String String} {keys : List Jwk}
    (h : installable x509 (certificates data) = .ok keys) (p : Provider) :
    updateJwks x509 (.ok data) p = (.ok (), { p with jwks := some keys }) := by
  rw [updateJwks, refreshed_ok, h]

/-- A refresh that raises leaves the keys, whatever was fetched. -/
theorem updateJwks_error {response : Except PyError (Dict String String)} {p : Provider}
    {err : PyError} (h : (updateJwks x509 response p).1 = .error err) :
    (updateJwks x509 response p).2 = p := by
  unfold updateJwks at h ⊢
  cases hkeys : refreshed x509 response with
  | error e => rfl
  | ok keys =>
      rw [hkeys] at h
      cases h

/-- The refresh succeeds, and the JWKs held then decode to the numbers of the RSA
certificates of the response, in order; and one that raises changes nothing. -/
def InstallsRsaKeys (x509 : X509 P) (data : Dict String String) (p : Provider) : Prop :=
  ((updateJwks x509 (.ok data) p).1 = .ok () ∧
    ∃ keys, (updateJwks x509 (.ok data) p).2.jwks = some keys ∧
      keys.map (jwkNumbers x509) = (data.values.filterMap (rsaNumbers? x509)).map .ok) ∧
  ∀ err, (updateJwks x509 (.ok data) p).1 = .error err →
    (updateJwks x509 (.ok data) p).2 = p

/-- Dropping items keeps what is selected from the rest only where nothing was
selected from them. -/
theorem filterMap_filter_eq_iff {α β : Type*} (p : α → Bool) (f : α → Option β) (l : List α) :
    (l.filter p).filterMap f = l.filterMap f ↔ ∀ a ∈ l, p a = false → f a = none := by
  induction l with
  | nil => simp
  | cons a l ih =>
      rw [List.forall_mem_cons]
      cases hp : p a with
      | true =>
          rw [List.filter_cons_of_pos hp]
          cases hf : f a with
          | none => simp [List.filterMap_cons_none hf, ih]
          | some b => simp [List.filterMap_cons_some hf, ih]
      | false =>
          rw [List.filter_cons_of_neg (by simp [hp])]
          cases hf : f a with
          | none => simp [List.filterMap_cons_none hf, ih]
          | some b =>
              rw [List.filterMap_cons_some hf]
              refine ⟨fun heq => ?_, fun h => absurd (h.1 rfl) (Option.some_ne_none b)⟩
              have hle : ((l.filter p).filterMap f).length ≤ (l.filterMap f).length :=
                (List.filter_sublist.filterMap f).length_le
              rw [heq, List.length_cons] at hle
              omega

/-- The entries of a response are RSA certificates, and none of them is named as
the list of a JWKS. -/
def OnlyRsa (x509 : X509 P) (data : Dict String String) : Prop :=
  ∀ kid pem, data.get? kid = some pem → (rsaNumbers? x509 pem ≠ none ↔ kid ≠ "keys")

theorem filterMap_certificates (data : Dict String String) :
    (certificates data).filterMap (rsaNumbers? x509) =
      (data.items.filter (fun kv => kv.1 ≠ "keys")).filterMap
        (fun kv => rsaNumbers? x509 kv.2) := by
  show ((data.items.filter (fun kv => kv.1 ≠ "keys")).map Prod.snd).filterMap _ = _
  rw [List.filterMap_map]
  rfl

theorem filterMap_values (data : Dict String String) :
    data.values.filterMap (rsaNumbers? x509) =
      data.items.filterMap (fun kv => rsaNumbers? x509 kv.2) := by
  show (data.items.map Prod.snd).filterMap _ = _
  rw [List.filterMap_map]
  rfl

theorem mem_certificates {data : Dict String String} {pem : String} :
    pem ∈ certificates data ↔ ∃ kid, data.get? kid = some pem ∧ kid ≠ "keys" := by
  rw [certificates, Dict.mem_values]
  refine exists_congr (fun kid => ?_)
  rw [Dict.get?_filter, Option.filter_eq_some_iff, decide_eq_true_iff]

/-- What is under the name of the list is left out, which is no loss where it is
no RSA certificate. -/
theorem filterMap_certificates_eq_iff (data : Dict String String) :
    (certificates data).filterMap (rsaNumbers? x509) =
      data.values.filterMap (rsaNumbers? x509) ↔
    ∀ pem, data.get? "keys" = some pem → rsaNumbers? x509 pem = none := by
  rw [filterMap_certificates, filterMap_values, filterMap_filter_eq_iff]
  constructor
  · intro h pem hget
    exact h ("keys", pem) ((data.mem_items_iff "keys" pem).2 hget) (by simp)
  · intro h item hitem hkey
    obtain ⟨kid, pem⟩ := item
    have hkid : kid = "keys" := by simpa using hkey
    exact h pem (hkid ▸ (data.mem_items_iff kid pem).1 hitem)

/-- **A response has its RSA keys installed if and only if the entries under key
ids are all certificates of RSA keys**, and none is named as the list itself. -/
theorem installs_iff (documented : x509.rsa.Documented) (data : Dict String String)
    (p : Provider) : InstallsRsaKeys x509 data p ↔ OnlyRsa x509 data := by
  constructor
  · rintro ⟨⟨hok, keys, hheld, hnumbers⟩, -⟩
    cases hkeys : installable x509 (certificates data) with
    | error err =>
        rw [updateJwks_of_error hkeys] at hok
        cases hok
    | ok installed =>
        rw [updateJwks_of_ok hkeys] at hheld
        have hinstalled : installed = keys := Option.some.inj hheld
        have hrsa := rsa_of_installable documented hkeys
        obtain ⟨keys', hkeys', hmap⟩ := installable_of_rsa documented hrsa
        rw [hkeys, Except.ok.injEq] at hkeys'
        rw [← hinstalled, hkeys', hmap] at hnumbers
        have heq := (List.map_injective_iff.2 (fun _ _ => Except.ok.inj)) hnumbers
        have hnamed := (filterMap_certificates_eq_iff data).1 heq
        intro kid pem hget
        constructor
        · rintro hsome rfl
          exact hsome (hnamed pem hget)
        · intro hkid
          exact hrsa pem (mem_certificates.2 ⟨kid, hget, hkid⟩)
  · intro honly
    have hrsa : ∀ pem ∈ certificates data, rsaNumbers? x509 pem ≠ none := by
      intro pem hmem
      obtain ⟨kid, hget, hkid⟩ := mem_certificates.1 hmem
      exact (honly kid pem hget).2 hkid
    have hnamed : ∀ pem, data.get? "keys" = some pem → rsaNumbers? x509 pem = none := by
      intro pem hget
      by_contra hsome
      exact (honly "keys" pem hget).1 hsome rfl
    obtain ⟨keys, hkeys, hmap⟩ := installable_of_rsa documented hrsa
    refine ⟨?_, fun err herr => updateJwks_error herr⟩
    rw [updateJwks_of_ok hkeys]
    refine ⟨rfl, keys, rfl, ?_⟩
    rw [hmap, (filterMap_certificates_eq_iff data).2 hnamed]

end Refresh

/-! ## A response with a certificate of another kind -/

/-- What `cryptography` checks of the numbers of a public key. -/
def Checked (numbers : RSAPublicNumbers) : Prop :=
  3 ≤ numbers.n ∧ 3 ≤ numbers.e ∧ numbers.e < numbers.n ∧ numbers.e % 2 = 1

instance (numbers : RSAPublicNumbers) : Decidable (Checked numbers) :=
  inferInstanceAs (Decidable (_ ∧ _))

def checkedRsa : RSA {numbers : RSAPublicNumbers // Checked numbers} where
  public_numbers key := key.1
  public_key numbers := if h : Checked numbers then .ok ⟨numbers, h⟩ else .error .valueError

theorem checkedRsa_documented : checkedRsa.Documented := by
  rintro ⟨numbers, hchecked⟩
  have hkey : checkedRsa.public_key numbers = .ok ⟨numbers, hchecked⟩ := dif_pos hchecked
  show (checkedRsa.public_key numbers).map checkedRsa.public_numbers = .ok numbers
  rw [hkey]
  rfl

/-- A self-signed certificate of an RSA key. -/
def rsaCertificate : String := "\n".intercalate [
  "-----BEGIN CERTIFICATE-----",
  "MIIB9DCCAV2gAwIBAgIURwt0rqowvjs5rw18PF5S4rwNXWwwDQYJKoZIhvcNAQEL",
  "BQAwDDEKMAgGA1UEAwwBYTAeFw0yNjExMjAwMTQzMzFaFw0yNjExMjEwMTQzMzFa",
  "MAwxCjAIBgNVBAMMAWEwgZ8wDQYJKoZIhvcNAQEBBQADgY0AMIGJAoGBANv7+MR0",
  "lcA6aba98BzAcXj540XFFy9aGtBNvJpFXLKh3wH8cSXVnFWQAvfKh3xUdWfMvxVO",
  "WQhLWcJJmJTiM8NjJ9WW7twrzmXjcld3hfZSZqpn4B3mMy5wtxWCOtZAyKpTsmx9",
  "SVnD3F4qCVhOoB/b8lWIQqpmqcvtgS25dMz5AgMBAAGjUzBRMB0GA1UdDgQWBBSB",
  "iYHZS4IxPA4Cu/FHntbz7I7L9TAfBgNVHSMEGDAWgBSBiYHZS4IxPA4Cu/FHntbz",
  "7I7L9TAPBgNVHRMBAf8EBTADAQH/MA0GCSqGSIb3DQEBCwUAA4GBAFGTHJ2ebWOp",
  "0ZIreUnwt9SK1bONCA/AWUdZ8xwWqbe2QyOdmEbkixk9iMz+67hH7r3H8EhpBU7x",
  "7kkmIPlWABGG/QHX9BAig+y6/PP9RqUdoMvDyS+oiJO5fghbLgEwZ0CSvdEwobVy",
  "PjPIKn46GcoX68C1H80Dg2vLK0xmqvmr",
  "-----END CERTIFICATE-----"]

def rsaKey : {numbers : RSAPublicNumbers // Checked numbers} :=
  ⟨⟨65537, Nat.ofDigits (2 ^ 256) [
    0xaa53b26c7d4959c3dc5e2a09584ea01fdbf2558842aa66a9cbed812db974ccf9,
    0x6327d596eedc2bce65e372577785f65266aa67e01de6332e70b715823ad640c8,
    0xdf01fc7125d59c559002f7ca877c547567ccbf154e59084b59c2499894e233c3,
    0xdbfbf8c47495c03a69b6bdf01cc07178f9e345c5172f5a1ad04dbc9a455cb2a1]⟩,
    by decide +kernel⟩

/-- A self-signed certificate of a key on the curve P-256. -/
def ecCertificate : String := "\n".intercalate [
  "-----BEGIN CERTIFICATE-----",
  "MIIBbDCCAROgAwIBAgIUPEeReojpqwNLfIs0dGugQbyM3sAwCgYIKoZIzj0EAwIw",
  "DDEKMAgGA1UEAwwBYTAeFw0yNjExMjAwMTQzMzFaFw0yNjExMjEwMTQzMzFaMAwx",
  "CjAIBgNVBAMMAWEwWTATBgcqhkjOPQIBBggqhkjOPQMBBwNCAAQyIoIjgkT5kGHe",
  "CFsOEKHtW9180NCAOx60kcm5Bm90pGPILU5HMt/M9rvLY2fl4qwkm2tR7Q9xBYrN",
  "t0qp2f0+o1MwUTAdBgNVHQ4EFgQUeLCXA6XaB6ZZGxrM+HsJiKqcnIowHwYDVR0j",
  "BBgwFoAUeLCXA6XaB6ZZGxrM+HsJiKqcnIowDwYDVR0TAQH/BAUwAwEB/zAKBggq",
  "hkjOPQQDAgNHADBEAiAMIivOF9ZmOQeonjmCWyoCGlKRIY5tIJc3qYdk/auFJgIg",
  "VLsgrw/SnbJKztgcY3lHts8DqP0HVHzqXu2wgNa3SH4=",
  "-----END CERTIFICATE-----"]

def rsaFingerprint : List UInt8 := [
  95, 19, 168, 23, 170, 26, 158, 210, 178, 252, 127, 72, 28, 107, 216, 22, 229, 250, 23, 30,
  194, 102, 234, 199, 163, 210, 83, 255, 206, 104, 178, 139]

def ecFingerprint : List UInt8 := [
  82, 251, 219, 34, 46, 252, 188, 147, 251, 22, 222, 206, 68, 85, 140, 224, 125, 69, 200,
  84, 205, 211, 85, 160, 238, 231, 69, 247, 108, 251, 57, 229]

/-- The two certificates, loaded. -/
def loadCertificate (pem_cert : String) :
    Except PyError (Certificate {numbers : RSAPublicNumbers // Checked numbers}) :=
  if pem_cert = rsaCertificate then .ok ⟨.ok (.rsa rsaKey), rsaFingerprint⟩
  else if pem_cert = ecCertificate then .ok ⟨.ok .other, ecFingerprint⟩
  else .error .valueError

def exampleX509 : X509 {numbers : RSAPublicNumbers // Checked numbers} :=
  ⟨checkedRsa, loadCertificate⟩

theorem load_eq (pem_cert : String) : exampleX509.load_pem_x509_certificate pem_cert =
    if pem_cert = rsaCertificate then .ok ⟨.ok (.rsa rsaKey), rsaFingerprint⟩
    else if pem_cert = ecCertificate then .ok ⟨.ok .other, ecFingerprint⟩
    else .error .valueError := rfl

theorem load_rsaCertificate : exampleX509.load_pem_x509_certificate rsaCertificate =
    .ok ⟨.ok (.rsa rsaKey), rsaFingerprint⟩ := by
  rw [load_eq, if_pos rfl]

theorem load_ecCertificate : exampleX509.load_pem_x509_certificate ecCertificate =
    .ok ⟨.ok .other, ecFingerprint⟩ := by
  have hne : ecCertificate ≠ rsaCertificate := by decide +kernel
  rw [load_eq, if_neg hne, if_pos rfl]

/-- Two keys, the second not an RSA key. -/
def mixedResponse : Dict String String :=
  (Dict.empty.set "53c66aab5c6a1b2ebd2f8e61d1a0b5e1c8f7a3d9" rsaCertificate).set
    "9e1c4f0a7b3d5e2f8a6c1b0d4e7f3a2c5b8d9e60" ecCertificate

theorem certificates_mixedResponse :
    certificates mixedResponse = [rsaCertificate, ecCertificate] := by rfl

/-- A certificate of another kind after one of an RSA key refuses both. -/
theorem installable_odd_second {P : Type} {x509 : X509 P} {pem pem' : String} {jwk : Jwk}
    (h : extractJwkFromPem x509 pem = .ok (some jwk))
    (h' : extractJwkFromPem x509 pem' = .ok none) :
    installable x509 [pem, pem'] = .error .valueError := by
  rw [installable_cons_rsa [pem'] h, installable, List.mapM_cons, List.mapM_nil, h']
  rfl

theorem updateJwks_mixedResponse (p : Provider) :
    updateJwks exampleX509 (.ok mixedResponse) p = (.error .valueError, p) := by
  have hrsa := extractJwkFromPem_rsa load_rsaCertificate
  have hec := extractJwkFromPem_other load_ecCertificate
  have hrefused : installable exampleX509 (certificates mixedResponse) = .error .valueError := by
    rw [certificates_mixedResponse]
    exact installable_odd_second hrsa hec
  exact updateJwks_of_error hrefused p

/-- **One certificate of another kind keeps the RSA keys out.** -/
theorem mixedResponse_not_installed :
    ¬InstallsRsaKeys exampleX509 mixedResponse ⟨121, 17, some []⟩ := by
  rintro ⟨⟨hok, -⟩, -⟩
  rw [updateJwks_mixedResponse] at hok
  cases hok

/-- The RSA certificate alone is installed. -/
theorem rsaResponse_installed : InstallsRsaKeys exampleX509
    (Dict.empty.set "53c66aab5c6a1b2ebd2f8e61d1a0b5e1c8f7a3d9" rsaCertificate)
    ⟨121, 17, none⟩ := by
  refine (installs_iff checkedRsa_documented _ _).2 (fun kid pem hget => ?_)
  rw [Dict.get?_set] at hget
  by_cases hkid : kid = "53c66aab5c6a1b2ebd2f8e61d1a0b5e1c8f7a3d9"
  · rw [if_pos hkid] at hget
    rw [← Option.some.inj hget, rsaNumbers?_of_load load_rsaCertificate, hkid]
    decide
  · rw [if_neg hkid] at hget
    cases hget

/-- Its key comes back from the JWK. -/
theorem rsaKey_round_trip :
    ∃ jwk, extractJwk exampleX509 ⟨.ok (.rsa rsaKey), rsaFingerprint⟩ = .ok (some jwk) ∧
      (urlsafeB64decode (jwk.n ++ "==")).map Base64.ofBytes = .ok rsaKey.1.n ∧
      (urlsafeB64decode (jwk.e ++ "==")).map Base64.ofBytes = .ok 65537 ∧
      jwkToRsaPublicKey checkedRsa jwk = checkedRsa.public_key ⟨65537, rsaKey.1.n⟩ :=
  jwk_round_trip exampleX509 rsaKey rsaFingerprint rsaKey.1.n 65537 rfl

end X509Google

end ProverNetwork.Ports
