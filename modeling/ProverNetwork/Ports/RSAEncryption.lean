import ProverNetwork.Ports.PyVal
import ProverNetwork.Verified.Base85
import ProverNetwork.Verified.PyText

/-!
# The RSA wrapper of the hub and the node

`RSAEncryption` holds a public key, a private key, or both, and passes text
through OAEP and base 85.  `decrypt` answers `False` for what is no ciphertext;
a missing key and a plaintext that is no UTF-8 raise.

The keys and the cipher are those of a library.

## Main results

* `decryptWith_ok_iff` — when a decryption returns.
* `decrypt_encrypt` — a pair of keys gives the text back.
-/

namespace ProverNetwork.Ports

open ProverNetwork.Verified
open ProverNetwork.Verified.PyText

/-- What the class uses of the cryptography package: the two PEM loaders, and
OAEP, whose encryption draws a seed.  `none` stands for `ValueError`. -/
structure Cryptography (Pub Priv : Type) where
  load_pem_public_key : List UInt8 → Option Pub
  load_pem_private_key : List UInt8 → Option Priv
  encrypt : Pub → List UInt8 → List UInt8 → Option (List UInt8)
  decrypt : Priv → List UInt8 → Option (List UInt8)

structure RSAEncryption (Pub Priv : Type) where
  public_key_pem : String
  private_key_pem : String
  public_key : Option Pub
  private_key : Option Priv

namespace RSAEncryption

variable {Pub Priv : Type} (lib : Cryptography Pub Priv)

/-- A key is loaded where its text is not empty. -/
def loadKey {Key : Type} (load : List UInt8 → Option Key) (pem : String) :
    Except PyError (Option Key) :=
  if pem = "" then .ok none
  else
    match load (utf8 pem) with
    | none => .error .valueError
    | some key => .ok (some key)

/-- `__init__`. -/
def init (public_key private_key : String) : Except PyError (RSAEncryption Pub Priv) := do
  let loadedPublic ← loadKey lib.load_pem_public_key public_key
  let loadedPrivate ← loadKey lib.load_pem_private_key private_key
  return ⟨public_key, private_key, loadedPublic, loadedPrivate⟩

/-- `encrypt`; the plaintext `none` is `False`, which has no `encode`. -/
def encrypt (e : RSAEncryption Pub Priv) (seed : List UInt8) (plaintext : Option String) :
    Except PyError String :=
  match e.public_key, plaintext with
  | none, _ => .error .attributeError
  | some _, none => .error .attributeError
  | some key, some text =>
      match lib.encrypt key (utf8 text) seed with
      | none => .error .valueError
      | some ciphertext => .ok (String.ofList (Base85.encode ciphertext))

/-- `decrypt`; the plaintext `none` is `False`. -/
def decrypt (e : RSAEncryption Pub Priv) (ciphertext : String) :
    Except PyError (Option String) :=
  match Base85.decode ciphertext.toList with
  | none => .ok none
  | some bytes =>
      match e.private_key with
      | none => .error .attributeError
      | some key =>
          match lib.decrypt key bytes with
          | none => .ok none
          | some plaintext =>
              match utf8? plaintext with
              | none => .error .valueError
              | some text => .ok (some text)

/-- `RSAEncryption(private_key=..).decrypt(..)`. -/
def decryptWith (private_key ciphertext : String) : Except PyError (Option String) := do
  let e ← init lib "" private_key
  e.decrypt lib ciphertext

/-- What `decryptWith` needs to return: a key text that loads, and for the bytes of
a ciphertext a key, whose plaintext, where there is one, is UTF-8. -/
def Decryptable (private_key ciphertext : String) : Prop :=
  (private_key ≠ "" → ∃ key, lib.load_pem_private_key (utf8 private_key) = some key) ∧
    ∀ bytes, Base85.decode ciphertext.toList = some bytes → private_key ≠ "" ∧
      ∀ key, lib.load_pem_private_key (utf8 private_key) = some key →
        ∀ plaintext, lib.decrypt key bytes = some plaintext → ∃ text, utf8? plaintext = some text

/-- **When a decryption returns.** -/
theorem decryptWith_ok_iff (private_key ciphertext : String) :
    (∃ r, decryptWith lib private_key ciphertext = .ok r) ↔
      Decryptable lib private_key ciphertext := by
  unfold decryptWith init loadKey Decryptable
  by_cases hpem : private_key = ""
  · cases hbytes : Base85.decode ciphertext.toList <;>
      simp [hpem, decrypt, hbytes, pure, Except.pure, bind, Except.bind]
  · cases hload : lib.load_pem_private_key (utf8 private_key) with
    | none => simp [hpem, bind, Except.bind]
    | some key =>
        simp only [if_true, hpem, if_false, pure, Except.pure, bind, Except.bind]
        cases hbytes : Base85.decode ciphertext.toList with
        | none => simp [decrypt, hbytes]
        | some bytes =>
            cases hplain : lib.decrypt key bytes with
            | none => simp [decrypt, hbytes, hplain, hpem]
            | some plaintext =>
                cases htext : utf8? plaintext <;> simp [decrypt, hbytes, hplain, htext, hpem]

/-- What one key encrypts the other decrypts. -/
def KeyPair (pub : Pub) (priv : Priv) : Prop :=
  ∀ plaintext seed ciphertext, lib.encrypt pub plaintext seed = some ciphertext →
    lib.decrypt priv ciphertext = some plaintext

variable {lib}

/-- **A pair of keys gives the text back.** -/
theorem decrypt_encrypt {e e' : RSAEncryption Pub Priv} {pub : Pub} {priv : Priv}
    (hpub : e.public_key = some pub) (hpriv : e'.private_key = some priv)
    (hpair : KeyPair lib pub priv) {seed : List UInt8} {text ciphertext : String}
    (h : e.encrypt lib seed (some text) = .ok ciphertext) :
    e'.decrypt lib ciphertext = .ok (some text) := by
  simp only [encrypt, hpub] at h
  cases hbytes : lib.encrypt pub (utf8 text) seed with
  | none => simp [hbytes] at h
  | some bytes =>
      simp only [hbytes, Except.ok.injEq] at h
      subst h
      simp only [decrypt, String.toList_ofList, Base85.decode_encode, hpriv,
        hpair _ _ _ hbytes, utf8?_utf8]

/-! ## A cipher that changes nothing -/

/-- Every text is a key, and a plaintext is its own ciphertext. -/
def plain : Cryptography Unit Unit where
  load_pem_public_key := fun _ => some ()
  load_pem_private_key := fun _ => some ()
  encrypt := fun _ plaintext _ => some plaintext
  decrypt := fun _ ciphertext => some ciphertext

/-- The ciphertext of a text. -/
def cipher (text : String) : String := String.ofList (Base85.encode (utf8 text))

theorem plain_pair : KeyPair plain () () := fun _ _ _ h => h.symm

theorem encrypt_plain {e : RSAEncryption Unit Unit} (h : e.public_key = some ())
    (seed : List UInt8) (text : String) :
    e.encrypt plain seed (some text) = .ok (cipher text) := by
  simp only [encrypt, h, plain]
  rfl

theorem decrypt_plain {e : RSAEncryption Unit Unit} (h : e.private_key = some ())
    (text : String) : e.decrypt plain (cipher text) = .ok (some text) :=
  decrypt_encrypt (e := ⟨"", "", some (), none⟩) rfl h plain_pair (encrypt_plain rfl [] text)

end RSAEncryption

end ProverNetwork.Ports
