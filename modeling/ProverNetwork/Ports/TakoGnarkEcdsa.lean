import ProverNetwork.Verified.Bn254
import ProverNetwork.Verified.Keccak

/-!
# The membership circuit

`Circuit.Define` recovers a secp256k1 key from a signature, turns it into an
address and checks the address against a Merkle tree.  The bytes of the key
come from `Pub2AddrHint`, whose outputs the prover chooses; `Satisfied` lists
the constraints an assignment has to meet, hint outputs included.

The signature recovery and the MiMC hash are gadgets of a library and stay
parameters.

## Main results

* `leaf_eq_address` — the leaf is the address of the bytes the hint gave.
* `pub2AddrHint_encode` — an honest hint gives the bytes of the key.
* `leaf_is_address_iff` — the leaf is the address of the recovered key exactly
  when the hint bytes are the key or hash to the same address.
* `hint_unchecked` — the circuit accepts other hint bytes.
-/

namespace ProverNetwork.Ports.TakoGnarkEcdsa

open ProverNetwork.Verified
open ProverNetwork.Verified.Keccak

def MerklePathLength : Nat := 14
def FancasterProjectID : Nat := 10009
def EthereumAddrLen : Nat := 20
def PubKeyBytesLen : Nat := 64
def HashOffset : Nat := 12
def Base256 : Nat := 256
def ExpectedInputs : Nat := 8
def LimbSize : Nat := 64

/-- The prime of the secp256k1 base field. -/
def secp256k1P : Nat := 2 ^ 256 - 2 ^ 32 - 977

/-- A public key by its coordinates. -/
structure AffinePoint where
  x : Nat
  y : Nat
  x_lt : x < secp256k1P
  y_lt : y < secp256k1P
  deriving DecidableEq

/-- The 64-byte big-endian encoding, without prefix. -/
def AffinePoint.encode (p : AffinePoint) : List UInt8 :=
  beBytes 32 p.x ++ beBytes 32 p.y

/-- A byte as the value of a `uints.U8`. -/
def byteVar (b : UInt8) : Fr := (b.toNat : Fr)

/-! ## The hint -/

/-- A coordinate from its limbs, most significant first, by Horner's rule. -/
def hintCoordinate (limbs : List Nat) : Nat :=
  limbs.foldl (fun x a => (x * 2 ^ LimbSize + a) % secp256k1P) 0

/-- `Pub2AddrHint`; the address it computes on the way is only logged. -/
def pub2AddrHint (inputs : List Nat) : Except String (List Nat) :=
  if inputs.length ≠ ExpectedInputs then
    .error ("expected " ++ toString ExpectedInputs ++ " inputs, got " ++
      toString inputs.length)
  else
    let x := hintCoordinate (inputs.take 4)
    let y := hintCoordinate (inputs.drop 4)
    .ok ((beBytes 32 x ++ beBytes 32 y).map UInt8.toNat)

/-! ## Gadgets -/

/-- The library gadgets whose definition is elsewhere: `ECRecover`, as the
relation between message, `v`, `r`, `s` and the recovered key, and MiMC. -/
structure Gadgets where
  ecRecover : Nat → Fr → Nat → Nat → AffinePoint → Prop
  mimc : List Fr → Fr

/-- `Keccak256`: the outputs are the digest of the input bytes. -/
def Keccak256 (input output : List Fr) : Prop :=
  ∃ bs : List UInt8, input = bs.map byteVar ∧ output = (keccak256 bs).map byteVar

/-- `BigEndianBytesToVar`. -/
def bigEndianBytesToVar (data : List Fr) : Fr :=
  (data.take EthereumAddrLen).foldl (fun x d => x * (Base256 : Fr) + d) 0

/-- `api.ToBinary`, least significant bit first. -/
def toBinary (v : Fr) (n : Nat) : Option (List Bool) :=
  if v.val < 2 ^ n then some ((List.range n).map v.val.testBit) else none

/-- `api.Select`. -/
def select (b : Bool) (i1 i2 : Fr) : Fr := if b then i1 else i2

/-- The hashes up the path, as the loop of `VerifyProof` computes them. -/
def merkleSum (mimc : List Fr → Fr) : Fr → List Fr → List Bool → Fr
  | sum, p :: path, b :: bits =>
      merkleSum mimc (mimc [select b p sum, select b sum p]) path bits
  | sum, _, _ => sum

/-- `VerifyProof` on the whole path, the leaf included. -/
def verifyProof (mimc : List Fr → Fr) (rootHash : Fr) (path : List Fr) (leaf : Fr) :
    Prop :=
  match path, toBinary leaf (path.length - 1) with
  | first :: rest, some binLeaf => merkleSum mimc (mimc [first]) rest binLeaf = rootHash
  | _, _ => False

/-! ## The circuit -/

structure Circuit where
  message : Nat
  v : Fr
  r : Nat
  s : Nat
  expected : AffinePoint
  rootHash : Fr
  index : Fr
  path : Fin MerklePathLength → Fr
  projectId : Fr

/-- `addr_fv`. -/
def addressVar (digest : List Fr) : Fr :=
  bigEndianBytesToVar ((digest.drop HashOffset).take EthereumAddrLen)

/-- `merklePath`: the address, then the path from its second item on. -/
def Circuit.merklePath (c : Circuit) (digest : List Fr) : List Fr :=
  addressVar digest :: (List.ofFn c.path).drop 1

/-- The constraints of `Define`, with the recovered key `res`, the outputs of
the hint and the digest as the values of its intermediate variables.  The hint
itself adds no constraint. -/
structure Satisfied (gadgets : Gadgets) (c : Circuit) (res : AffinePoint)
    (hintOutputs digest : List Fr) : Prop where
  projectId : c.projectId = (FancasterProjectID : Fr)
  recovered : gadgets.ecRecover c.message c.v c.r c.s res
  expected : c.expected = res
  hint_length : hintOutputs.length = PubKeyBytesLen
  hashed : Keccak256 hintOutputs digest
  member : verifyProof gadgets.mimc c.rootHash (c.merklePath digest) c.index

/-! ## Bytes and field elements -/

theorem byteVar_injective : Function.Injective byteVar := by
  intro a b h
  have ha : a.toNat < 256 := a.toNat_lt
  have hb : b.toNat < 256 := b.toNat_lt
  have hprime : 256 < bn254Prime := by decide
  exact UInt8.toNat_inj.1 (natCast_inj (by omega) (by omega) h)

private theorem foldl_byteVar (bs : List UInt8) (n : Nat) :
    (bs.map byteVar).foldl (fun x d => x * (Base256 : Fr) + d) (n : Fr) =
      ((bs.foldl (fun acc b => acc * 256 + b.toNat) n : Nat) : Fr) := by
  induction bs generalizing n with
  | nil => rfl
  | cons b bs ih =>
      have hstep : (n : Fr) * (Base256 : Fr) + byteVar b =
          ((n * 256 + b.toNat : Nat) : Fr) := by
        simp [byteVar, Base256]
      rw [List.map_cons, List.foldl_cons, hstep, ih, List.foldl_cons]

/-- Shifting bytes into a variable reads them as a big-endian number. -/
theorem bigEndianBytesToVar_bytes {bs : List UInt8} (h : bs.length = EthereumAddrLen) :
    bigEndianBytesToVar (bs.map byteVar) = ((setBytes bs : Nat) : Fr) := by
  rw [bigEndianBytesToVar, List.take_of_length_le (by simp [h])]
  have hfold := foldl_byteVar bs 0
  rwa [Nat.cast_zero] at hfold

/-- The address of 64 key bytes: the last 20 bytes of their digest. -/
def ethereumAddress (pub : List UInt8) : List UInt8 := (keccak256 pub).drop HashOffset

theorem ethereumAddress_length (pub : List UInt8) :
    (ethereumAddress pub).length = EthereumAddrLen := by
  rw [ethereumAddress, List.length_drop, keccak256_length]
  rfl

/-- **The leaf is the address of the bytes that were hashed.** -/
theorem leaf_eq_address (bs : List UInt8) :
    addressVar ((keccak256 bs).map byteVar) = ((setBytes (ethereumAddress bs) : Nat) : Fr) := by
  have hlen := ethereumAddress_length bs
  rw [addressVar, ← List.map_drop, ← List.map_take, ← ethereumAddress,
    List.take_of_length_le (Nat.le_of_eq hlen), bigEndianBytesToVar_bytes hlen]

/-- Addresses are told apart by their field elements. -/
theorem address_cast_inj {as bs : List UInt8} (ha : as.length = EthereumAddrLen)
    (hb : bs.length = EthereumAddrLen)
    (h : ((setBytes as : Nat) : Fr) = ((setBytes bs : Nat) : Fr)) : as = bs := by
  have hboundA := setBytes_lt as
  have hboundB := setBytes_lt bs
  rw [ha] at hboundA
  rw [hb] at hboundB
  have hsmall : 256 ^ EthereumAddrLen < bn254Prime := by decide
  exact setBytes_inj (ha.trans hb.symm) (natCast_inj (by omega) (by omega) h)

/-! ## The honest hint -/

/-- The number that limbs stand for, most significant first. -/
def limbsValue (limbs : List Nat) : Nat :=
  limbs.foldl (fun x a => x * 2 ^ LimbSize + a) 0

/-- Reducing at every step of Horner's rule or once at the end is the same. -/
private theorem horner_mod (b m : Nat) : ∀ (limbs : List Nat) (x : Nat),
    limbs.foldl (fun x a => (x * b + a) % m) (x % m) =
      limbs.foldl (fun x a => x * b + a) x % m := by
  intro limbs
  induction limbs with
  | nil => intro x; rfl
  | cons a limbs ih =>
      intro x
      have hstep : (x % m * b + a) % m = (x * b + a) % m := by
        rw [Nat.add_mod, Nat.mod_mul_mod, ← Nat.add_mod]
      rw [List.foldl_cons, List.foldl_cons, hstep, ih]

theorem hintCoordinate_limbs (limbs : List Nat) :
    hintCoordinate limbs = limbsValue limbs % secp256k1P := by
  have h := horner_mod (2 ^ LimbSize) secp256k1P limbs 0
  rwa [Nat.zero_mod] at h

/-- **An honest hint gives the bytes of the key.**  Its inputs are the limbs of
the two coordinates, reduced or not. -/
theorem pub2AddrHint_encode (p : AffinePoint) {xs ys : List Nat} (hxs : xs.length = 4)
    (hys : ys.length = 4) (hx : limbsValue xs % secp256k1P = p.x)
    (hy : limbsValue ys % secp256k1P = p.y) :
    pub2AddrHint (xs ++ ys) = .ok (p.encode.map UInt8.toNat) := by
  have hlen : ¬(xs ++ ys).length ≠ ExpectedInputs := by
    simp [hxs, hys, ExpectedInputs]
  rw [pub2AddrHint, if_neg hlen, List.take_left' hxs, List.drop_left' hxs,
    hintCoordinate_limbs, hintCoordinate_limbs, hx, hy]
  rfl

/-! ## What the leaf is -/

/-- The leaf that the membership proof is about. -/
def Circuit.leaf (c : Circuit) (digest : List Fr) : Option Fr := (c.merklePath digest).head?

/-- The address of a key, as the leaf variable should hold it. -/
def addressOf (p : AffinePoint) : Fr := ((setBytes (ethereumAddress p.encode) : Nat) : Fr)

/-- The hint outputs are the bytes of the key, or other bytes whose digest ends
in the same address. -/
def HintMatches (hintOutputs : List Fr) (p : AffinePoint) : Prop :=
  hintOutputs = p.encode.map byteVar ∨
    ∃ bs : List UInt8, bs ≠ p.encode ∧ hintOutputs = bs.map byteVar ∧
      ethereumAddress bs = ethereumAddress p.encode

private theorem leaf_hashed {c : Circuit} {bs : List UInt8} :
    c.leaf ((keccak256 bs).map byteVar) =
      some ((setBytes (ethereumAddress bs) : Nat) : Fr) := by
  rw [← leaf_eq_address]
  rfl

/-- **Exactly when the leaf is the address of the recovered key.**  The digest
binds the leaf to the outputs of the hint, and no constraint binds those to the
key. -/
theorem leaf_is_address_iff {gadgets : Gadgets} {c : Circuit} {res : AffinePoint}
    {hintOutputs digest : List Fr}
    (h : Satisfied gadgets c res hintOutputs digest) :
    c.leaf digest = some (addressOf res) ↔ HintMatches hintOutputs res := by
  obtain ⟨bs, hinput, rfl⟩ := h.hashed
  rw [leaf_hashed, addressOf, Option.some.injEq]
  constructor
  · intro heq
    have haddr := address_cast_inj (ethereumAddress_length bs)
      (ethereumAddress_length res.encode) heq
    by_cases hbs : bs = res.encode
    · exact Or.inl (hbs ▸ hinput)
    · exact Or.inr ⟨bs, hbs, hinput, haddr⟩
  · intro hmatch
    rcases hmatch with hkey | ⟨bs', _, hinput', haddr⟩
    · have hbs : bs = res.encode :=
        List.map_injective_iff.2 byteVar_injective (hinput.symm.trans hkey)
      rw [hbs]
    · have hbs : bs = bs' :=
        List.map_injective_iff.2 byteVar_injective (hinput.symm.trans hinput')
      rw [hbs, haddr]

/-- The circuit gets the address it asks for from an honest hint. -/
theorem honest_hint_matches (p : AffinePoint) {xs ys outputs : List Nat}
    (hxs : xs.length = 4) (hys : ys.length = 4)
    (hx : limbsValue xs % secp256k1P = p.x) (hy : limbsValue ys % secp256k1P = p.y)
    (hout : pub2AddrHint (xs ++ ys) = .ok outputs) :
    HintMatches (outputs.map (fun n : Nat => (n : Fr))) p := by
  rw [pub2AddrHint_encode p hxs hys hx hy] at hout
  rw [← Except.ok.inj hout, List.map_map]
  exact Or.inl rfl

/-! ### A signature by the key 1 -/

/-- The generator of secp256k1, the public key of the secret key 1. -/
def generator : AffinePoint where
  x := 55066263022277343669578718895168534326250603453777594175500187360389116729240
  y := 32670510020758816978083085130507043184471273380659243275938904335757337482424
  x_lt := by decide
  y_lt := by decide

/-- The `x` coordinate of twice the generator: the `r` of a signature with
nonce 2. -/
def nonceX : Nat :=
  89565891926547004231252920425935692360644145829622209833684329913297188986597

/-- The `s` of the signature of message 1 by the key 1 with nonce 2. -/
def signatureS : Nat :=
  44782945963273502115626460212967846180322072914811104916842164956648594493299

/-- Gadgets that recover the generator from that signature and nothing from
any other, with a given hash. -/
def signatureGadgets (mimc : List Fr → Fr) : Gadgets where
  ecRecover := fun message v r s p =>
    message = 1 ∧ v = 27 ∧ r = nonceX ∧ s = signatureS ∧ p = generator
  mimc := mimc

/-- A circuit for the signature whose tree holds the given leaf at index 0. -/
def signatureCircuit (mimc : List Fr → Fr) (leaf : Fr) : Circuit where
  message := 1
  v := 27
  r := nonceX
  s := signatureS
  expected := generator
  rootHash := merkleSum mimc (mimc [leaf]) (List.replicate 13 0) (List.replicate 13 false)
  index := 0
  path := fun _ => 0
  projectId := 10009

/-- Any 64 bytes whatever pass for the key. -/
theorem signatureCircuit_satisfied (mimc : List Fr → Fr) {bs : List UInt8}
    (hlen : bs.length = PubKeyBytesLen) :
    Satisfied (signatureGadgets mimc)
      (signatureCircuit mimc (addressVar ((keccak256 bs).map byteVar)))
      generator (bs.map byteVar) ((keccak256 bs).map byteVar) where
  projectId := rfl
  recovered := ⟨rfl, rfl, rfl, rfl, rfl⟩
  expected := rfl
  hint_length := by rw [List.length_map, hlen]
  hashed := ⟨bs, rfl, rfl⟩
  member := by
    have hbits : toBinary 0 13 = some (List.replicate 13 false) := by
      rw [toBinary, ZMod.val_zero, if_pos (by decide)]
      rfl
    show verifyProof mimc _ (addressVar _ :: List.replicate 13 0) 0
    simp only [verifyProof, List.length_cons, List.length_replicate,
      Nat.add_sub_cancel, hbits]
    rfl

theorem leaf_is_address_iff_key :
    (signatureCircuit List.sum
        (addressVar ((keccak256 generator.encode).map byteVar))).leaf
      ((keccak256 generator.encode).map byteVar) = some (addressOf generator) ↔
    HintMatches (generator.encode.map byteVar) generator :=
  leaf_is_address_iff (signatureCircuit_satisfied List.sum rfl)

/-- Hint outputs that have nothing to do with the key. -/
def zeroBytes : List UInt8 := List.replicate PubKeyBytesLen 0

/-- Sixty-four zero bytes in place of the key satisfy the circuit, and the leaf
is the address of the zero bytes. -/
theorem hint_unchecked :
    Satisfied (signatureGadgets List.sum)
        (signatureCircuit List.sum (addressVar ((keccak256 zeroBytes).map byteVar)))
        generator (zeroBytes.map byteVar) ((keccak256 zeroBytes).map byteVar) ∧
      (signatureCircuit List.sum (addressVar ((keccak256 zeroBytes).map byteVar))).leaf
          ((keccak256 zeroBytes).map byteVar) ≠ some (addressOf generator) := by
  refine ⟨signatureCircuit_satisfied List.sum rfl, ?_⟩
  rw [leaf_hashed, addressOf, ne_eq, Option.some.injEq]
  intro heq
  have haddr := address_cast_inj (ethereumAddress_length zeroBytes)
    (ethereumAddress_length generator.encode) heq
  have hdiffer : ethereumAddress zeroBytes ≠ ethereumAddress generator.encode := by
    decide +kernel
  exact hdiffer haddr

end ProverNetwork.Ports.TakoGnarkEcdsa
