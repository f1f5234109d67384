import ProverNetwork.Ports.TakoGnarkEcdsa
import ProverNetwork.Verified.MerkleTree

/-!
# Membership in a tree of addresses

The circuit hashes the address as a leaf and climbs thirteen levels; the bits of the
index choose the sides.  Against the root of a tree over `2 ^ 13` addresses it shows
that the address stands at the index, whatever path the prover chose: a path that
leads there from any other leaf holds an input that hashes like a different input of
the tree.  Leaves and nodes are hashed without a tag, and need none, as the number of
levels is fixed.

## Main results

* `verifyProof_iff` — the constraints of a proof as a climb.
* `member_of_satisfied` — what a satisfied circuit shows of the address.
* `satisfied_of_member` — the owner of a listed address can satisfy the circuit.
-/

namespace ProverNetwork.Ports.TakoGnarkEcdsa

open ProverNetwork.Verified
open ProverNetwork.Verified.Keccak
open ProverNetwork.Verified.MerkleTree

section Proofs

variable (mimc : List Fr → Fr)

/-- `leafSum`. -/
def leafSum (data : Fr) : Fr := mimc [data]

/-- `nodeSum`. -/
def nodeSum (a b : Fr) : Fr := mimc [a, b]

variable {mimc}

theorem select_pair (i : Nat) (sum p : Fr) :
    [select (i.testBit 0) p sum, select (i.testBit 0) sum p] =
      [(ordered i sum p).1, (ordered i sum p).2] := by
  unfold select ordered
  rw [Nat.testBit_zero]
  by_cases hodd : i % 2 = 1 <;> simp [hodd]

/-- The loop of `VerifyProof` climbs by the bits of the index. -/
theorem merkleSum_eq_climb (sum : Fr) (path : List Fr) (i : Nat) :
    merkleSum mimc sum path ((List.range path.length).map i.testBit) =
      climb (nodeSum mimc) i sum path := by
  induction path generalizing sum i with
  | nil => rfl
  | cons p path ih =>
      have hbits : (List.range (path.length + 1)).map i.testBit =
          i.testBit 0 :: (List.range path.length).map (i / 2).testBit := by
        rw [List.range_succ_eq_map, List.map_cons, List.map_map]
        congr 1
        refine List.map_congr_left (fun j _ => ?_)
        exact Nat.testBit_succ i j
      rw [List.length_cons, hbits, merkleSum, ih, select_pair]
      rfl

/-- **A proof is a climb**: the index fits into the levels of the path, and the climb
from the hash of the first item along the others ends in the root. -/
theorem verifyProof_iff {rootHash first leaf : Fr} {rest : List Fr} :
    verifyProof mimc rootHash (first :: rest) leaf ↔
      leaf.val < 2 ^ rest.length ∧
        climb (nodeSum mimc) leaf.val (leafSum mimc first) rest = rootHash := by
  unfold verifyProof toBinary
  rw [List.length_cons, Nat.add_sub_cancel]
  by_cases hlt : leaf.val < 2 ^ rest.length
  · rw [if_pos hlt]
    dsimp only
    rw [merkleSum_eq_climb]
    exact ⟨fun h => ⟨hlt, h⟩, fun h => h.2⟩
  · rw [if_neg hlt]
    exact ⟨fun h => h.elim, fun h => hlt h.1⟩

end Proofs

/-! ## The tree -/

section Tree

variable (mimc : List Fr → Fr) (leaves : Nat → Fr)

/-- The levels above the leaves. -/
def treeDepth : Nat := MerklePathLength - 1

/-- The hashed leaves. -/
def leafLevel (i : Nat) : Fr := leafSum mimc (leaves i)

/-- The root that is published for the leaves. -/
def treeRoot : Fr := root (nodeSum mimc) treeDepth (leafLevel mimc leaves)

/-- The siblings that the owner of the tree gives for an index. -/
def treePath (i : Nat) : List Fr := path (nodeSum mimc) treeDepth (leafLevel mimc leaves) i

/-- What is hashed on the way from a leaf. -/
def hashed (i : Nat) (first : Fr) (rest : List Fr) : List (List Fr) :=
  [first] :: (pairs (nodeSum mimc) i (leafSum mimc first) rest).map (fun pair => [pair.1, pair.2])

/-- A collision of the hash: two different inputs, one of each list. -/
def Collision (xs ys : List (List Fr)) : Prop :=
  ∃ x ∈ xs, ∃ y ∈ ys, x ≠ y ∧ mimc x = mimc y

variable {mimc leaves}

theorem collision_of_clash {i : Nat} {a b : Fr} {ps qs : List Fr}
    (h : Clash (nodeSum mimc) (pairs (nodeSum mimc) i (leafSum mimc a) ps)
      (pairs (nodeSum mimc) i (leafSum mimc b) qs)) :
    Collision mimc (hashed mimc i a ps) (hashed mimc i b qs) := by
  obtain ⟨x, hx, y, hy, hne, hsame⟩ := h
  refine ⟨[x.1, x.2], List.mem_cons_of_mem _ (List.mem_map_of_mem hx), [y.1, y.2],
    List.mem_cons_of_mem _ (List.mem_map_of_mem hy), ?_, hsame⟩
  intro heq
  simp only [List.cons.injEq, and_true] at heq
  exact hne (Prod.ext heq.1 heq.2)

/-- A proof against the root of the leaves is the one of the leaf, or has a collision
with it. -/
theorem leaf_of_verifyProof {first index : Fr} {rest : List Fr}
    (hlen : rest.length = treeDepth)
    (h : verifyProof mimc (treeRoot mimc leaves) (first :: rest) index) :
    index.val < 2 ^ treeDepth ∧
      ((first = leaves index.val ∧ rest = treePath mimc leaves index.val) ∨
        Collision mimc (hashed mimc index.val first rest)
          (hashed mimc index.val (leaves index.val) (treePath mimc leaves index.val))) := by
  obtain ⟨hlt, hclimb⟩ := verifyProof_iff.1 h
  rw [hlen] at hlt
  refine ⟨hlt, ?_⟩
  cases member_of_climb (leafLevel mimc leaves) hlt hlen hclimb with
  | inr hclash => exact Or.inr (collision_of_clash hclash)
  | inl hsame =>
      by_cases hfirst : first = leaves index.val
      · exact Or.inl ⟨hfirst, hsame.2⟩
      · refine Or.inr ⟨[first], List.mem_cons_self, [leaves index.val], List.mem_cons_self, ?_,
          hsame.1⟩
        intro heq
        exact hfirst (List.cons.inj heq).1

/-- The siblings of a leaf are a proof of it. -/
theorem verifyProof_treePath {i : Nat} (hi : i < 2 ^ treeDepth) :
    verifyProof mimc (treeRoot mimc leaves) (leaves i :: treePath mimc leaves i) (i : Fr) := by
  have hsmall : 2 ^ treeDepth < bn254Prime := by decide
  have hval : (i : Fr).val = i := ZMod.val_cast_of_lt (by omega)
  rw [verifyProof_iff, hval, treePath, path_length]
  exact ⟨hi, climb_path treeDepth (leafLevel mimc leaves) hi⟩

end Tree

/-! ## The circuit over a list of addresses -/

/-- Twenty bytes. -/
def Address : Type := { bs : List UInt8 // bs.length = EthereumAddrLen }

/-- The leaf of an address. -/
def Address.leaf (a : Address) : Fr := ((setBytes a.1 : Nat) : Fr)

theorem Address.leaf_injective : Function.Injective Address.leaf := by
  intro a b h
  exact Subtype.ext (address_cast_inj a.2 b.2 h)

/-- The Ethereum address of 64 bytes. -/
def Address.of (pub : List UInt8) : Address := ⟨ethereumAddress pub, ethereumAddress_length pub⟩

/-- The items of the path that the circuit uses: all but the first. -/
def Circuit.siblings (c : Circuit) : List Fr := (List.ofFn c.path).drop 1

theorem Circuit.siblings_length (c : Circuit) : c.siblings.length = treeDepth := by
  rw [siblings, List.length_drop, List.length_ofFn]
  rfl

section Listed

variable {gadgets : Gadgets} {addresses : Nat → Address}

/-- The leaves over a list of addresses. -/
def leavesOf (addresses : Nat → Address) (i : Nat) : Fr := (addresses i).leaf

/-- **What a satisfied circuit shows.**  Against the root of a tree over listed
addresses, the index is one of the list, and the address there is that of the 64
bytes that the hint gave, with the siblings of the tree; or the path of the prover
and that of the tree hold two different inputs with the same hash. -/
theorem member_of_satisfied {c : Circuit} {res : AffinePoint} {hintOutputs digest : List Fr}
    (h : Satisfied gadgets c res hintOutputs digest)
    (hroot : c.rootHash = treeRoot gadgets.mimc (leavesOf addresses)) :
    ∃ bs : List UInt8, bs.length = PubKeyBytesLen ∧ hintOutputs = bs.map byteVar ∧
      c.index.val < 2 ^ treeDepth ∧
      ((addresses c.index.val = Address.of bs ∧
          c.siblings = treePath gadgets.mimc (leavesOf addresses) c.index.val) ∨
        Collision gadgets.mimc (hashed gadgets.mimc c.index.val (Address.of bs).leaf c.siblings)
          (hashed gadgets.mimc c.index.val (addresses c.index.val).leaf
            (treePath gadgets.mimc (leavesOf addresses) c.index.val))) := by
  obtain ⟨bs, hinput, hdigest⟩ := h.hashed
  have hlen : bs.length = PubKeyBytesLen := by
    rw [← h.hint_length, hinput, List.length_map]
  have haddress : addressVar digest = (Address.of bs).leaf := by
    rw [hdigest, leaf_eq_address]
    rfl
  have hmember := h.member
  rw [Circuit.merklePath, haddress, hroot] at hmember
  obtain ⟨hlt, hrest⟩ := leaf_of_verifyProof c.siblings_length hmember
  refine ⟨bs, hlen, hinput, hlt, ?_⟩
  cases hrest with
  | inl hsame => exact Or.inl ⟨(Address.leaf_injective hsame.1).symm, hsame.2⟩
  | inr hcollision => exact Or.inr hcollision

/-- The assignment of the owner of a key, with the path that the owner of the tree
gives; the first item of the path is never used. -/
def Circuit.honest (gadgets : Gadgets) (addresses : Nat → Address) (message : Nat) (v : Fr)
    (r s : Nat) (res : AffinePoint) (i : Nat) (unused : Fr) : Circuit where
  message := message
  v := v
  r := r
  s := s
  expected := res
  rootHash := treeRoot gadgets.mimc (leavesOf addresses)
  index := (i : Fr)
  path := fun k => (unused :: treePath gadgets.mimc (leavesOf addresses) i).getD k.val 0
  projectId := (FancasterProjectID : Fr)

theorem honest_siblings {message r s i : Nat} {v unused : Fr} {res : AffinePoint} :
    (Circuit.honest gadgets addresses message v r s res i unused).siblings =
      treePath gadgets.mimc (leavesOf addresses) i := by
  have hlen : (treePath gadgets.mimc (leavesOf addresses) i).length = treeDepth :=
    path_length _ _ _
  refine List.ext_getElem ?_ (fun k hk hk' => ?_)
  · rw [Circuit.siblings_length, hlen]
  · simp only [Circuit.siblings, List.getElem_drop, List.getElem_ofFn, Circuit.honest]
    rw [Nat.add_comm 1 k, List.getD_cons_succ, List.getD_eq_getElem?_getD,
      List.getElem?_eq_getElem hk', Option.getD_some]

/-- The honest path is a proof of the address. -/
theorem honest_member {message r s i : Nat} {v : Fr} {res : AffinePoint}
    (hi : i < 2 ^ treeDepth) (haddress : addresses i = Address.of res.encode) (unused : Fr) :
    verifyProof gadgets.mimc (treeRoot gadgets.mimc (leavesOf addresses))
      ((Circuit.honest gadgets addresses message v r s res i unused).merklePath
        ((keccak256 res.encode).map byteVar)) (i : Fr) := by
  have hleaf : addressVar ((keccak256 res.encode).map byteVar) = leavesOf addresses i := by
    rw [leaf_eq_address, leavesOf, haddress]
    rfl
  have hpath : (Circuit.honest gadgets addresses message v r s res i unused).merklePath
      ((keccak256 res.encode).map byteVar) =
      leavesOf addresses i :: treePath gadgets.mimc (leavesOf addresses) i := by
    rw [Circuit.merklePath, hleaf]
    exact congrArg _ honest_siblings
  rw [hpath]
  exact verifyProof_treePath hi

theorem encode_length (p : AffinePoint) : p.encode.length = PubKeyBytesLen := by
  rw [AffinePoint.encode, List.length_append, length_beBytes, length_beBytes]
  rfl

/-- **The owner of a listed address can satisfy the circuit**, with an honest hint:
whoever has a signature from which a key is recovered whose address is in the list. -/
theorem satisfied_of_member {message r s i : Nat} {v : Fr} {res : AffinePoint}
    (hi : i < 2 ^ treeDepth) (hrecovered : gadgets.ecRecover message v r s res)
    (haddress : addresses i = Address.of res.encode) (unused : Fr) :
    Satisfied gadgets (Circuit.honest gadgets addresses message v r s res i unused) res
      (res.encode.map byteVar) ((keccak256 res.encode).map byteVar) where
  projectId := rfl
  recovered := hrecovered
  expected := rfl
  hint_length := by rw [List.length_map, encode_length]
  hashed := ⟨res.encode, rfl, rfl⟩
  member := honest_member hi haddress unused

end Listed

/-! ### A list with the key 1 -/

/-- The generator at index 5, and the address of no bytes elsewhere. -/
def smallList (i : Nat) : Address := if i = 5 then .of generator.encode else .of []

theorem satisfied_of_member_small :
    Satisfied (signatureGadgets List.sum)
      (.honest (signatureGadgets List.sum) smallList 1 27 nonceX signatureS generator 5 0)
      generator (generator.encode.map byteVar) ((keccak256 generator.encode).map byteVar) :=
  @satisfied_of_member (signatureGadgets List.sum) smallList 1 nonceX signatureS 5 27 generator
    (by decide) ⟨rfl, rfl, rfl, rfl, rfl⟩ rfl 0

/-- The address that the circuit is about is the one at index 5, or the two paths collide. -/
theorem member_of_satisfied_small : ∃ (c : Circuit) (bs : List UInt8),
    Satisfied (signatureGadgets List.sum) c generator (generator.encode.map byteVar)
      ((keccak256 generator.encode).map byteVar) ∧
    c.index.val = 5 ∧ bs.length = PubKeyBytesLen ∧
    generator.encode.map byteVar = bs.map byteVar ∧
    ((smallList 5 = Address.of bs ∧
        c.siblings = treePath (signatureGadgets List.sum).mimc (leavesOf smallList) 5) ∨
      Collision (signatureGadgets List.sum).mimc
        (hashed (signatureGadgets List.sum).mimc 5 (Address.of bs).leaf c.siblings)
        (hashed (signatureGadgets List.sum).mimc 5 (smallList 5).leaf
          (treePath (signatureGadgets List.sum).mimc (leavesOf smallList) 5))) := by
  have hsatisfied : Satisfied (signatureGadgets List.sum)
      (.honest (signatureGadgets List.sum) smallList 1 27 nonceX signatureS generator 5 0)
      generator (generator.encode.map byteVar) ((keccak256 generator.encode).map byteVar) :=
    ⟨rfl, ⟨rfl, rfl, rfl, rfl, rfl⟩, rfl, by rw [List.length_map, encode_length],
      ⟨_, rfl, rfl⟩, honest_member (by decide) rfl 0⟩
  obtain ⟨bs, hlen, hinput, -, hmember⟩ := member_of_satisfied hsatisfied rfl
  exact ⟨_, bs, hsatisfied, rfl, hlen, hinput, hmember⟩

end ProverNetwork.Ports.TakoGnarkEcdsa
