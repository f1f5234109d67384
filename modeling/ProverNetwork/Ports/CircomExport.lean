import ProverNetwork.Ports.ParseWtns
import ProverNetwork.Ports.ProverClient
import ProverNetwork.Verified.Hex

/-!
# What the circom prover sends back

Once there is a proof, a handler writes it and the public values into its
response: as a list of decimal strings for a Solidity verifier, or as the JSON
list of the numbers that the witness file holds.

gnark, and the JSON and the bytes of a proof, are parameters.

## Main results

* `runProveExportResult_eq` — the exported list is the eight numbers of the proof
  and the public values.
* `parseWtns_public` — the public values of a witness file.
-/

namespace ProverNetwork.Ports.CircomExport

open ProverNetwork.Verified
open ProverNetwork.Ports.CircomR1CS
open ProverNetwork.Ports.ProveService

def STATUS_CODE_TO_PUBLIC_WITNESS_ERROR : Int := 100007

/-- `e.SetBytes(bs)` and `e.BigInt(..)`: big-endian bytes, reduced. -/
def elementOfBytes (bs : List UInt8) : Nat := setBytes bs % bn254Prime

/-- `bs[32*i : 32*(i+1)]`. -/
def word (bs : List UInt8) (i : Nat) : List UInt8 := (bs.drop (32 * i)).take 32

/-- `RunProveExportResult`, on what `MarshalSolidity` and `MarshalBinary` return and
the length of the public vector. -/
def runProveExportResult (marshalSolidity : List UInt8)
    (marshalBinary : Except String (List UInt8)) (nbPublicInputs : Nat) : Go (List String) :=
  let proofStr := Hex.encode marshalSolidity
  match marshalBinary with
  | .error err => .error (.panicked err)
  | .ok bPublicWitness =>
      if bPublicWitness.length < 12 then .error .sliceBounds
      else
        let publicWitnessStr := Hex.encode (bPublicWitness.drop 12)
        match Hex.decode proofStr with
        | .error _ => .error (.panicked "encoding/hex")
        | .ok proofBytes =>
            if proofBytes.length ≠ 32 * 8 then .error (.panicked "proofBytes != fpSize*8")
            else
              match Hex.decode publicWitnessStr with
              | .error _ => .error (.panicked "encoding/hex")
              | .ok inputBytes =>
                  if inputBytes.length % 32 ≠ 0 then
                    .error (.panicked "inputBytes mod fr.Bytes !=0")
                  else if inputBytes.length / 32 ≠ nbPublicInputs then
                    .error (.panicked "nbInputs != nbPublicInputs")
                  else
                    let input := (List.range nbPublicInputs).map (fun i =>
                      elementOfBytes (word inputBytes i))
                    let proof := (List.range 8).map (fun i => setBytes (word proofBytes i))
                    .ok (proof.map toString ++ input.map toString)

/-- `json.Marshal` of strings that need no escapes. -/
def marshalStrings (items : List String) : String :=
  "[" ++ ",".intercalate (items.map (fun item => "\"" ++ item ++ "\"")) ++ "]"

/-- `json.Marshal(w.WitnessPublic)`; a value that was never read is nil. -/
def marshalVariables (witnessPublic : List (Option Nat)) : String :=
  "[" ++ ",".intercalate (witnessPublic.map (fun v => (v.map toString).getD "null")) ++ "]"

/-! ## The responses -/

/-- gnark, as the handlers call it on their way to a response. -/
structure Gnark (Proof : Type) where
  /-- the vector of `frontend.NewWitness(&w, .., frontend.PublicOnly())` -/
  newPublicWitness : List (Option Nat) → Except String (List Nat)
  marshalSolidity : Proof → List UInt8
  marshalBinary : List Nat → Except String (List UInt8)

/-- What gnark documents: a vector holds the residues of the values, a proof
without commitments has eight words, and a binary witness a header of 12 bytes and
the canonical elements. -/
structure Gnark.Documented {Proof : Type} (gnark : Gnark Proof) : Prop where
  newPublicWitness : ∀ values : List Nat,
    gnark.newPublicWitness (values.map some) = .ok (values.map (· % bn254Prime))
  marshalSolidity : ∀ proof, (gnark.marshalSolidity proof).length = 256
  marshalBinary : ∀ vector, (∀ x ∈ vector, x < bn254Prime) → ∃ header : List UInt8,
    header.length = 12 ∧ gnark.marshalBinary vector = .ok (header ++ vector.flatMap (beBytes 32))

/-- The proofs of a witness, as each handler makes one, with their JSON and bytes. -/
structure Proofs (Proof : Type) where
  nosha256 : Proof
  withWitnessJson : String
  offchainBytes : List UInt8
  v2 : Proof
  v2Json : String
  v2Bytes : List UInt8
  v2PublicWitnessBytes : List UInt8
  withWitnessJson_ne : withWitnessJson ≠ ""
  offchainBytes_ne : offchainBytes ≠ []
  v2Json_ne : v2Json ≠ ""

section Responses

variable {Proof : Type} (gnark : Gnark Proof) (proofs : Proofs Proof)

/-- The end of `ProveNosha256`. -/
def proveNosha256Response (witnessPublic : List (Option Nat)) : Go ProveResponse :=
  match gnark.newPublicWitness witnessPublic with
  | .error _ => .ok ⟨STATUS_CODE_TO_PUBLIC_WITNESS_ERROR, "Error Public Witness", ""⟩
  | .ok publicWitness => do
      let rawProofSolidity ← runProveExportResult (gnark.marshalSolidity proofs.nosha256)
        (gnark.marshalBinary publicWitness) publicWitness.length
      .ok ⟨0, "Successfully", marshalStrings rawProofSolidity⟩

/-- The end of `ProveNosha256WithWitness`. -/
def proveNosha256WithWitnessResponse (witnessPublic : List (Option Nat)) :
    ProveNosha256WithWitnessResponse where
  code := 0
  msg := "Successfully"
  witness := marshalVariables witnessPublic
  proof := proofs.withWitnessJson

/-- The end of `ProveNosha256Offchain`. -/
def proveNosha256OffchainResponse (witnessPublic : List (Option Nat)) :
    ProveNosha256OffchainResponse where
  code := 0
  msg := "Successfully"
  witness := marshalVariables witnessPublic
  proof := proofs.offchainBytes

/-- The end of `ProveV2`. -/
def proveV2Response (witnessPublic : List (Option Nat)) : Go ProveResponseV2 :=
  match gnark.newPublicWitness witnessPublic with
  | .error _ =>
      .ok ⟨STATUS_CODE_TO_PUBLIC_WITNESS_ERROR, "Error Public Witness", "", "", [], "", []⟩
  | .ok publicWitness => do
      let rawProofSolidity ← runProveExportResult (gnark.marshalSolidity proofs.v2)
        (gnark.marshalBinary publicWitness) publicWitness.length
      .ok ⟨0, "Successfully", proofs.v2Json, marshalStrings rawProofSolidity, proofs.v2Bytes,
        marshalVariables witnessPublic, proofs.v2PublicWitnessBytes⟩

end Responses

/-! ## The exported list -/

/-- The numbers of a Solidity proof. -/
def proofNumbers (marshalSolidity : List UInt8) : List Nat :=
  (List.range 8).map (fun i => setBytes (word marshalSolidity i))

theorem length_proofNumbers (bs : List UInt8) : (proofNumbers bs).length = 8 := by
  rw [proofNumbers, List.length_map, List.length_range]

theorem bn254Prime_lt : bn254Prime < 256 ^ 32 := by decide

/-- **The exported list** is the eight numbers of the proof and the public values. -/
theorem runProveExportResult_eq {solidity header : List UInt8} {values : List Nat}
    (hsolidity : solidity.length = 256) (hheader : header.length = 12)
    (hvalues : ∀ x ∈ values, x < bn254Prime) :
    runProveExportResult solidity (.ok (header ++ values.flatMap (beBytes 32))) values.length =
      .ok ((proofNumbers solidity ++ values).map toString) := by
  have hlength : (values.flatMap (beBytes 32)).length = 32 * values.length := by
    rw [List.length_flatMap]
    simp [Nat.mul_comm]
  have hdrop : (header ++ values.flatMap (beBytes 32)).drop 12 = values.flatMap (beBytes 32) :=
    List.drop_left' hheader
  have hwide : ∀ x ∈ values, x < 256 ^ 32 :=
    fun x hx => Nat.lt_trans (hvalues x hx) bn254Prime_lt
  have hinput : (List.range values.length).map (fun i =>
      elementOfBytes (word (values.flatMap (beBytes 32)) i)) = values := by
    have hwords := congrArg (List.map (· % bn254Prime)) (map_words 32 hwide)
    have hreduced : values.map (· % bn254Prime) = values := by
      conv_rhs => rw [← List.map_id values]
      exact List.map_congr_left (fun x hx => Nat.mod_eq_of_lt (hvalues x hx))
    rw [hreduced, List.map_map] at hwords
    exact hwords
  have hbounds : ¬(header ++ values.flatMap (beBytes 32)).length < 12 := by
    rw [List.length_append, hheader]
    omega
  unfold runProveExportResult
  simp only [Hex.decode_encode, hdrop, if_neg hbounds, hsolidity, hlength, Nat.mul_mod_right,
    Nat.mul_div_cancel_left values.length (Nat.zero_lt_succ 31), hinput, ne_eq,
    not_true_eq_false, if_false, List.map_append, proofNumbers]

/-! ## The witness file -/

/-- The public values of the wires, of which there are `k`. -/
def publicValues (k : Nat) (w : List Nat) : List Nat := (w.drop 1).take k

theorem publicWires_eq {k : Nat} {w : List Nat} (hk : 1 + k ≤ w.length) :
    publicWires k w = (publicValues k w).map some := by
  apply List.ext_getElem?
  intro j
  rw [getElem?_publicWires, List.getElem?_map, publicValues, List.getElem?_take,
    List.getElem?_drop]
  by_cases hj : j < k
  · have hlt : j + 1 < w.length := by omega
    rw [if_pos hj, if_pos hj, Nat.add_comm 1 j, List.getElem?_eq_getElem hlt]
    rfl
  · rw [if_neg hj, if_neg hj]
    rfl

/-- **The public values of a witness file.** -/
theorem parseWtns_public {file : Slice UInt8} {version : Nat} {w : List Nat}
    {numOutput numInPublic : Nat} (hfile : file.toList = encodeWtns version w)
    (hlen : w.length < 2 ^ 32) (hcount : 1 + (numOutput + numInPublic) ≤ w.length)
    (hw : ∀ x ∈ w, x < 256 ^ 32) :
    parseWtns (.ok file) numOutput numInPublic =
      .ok (.ok (privateWires (numOutput + numInPublic) w,
        (publicValues (numOutput + numInPublic) w).map some)) := by
  rw [← publicWires_eq hcount]
  exact parseWtns_file hfile hlen hcount hw

end ProverNetwork.Ports.CircomExport
