import ProverNetwork.Ports.CircomExport
import ProverNetwork.Ports.ProveServiceAnswers

/-!
# The project that a proof is credited to

A method of the prove service takes the id of the project from the last item of
a list: of the exported proof, whose items are strings, or of the public
witness, whose items are numbers.

## Main results

* `creditedId_of_items` — the id, from the list that a text is read as.
* `variants_credit_alike` — the four variants pass on the last public value of
  the witness.
-/

namespace ProverNetwork.Ports.ProveService

open ProverNetwork.Verified
open ProverNetwork.Ports.CircomExport
open ProverNetwork.Ports.CircomR1CS
open ProverNetwork.Ports.ProjectManager

section Credit

variable {Pub Priv : Type}

/-- `str(project_id)` of the id that a method passes to `get_project`. -/
def creditedId (m : Method) (node : Node Pub Priv) (reply : ProverReply) :
    Except PyError String := do
  let text ← loadsText node (m.attributed reply)
  let project_id ← lastItem text
  return node.format project_id

/-- The name and the verifiers that a method answers with. -/
def creditedProject (m : Method) (node : Node Pub Priv) (reply : ProverReply) :
    Except PyError (PyVal × PyVal) :=
  (credit m node reply).map (fun result => (result.project_name, result.verifiers))

/-- The project under an id. -/
def projectUnder (node : Node Pub Priv) (project_id : String) : Except PyError (PyVal × PyVal) := do
  let project ← getProject node.projects project_id
  let project_name ← member "project_name" project
  let verifiers ← member "verifiers" project
  return (project_name, verifiers)

/-- **A reply with a proof is credited by its id alone.** -/
theorem creditedProject_eq {m : Method} {node : Node Pub Priv} {reply : ProverReply}
    (hproof : reply.hasProof = true) :
    creditedProject m node reply = (creditedId m node reply).bind (projectUnder node) := by
  show (fun result => (result.project_name, result.verifiers)) <$> credit m node reply =
    creditedId m node reply >>= projectUnder node
  unfold credit creditedId projectUnder
  rw [if_pos hproof]
  simp only [map_bind, bind_assoc, pure_bind, map_pure]

theorem creditedId_of_items {m : Method} {node : Node Pub Priv} {reply : ProverReply}
    {text : String} {items : List PyVal} {last : PyVal}
    (htext : m.attributed reply = some (.str text))
    (hloads : node.libs.loads text = some (.list items)) (hlast : items.getLast? = some last) :
    creditedId m node reply = .ok (node.format last) := by
  unfold creditedId loadsText lastItem
  rw [htext]
  simp only [hloads, orRaise, bind, Except.bind, hlast]
  rfl

/-- A reply with a proof is credited to the project of the last item. -/
theorem credited_of_items {m : Method} {node : Node Pub Priv} {reply : ProverReply}
    {text project_id : String} {items : List PyVal} {last : PyVal} (hproof : reply.hasProof = true)
    (htext : m.attributed reply = some (.str text))
    (hloads : node.libs.loads text = some (.list items)) (hlast : items.getLast? = some last)
    (hid : node.format last = project_id) :
    creditedId m node reply = .ok project_id ∧
      creditedProject m node reply = projectUnder node project_id := by
  have hcredited := creditedId_of_items htext hloads hlast
  rw [hid] at hcredited
  refine ⟨hcredited, ?_⟩
  rw [creditedProject_eq hproof, hcredited]
  rfl

/-- `str` of a string and of an integer. -/
structure Node.FormatsAsStr (node : Node Pub Priv) : Prop where
  str : ∀ s, node.format (.str s) = s
  int : ∀ n : Int, node.format (.int n) = toString n

/-- `ujson.loads` reads back the strings of a proof and the integers of a witness. -/
structure Node.Reads (node : Node Pub Priv) (exported values : List Nat) : Prop where
  strings : node.libs.loads (marshalStrings (exported.map toString)) =
    some (.list (exported.map (fun n => .str (toString n))))
  integers : node.libs.loads (marshalVariables (values.map some)) =
    some (.list (values.map (fun n : Nat => .int n)))

section Variants

variable {Proof : Type} (gnark : Gnark Proof) (proofs : Proofs Proof)

/-- The methods with what the prover replies to each. -/
def replies (witnessPublic : List (Option Nat)) : Go (List (Method × ProverReply)) := do
  let nosha256 ← proveNosha256Response gnark proofs witnessPublic
  let v2 ← proveV2Response gnark proofs witnessPublic
  return [(proveNosha256, nosha256.result),
    (proveNosha256WithWitness, (proveNosha256WithWitnessResponse proofs witnessPublic).result),
    (proveNosha256Offchain, (proveNosha256OffchainResponse proofs witnessPublic).result),
    (proveOfV2, v2.result)]

variable {gnark}

/-- The list that `ProveNosha256` or `ProveV2` exports. -/
theorem exported_eq (documented : gnark.Documented) (proof : Proof) {values : List Nat}
    (hvalues : ∀ x ∈ values, x < bn254Prime) :
    gnark.newPublicWitness (values.map some) = .ok values ∧
      runProveExportResult (gnark.marshalSolidity proof) (gnark.marshalBinary values)
          values.length =
        .ok ((proofNumbers (gnark.marshalSolidity proof) ++ values).map toString) := by
  have hreduced : values.map (· % bn254Prime) = values := by
    conv_rhs => rw [← List.map_id values]
    exact List.map_congr_left (fun x hx => Nat.mod_eq_of_lt (hvalues x hx))
  obtain ⟨header, hheader, hbinary⟩ := documented.marshalBinary values hvalues
  rw [documented.newPublicWitness, hreduced, hbinary]
  exact ⟨rfl, runProveExportResult_eq (documented.marshalSolidity proof) hheader hvalues⟩

theorem marshalStrings_ne (items : List String) : marshalStrings items ≠ "" := by
  intro h
  have hlist := congrArg String.toList h
  rw [marshalStrings, String.toList_append, String.toList_append] at hlist
  cases hlist

theorem hasProof_str {reply : ProverReply} {s : String} (hne : s ≠ "")
    (hproof : reply.proof = some (.str s)) : reply.hasProof = true := by
  rw [ProverReply.hasProof, hproof]
  exact decide_eq_true hne

theorem hasProof_bytes {reply : ProverReply} {bs : List UInt8} (hne : bs ≠ [])
    (hproof : reply.proof = some (.bytes bs)) : reply.hasProof = true := by
  rw [ProverReply.hasProof, hproof]
  cases bs with
  | nil => exact absurd rfl hne
  | cons b bs => rfl

theorem proveNosha256Response_eq (documented : gnark.Documented) {values : List Nat}
    (hvalues : ∀ x ∈ values, x < bn254Prime) :
    proveNosha256Response gnark proofs (values.map some) =
      .ok ⟨0, "Successfully", marshalStrings
        ((proofNumbers (gnark.marshalSolidity proofs.nosha256) ++ values).map toString)⟩ := by
  obtain ⟨hvector, hexport⟩ := exported_eq documented proofs.nosha256 hvalues
  unfold proveNosha256Response
  rw [hvector]
  simp only [hexport]
  rfl

theorem proveV2Response_eq (documented : gnark.Documented) {values : List Nat}
    (hvalues : ∀ x ∈ values, x < bn254Prime) :
    proveV2Response gnark proofs (values.map some) =
      .ok ⟨0, "Successfully", proofs.v2Json, marshalStrings
        ((proofNumbers (gnark.marshalSolidity proofs.v2) ++ values).map toString), proofs.v2Bytes,
        marshalVariables (values.map some), proofs.v2PublicWitnessBytes⟩ := by
  obtain ⟨hvector, hexport⟩ := exported_eq documented proofs.v2 hvalues
  unfold proveV2Response
  rw [hvector]
  simp only [hexport]
  rfl

/-- The replies to the four methods carry the public values as their texts. -/
theorem replies_eq (documented : gnark.Documented) {values : List Nat}
    (hvalues : ∀ x ∈ values, x < bn254Prime) :
    ∃ nosha256 withWitness offchain v2, replies gnark proofs (values.map some) =
        .ok [(proveNosha256, nosha256), (proveNosha256WithWitness, withWitness),
          (proveNosha256Offchain, offchain), (proveOfV2, v2)] ∧
      (nosha256.hasProof = true ∧ nosha256.proof = some (.str (marshalStrings
        ((proofNumbers (gnark.marshalSolidity proofs.nosha256) ++ values).map toString)))) ∧
      (withWitness.hasProof = true ∧
        withWitness.witness = some (marshalVariables (values.map some))) ∧
      (offchain.hasProof = true ∧ offchain.witness = some (marshalVariables (values.map some))) ∧
      (v2.hasProof = true ∧ v2.public_witness = some (marshalVariables (values.map some))) := by
  refine ⟨ProveResponse.result ⟨0, "Successfully", marshalStrings
      ((proofNumbers (gnark.marshalSolidity proofs.nosha256) ++ values).map toString)⟩,
    (proveNosha256WithWitnessResponse proofs (values.map some)).result,
    (proveNosha256OffchainResponse proofs (values.map some)).result,
    ProveResponseV2.result ⟨0, "Successfully", proofs.v2Json, marshalStrings
      ((proofNumbers (gnark.marshalSolidity proofs.v2) ++ values).map toString), proofs.v2Bytes,
      marshalVariables (values.map some), proofs.v2PublicWitnessBytes⟩,
    ?_, ⟨hasProof_str (marshalStrings_ne _) rfl, rfl⟩,
    ⟨hasProof_str proofs.withWitnessJson_ne rfl, rfl⟩,
    ⟨hasProof_bytes proofs.offchainBytes_ne rfl, rfl⟩, ⟨hasProof_str proofs.v2Json_ne rfl, rfl⟩⟩
  rw [replies, proveNosha256Response_eq proofs documented hvalues,
    proveV2Response_eq proofs documented hvalues]
  rfl

/-- **All variants credit the same project.**  From the witness file of a circuit
with a public signal, the prover exports eight numbers of the proof and then the
public values; and each of the four methods passes the last public value to
`get_project`, so they answer with one name and one list of verifiers. -/
theorem variants_credit_alike {node : Node Pub Priv}
    {file : Slice UInt8} {version numOutput numInPublic : Nat} {w : List Nat}
    (documented : gnark.Documented) (hformat : node.FormatsAsStr)
    (hfile : file.toList = encodeWtns version w) (hlen : w.length < 2 ^ 32)
    (hcount : 1 + (numOutput + numInPublic) ≤ w.length) (hpublic : 0 < numOutput + numInPublic)
    (hwords : ∀ x ∈ w, x < 256 ^ 32)
    (hvalues : ∀ x ∈ publicValues (numOutput + numInPublic) w, x < bn254Prime)
    (hreads : node.Reads (proofNumbers (gnark.marshalSolidity proofs.nosha256) ++
        publicValues (numOutput + numInPublic) w) (publicValues (numOutput + numInPublic) w)) :
    ∃ values last, values = publicValues (numOutput + numInPublic) w ∧
      values.getLast? = some last ∧
      parseWtns (.ok file) numOutput numInPublic =
        .ok (.ok (privateWires (numOutput + numInPublic) w, values.map some)) ∧
      (∃ numbers : List Nat, numbers.length = 8 ∧
        proveNosha256Response gnark proofs (values.map some) =
          .ok ⟨0, "Successfully", marshalStrings ((numbers ++ values).map toString)⟩) ∧
      ∃ variants, replies gnark proofs (values.map some) = .ok variants ∧
        variants.map Prod.fst =
          [proveNosha256, proveNosha256WithWitness, proveNosha256Offchain, proveOfV2] ∧
        ∀ v ∈ variants, creditedId v.1 node v.2 = .ok (toString last) ∧
          creditedProject v.1 node v.2 = projectUnder node (toString last) := by
  have hk : (publicValues (numOutput + numInPublic) w).length = numOutput + numInPublic := by
    rw [publicValues, List.length_take, List.length_drop]
    omega
  have hparse := parseWtns_public hfile hlen hcount hwords
  generalize publicValues (numOutput + numInPublic) w = values at hk hvalues hparse hreads
  have hne : values ≠ [] := by
    rintro rfl
    rw [List.length_nil] at hk
    omega
  have hlast : values.getLast? = some (values.getLast hne) := List.getLast?_eq_some_getLast hne
  have hstrings : ((proofNumbers (gnark.marshalSolidity proofs.nosha256) ++ values).map
        (fun n => PyVal.str (toString n))).getLast? =
      some (.str (toString (values.getLast hne))) := by
    rw [List.getLast?_map, List.getLast?_append, hlast]
    rfl
  have hintegers : (values.map (fun n : Nat => PyVal.int n)).getLast? =
      some (.int (values.getLast hne)) := by
    rw [List.getLast?_map, hlast]
    rfl
  have hint : node.format (.int (values.getLast hne)) = toString (values.getLast hne) :=
    hformat.int _
  obtain ⟨nosha256, withWitness, offchain, v2, hreplies, ⟨hproof1, htext1⟩, ⟨hproof2, htext2⟩,
    ⟨hproof3, htext3⟩, hproof4, htext4⟩ := replies_eq proofs documented hvalues
  refine ⟨values, values.getLast hne, rfl, hlast, hparse, ⟨_, length_proofNumbers _,
    proveNosha256Response_eq proofs documented hvalues⟩, _, hreplies, rfl, ?_⟩
  simp only [List.forall_mem_cons]
  refine ⟨?_, ?_, ?_, ?_, List.forall_mem_nil _⟩
  · exact credited_of_items hproof1 htext1 hreads.strings hstrings (hformat.str _)
  · exact credited_of_items hproof2 (congrArg (Option.map Text.str) htext2) hreads.integers
      hintegers hint
  · exact credited_of_items hproof3 (congrArg (Option.map Text.str) htext3) hreads.integers
      hintegers hint
  · exact credited_of_items hproof4 (congrArg (Option.map Text.str) htext4) hreads.integers
      hintegers hint

end Variants

end Credit

/-- gnark on vectors of residues, with a proof of zeros. -/
def vectorGnark : Gnark Unit where
  newPublicWitness values := .ok (values.map (fun v => v.getD 0 % bn254Prime))
  marshalSolidity _ := List.replicate 256 0
  marshalBinary vector := .ok (beBytes 4 vector.length ++ beBytes 4 0 ++
    beBytes 4 vector.length ++ vector.flatMap (beBytes 32))

theorem vectorGnark_documented : vectorGnark.Documented where
  newPublicWitness values := by
    simp only [vectorGnark, List.map_map]
    rfl
  marshalSolidity _ := List.length_replicate
  marshalBinary vector _ :=
    ⟨beBytes 4 vector.length ++ beBytes 4 0 ++ beBytes 4 vector.length, by simp, rfl⟩

def plainProofs : Proofs Unit where
  nosha256 := ()
  withWitnessJson := "\x7b\x7d"
  offchainBytes := [0]
  v2 := ()
  v2Json := "\x7b\x7d"
  v2Bytes := [0]
  v2PublicWitnessBytes := []
  withWitnessJson_ne := by decide
  offchainBytes_ne := by decide
  v2Json_ne := by decide

/-- A node that reads the lists of one public value, with one project. -/
def ownerNode (exported values : List Nat) : Node Unit Unit :=
  { payloadNode [] with
    libs :=
      { loads := fun s =>
          if s = marshalStrings (exported.map toString) then
            some (.list (exported.map (fun n => .str (toString n))))
          else if s = marshalVariables (values.map some) then
            some (.list (values.map (fun n : Nat => .int n)))
          else none
        publicModulus := fun _ => .error .valueError }
    projects := .dict [("10007", .dict [("project_name", .str "Tako"),
      ("verifiers", .list [.str "0x1"])])]
    format := fun v => match v with
      | .str s => s
      | .int n => toString n
      | _ => "" }

theorem ownerNode_formatsAsStr (exported values : List Nat) :
    (ownerNode exported values).FormatsAsStr where
  str _ := rfl
  int _ := rfl

theorem ownerNode_reads {exported values : List Nat}
    (h : marshalVariables (values.map some) ≠ marshalStrings (exported.map toString)) :
    (ownerNode exported values).Reads exported values where
  strings := if_pos rfl
  integers := (if_neg h).trans (if_pos rfl)

/-- The public signal of three wires is the id of a project. -/
theorem ownerNode_credits : ∃ variants,
    replies vectorGnark plainProofs [some 10007] = .ok variants ∧
      ∀ v ∈ variants, creditedId v.1 (ownerNode (List.replicate 8 0 ++ [10007]) [10007]) v.2 =
        .ok "10007" := by
  have hreads : (ownerNode (List.replicate 8 0 ++ [10007]) [10007]).Reads
      (List.replicate 8 0 ++ [10007]) [10007] := ownerNode_reads (by decide +kernel)
  have hwords : ∀ x ∈ [1, 10007, 5], x < 256 ^ 32 := by simp
  have hvalues : ∀ x ∈ publicValues (1 + 0) [1, 10007, 5], x < bn254Prime := by
    simp [publicValues, bn254Prime]
  have hnumbers : proofNumbers (vectorGnark.marshalSolidity plainProofs.nosha256) ++
      publicValues (1 + 0) [1, 10007, 5] = List.replicate 8 0 ++ [10007] := by decide +kernel
  obtain ⟨values, last, rfl, hlast, -, -, variants, hreplies, -, hcredits⟩ :=
    variants_credit_alike plainProofs vectorGnark_documented
      (ownerNode_formatsAsStr (List.replicate 8 0 ++ [10007]) [10007])
      (Slice.toList_ofList (encodeWtns 2 [1, 10007, 5])) (by decide) (by decide)
      (by decide) hwords hvalues (hnumbers ▸ hreads)
  have hlast : last = 10007 := (Option.some.inj hlast).symm
  rw [hlast] at hcredits
  exact ⟨variants, hreplies, fun v hv => (hcredits v hv).1⟩

end ProverNetwork.Ports.ProveService
