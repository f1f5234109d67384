import ProverNetwork.Ports.GnarkProverAnswers

/-!
# The Solidity export of the gnark prover

A proof is written as eight words and, where the circuit commits, a counter, the
commitments and their proof of knowledge.  `RunProveExportResult`, the same in both
builds, reads one commitment and takes the next two words for the proof of knowledge,
whatever the counter says.

The 12 bytes in front of the public inputs are arbitrary.

## Main results

* `rebuild_numbers` — the bytes of a proof can be rebuilt from its numbers.
* `export_committed` — what is exported of a proof with commitments.
* `exports_iff` — which proofs are exported in full.
-/

namespace ProverNetwork.Ports.GnarkProver

open ProverNetwork.Verified

/-! ## Words -/

/-- The first `n` words of a byte string. -/
def words (n : Nat) (bs : List UInt8) : List Nat :=
  (List.range n).map (fun i => wordAt bs (32 * i))

@[simp] theorem length_words (n : Nat) (bs : List UInt8) : (words n bs).length = n := by
  rw [words, List.length_map, List.length_range]

theorem words_succ (n : Nat) (bs : List UInt8) :
    words (n + 1) bs = wordAt bs 0 :: words n (bs.drop 32) := by
  rw [words, List.range_succ_eq_map, List.map_cons, List.map_map]
  refine congrArg (_ :: ·) (List.map_congr_left (fun i _ => ?_))
  show wordAt bs (32 * (i + 1)) = wordAt (bs.drop 32) (32 * i)
  rw [wordAt, wordAt, List.drop_drop, Nat.mul_succ, Nat.add_comm]

/-- Words in front of a byte string are its own. -/
theorem words_append_left {n : Nat} {as : List UInt8} (h : 32 * n ≤ as.length)
    (bs : List UInt8) : words n (as ++ bs) = words n as := by
  refine List.map_congr_left (fun i hi => ?_)
  have hlt := List.mem_range.1 hi
  rw [wordAt, wordAt, List.drop_append_of_le_length (by omega), List.take_append_of_le_length]
  rw [List.length_drop]
  omega

/-- **The words of a byte string make it up.** -/
theorem flatMap_words {n : Nat} {bs : List UInt8} (h : bs.length = 32 * n) :
    (words n bs).flatMap (beBytes 32) = bs := by
  induction n generalizing bs with
  | zero => exact (List.eq_nil_of_length_eq_zero h).symm
  | succ n ih =>
      have hrest : (bs.drop 32).length = 32 * n := by
        rw [List.length_drop]
        omega
      have hfirst : (bs.take 32).length = 32 := by
        rw [List.length_take]
        omega
      rw [words_succ, List.flatMap_cons, ih hrest, wordAt, List.drop_zero,
        beBytes_setBytes hfirst, List.take_append_drop]

/-- Reading words one after the other, each in range. -/
theorem readWords_ok {bytes : List UInt8} (msg : String) {n offset : Nat}
    (h : offset + 32 * n ≤ bytes.length) :
    readWords bytes msg n offset = .ok (words n (bytes.drop offset)) := by
  induction n generalizing offset with
  | zero => rfl
  | succ n ih =>
      have hword : wordAt bytes offset = wordAt (bytes.drop offset) 0 := by
        rw [wordAt, wordAt, List.drop_drop, Nat.add_zero]
      rw [readWords, if_neg (by omega), ih (by omega), words_succ, List.drop_drop, hword]
      rfl

/-! ## The encoding of a proof -/

/-- A Groth16 proof as `MarshalSolidity` writes it. -/
structure ProofEncoding where
  /-- `Ar`, `Bs` and `Krs` -/
  points : List UInt8
  commitments : List (List UInt8)
  /-- the proof of knowledge, which is written where there are commitments -/
  pok : List UInt8
  points_length : points.length = 256
  commitments_length : ∀ c ∈ commitments, c.length = 64
  pok_length : pok.length = 64
  count_lt : commitments.length < 2 ^ 32

namespace ProofEncoding

variable (e : ProofEncoding)

def bytes : List UInt8 :=
  e.points ++ if e.commitments.isEmpty then []
    else beBytes 4 e.commitments.length ++ (e.commitments.flatten ++ e.pok)

/-- The numbers of the proof, in order: the points, the coordinates of the commitments and
those of the proof of knowledge. -/
def numbers : List Nat :=
  words 8 e.points ++ if e.commitments.isEmpty then []
    else e.commitments.flatMap (words 2) ++ words 2 e.pok

variable {e}

theorem bytes_plain (h : e.commitments = []) : e.bytes = e.points := by
  rw [bytes, h]
  exact List.append_nil _

theorem bytes_committed {c : List UInt8} {cs : List (List UInt8)} (h : e.commitments = c :: cs) :
    e.bytes = e.points ++ (beBytes 4 e.commitments.length ++ ((c ++ cs.flatten) ++ e.pok)) := by
  rw [bytes, h]
  rfl

theorem numbers_plain (h : e.commitments = []) : e.numbers = words 8 e.points := by
  rw [numbers, h]
  exact List.append_nil _

theorem numbers_committed {c : List UInt8} {cs : List (List UInt8)}
    (h : e.commitments = c :: cs) :
    e.numbers = words 8 e.points ++ ((words 2 c ++ cs.flatMap (words 2)) ++ words 2 e.pok) := by
  rw [numbers, h]
  rfl

theorem length_flatMap_words (cs : List (List UInt8)) :
    (cs.flatMap (words 2)).length = 2 * cs.length := by
  rw [List.length_flatMap]
  simp [Nat.mul_comm]

theorem flatMap_commitments {cs : List (List UInt8)} (h : ∀ c ∈ cs, c.length = 64) :
    (cs.flatMap (words 2)).flatMap (beBytes 32) = cs.flatten := by
  induction cs with
  | nil => rfl
  | cons c cs ih =>
      obtain ⟨hc, hrest⟩ := List.forall_mem_cons.1 h
      rw [List.flatMap_cons, List.flatMap_append, ih hrest, flatMap_words hc, List.flatten_cons]

end ProofEncoding

/-! ## What can be rebuilt -/

/-- The bytes of a proof from the exported list and the number of public inputs. -/
def rebuild (nbPublicInputs : Nat) (list : List String) : List UInt8 :=
  let numbers := (list.take (list.length - nbPublicInputs)).map
    (fun s => Nat.ofDigitChars 10 s.toList 0)
  let committed := numbers.drop 8
  (numbers.take 8).flatMap (beBytes 32) ++ if committed.isEmpty then []
    else beBytes 4 ((committed.length - 2) / 2) ++ committed.flatMap (beBytes 32)

theorem ofDigitChars_toString (n : Nat) : Nat.ofDigitChars 10 (toString n).toList 0 = n := by
  show Nat.ofDigitChars 10 (Nat.repr n).toList 0 = n
  rw [Nat.toList_repr, Nat.ofDigitChars_ten_toDigits]

/-- **The bytes can be rebuilt** from the numbers of the proof. -/
theorem rebuild_numbers (e : ProofEncoding) (inputs : List Nat) :
    rebuild inputs.length ((e.numbers ++ inputs).map toString) = e.bytes := by
  have hread : (((e.numbers ++ inputs).map toString).take
      (((e.numbers ++ inputs).map toString).length - inputs.length)).map
        (fun s => Nat.ofDigitChars 10 s.toList 0) = e.numbers := by
    rw [List.length_map, List.length_append, Nat.add_sub_cancel, ← List.map_take,
      List.take_left' rfl, List.map_map]
    conv_rhs => rw [← List.map_id e.numbers]
    exact List.map_congr_left (fun n _ => ofDigitChars_toString n)
  rw [rebuild, hread]
  cases hcommitments : e.commitments with
  | nil =>
      rw [ProofEncoding.numbers_plain hcommitments, ProofEncoding.bytes_plain hcommitments,
        List.take_of_length_le (Nat.le_of_eq (length_words 8 _)),
        List.drop_eq_nil_of_le (Nat.le_of_eq (length_words 8 _)), flatMap_words e.points_length]
      exact List.append_nil _
  | cons c cs =>
      have hlengths := e.commitments_length
      rw [hcommitments] at hlengths
      obtain ⟨hc, hcs⟩ := List.forall_mem_cons.1 hlengths
      have hcount : (((words 2 c ++ cs.flatMap (words 2)) ++ words 2 e.pok).length - 2) / 2 =
          e.commitments.length := by
        rw [List.length_append, List.length_append, ProofEncoding.length_flatMap_words,
          length_words, length_words, hcommitments, List.length_cons]
        omega
      have hsome : ((words 2 c ++ cs.flatMap (words 2)) ++ words 2 e.pok).isEmpty = false := by
        rw [words_succ]
        rfl
      rw [ProofEncoding.numbers_committed hcommitments,
        ProofEncoding.bytes_committed hcommitments, List.take_left' (length_words 8 _),
        List.drop_left' (length_words 8 _), hsome, hcount, flatMap_words e.points_length,
        List.flatMap_append, List.flatMap_append, flatMap_words hc,
        ProofEncoding.flatMap_commitments hcs, flatMap_words e.pok_length]
      rfl

/-! ## What is exported -/

/-- The public inputs behind a header are read back. -/
theorem exportInputs_ok {header : List UInt8} (hheader : header.length = 12) (inputs : List Fr) :
    exportInputs (.ok (header ++ inputs.flatMap (fun x => beBytes 32 x.val))) inputs.length =
      .ok (inputs.map ZMod.val) := by
  have hsmall : ∀ x ∈ inputs.map ZMod.val, x < 256 ^ 32 := by
    intro x hx
    obtain ⟨y, -, rfl⟩ := List.mem_map.1 hx
    exact (ZMod.val_lt y).trans (by decide)
  have hwords := map_words 32 hsmall
  rw [List.length_map, List.flatMap_map] at hwords
  have hlength : (inputs.flatMap (fun x => beBytes 32 x.val)).length = 32 * inputs.length := by
    rw [List.length_flatMap]
    simp [Nat.mul_comm]
  have hreduced : (List.range inputs.length).map (fun i =>
      wordAt (inputs.flatMap (fun x => beBytes 32 x.val)) (32 * i) % bn254Prime) =
        inputs.map ZMod.val := by
    have hmod := congrArg (List.map (· % bn254Prime)) hwords
    rw [List.map_map, List.map_map] at hmod
    refine hmod.trans (List.map_congr_left (fun x _ => ?_))
    exact Nat.mod_eq_of_lt (ZMod.val_lt x)
  rw [exportInputs]
  dsimp only
  rw [List.drop_left' hheader, hlength, hreduced, if_neg (by rw [List.length_append]; omega),
    if_neg (by omega), if_neg (by omega)]

theorem runProveExportResult_eq {bytes header : List UInt8} (hheader : header.length = 12)
    (inputs : List Fr) (hbytes : 256 ≤ bytes.length) {commitments : List Nat}
    (hcommitments : exportCommitments bytes = .ok commitments) :
    runProveExportResult bytes (.ok (header ++ inputs.flatMap (fun x => beBytes 32 x.val)))
      inputs.length =
        .ok ((words 8 bytes ++ commitments ++ inputs.map ZMod.val).map toString) := by
  rw [runProveExportResult, exportInputs_ok hheader, Go.ok_bind, if_neg (by omega), hcommitments]
  rfl

/-- The public inputs as `MarshalBinary` writes them, behind a header. -/
def publicBytes (header : List UInt8) (inputs : List Fr) : List UInt8 :=
  header ++ inputs.flatMap (fun x => beBytes 32 x.val)

theorem export_plain {e : ProofEncoding} {header : List UInt8} (h : e.commitments = [])
    (hheader : header.length = 12) (inputs : List Fr) :
    runProveExportResult e.bytes (.ok (publicBytes header inputs)) inputs.length =
      .ok ((words 8 e.points ++ inputs.map ZMod.val).map toString) := by
  have hbytes : e.bytes.length = 256 := by
    rw [ProofEncoding.bytes_plain h]
    exact e.points_length
  have hcommitments : exportCommitments e.bytes = .ok [] := if_pos (Nat.le_of_eq hbytes)
  rw [publicBytes, runProveExportResult_eq hheader inputs (Nat.le_of_eq hbytes.symm) hcommitments,
    ProofEncoding.bytes_plain h, List.append_nil]

/-- **A proof with commitments**: the words of the first one are exported, and then the two
words behind it. -/
theorem export_committed {e : ProofEncoding} {header c : List UInt8} {cs : List (List UInt8)}
    (h : e.commitments = c :: cs) (hheader : header.length = 12) (inputs : List Fr) :
    runProveExportResult e.bytes (.ok (publicBytes header inputs)) inputs.length =
      .ok ((words 8 e.points ++ (words 2 c ++ words 2 (cs.flatten ++ e.pok)) ++
        inputs.map ZMod.val).map toString) := by
  have hc : c.length = 64 := e.commitments_length c (h ▸ List.mem_cons_self)
  have hbytes := ProofEncoding.bytes_committed h
  have hlength : 388 ≤ e.bytes.length := by
    rw [hbytes]
    simp only [List.length_append, length_beBytes, e.points_length, hc, e.pok_length]
    omega
  have hfirst : e.bytes.drop 260 = c ++ (cs.flatten ++ e.pok) := by
    have hfront : (e.points ++ beBytes 4 e.commitments.length).length = 260 := by
      rw [List.length_append, e.points_length, length_beBytes]
    rw [hbytes, ← List.append_assoc, List.drop_left' hfront, List.append_assoc]
  have hsecond : e.bytes.drop 324 = cs.flatten ++ e.pok := by
    rw [show 324 = 260 + 64 from rfl, ← List.drop_drop, hfirst, List.drop_left' hc]
  have hcommitments : exportCommitments e.bytes =
      .ok (words 2 c ++ words 2 (cs.flatten ++ e.pok)) := by
    rw [exportCommitments, if_neg (by omega), if_neg (by omega), readWords_ok _ (by omega),
      Go.ok_bind, if_neg (by omega), readWords_ok _ (by omega), Go.ok_bind, hfirst, hsecond,
      words_append_left (Nat.le_of_eq hc.symm)]
  rw [publicBytes, runProveExportResult_eq hheader inputs (by omega) hcommitments]
  rw [hbytes, words_append_left (Nat.le_of_eq e.points_length.symm)]

/-- The export stops, or it returns the numbers of the proof and then the public inputs, and
the bytes of the proof can be rebuilt from the list. -/
def Exports (e : ProofEncoding) (inputs : List Fr) (result : Go (List String)) : Prop :=
  (∃ stop, result = .error stop) ∨
    ∃ list, result = .ok list ∧ list = (e.numbers ++ inputs.map ZMod.val).map toString ∧
      rebuild inputs.length list = e.bytes

/-- **A proof is exported in full exactly where it has one commitment at most.** -/
theorem exports_iff (e : ProofEncoding) (inputs : List Fr) {header : List UInt8}
    (hheader : header.length = 12) :
    Exports e inputs
        (runProveExportResult e.bytes (.ok (publicBytes header inputs)) inputs.length) ↔
      e.commitments.length ≤ 1 := by
  have hrebuild := rebuild_numbers e (inputs.map ZMod.val)
  rw [List.length_map] at hrebuild
  cases hcommitments : e.commitments with
  | nil =>
      have hnumbers := ProofEncoding.numbers_plain hcommitments
      rw [export_plain hcommitments hheader, ← hnumbers]
      exact ⟨fun _ => Nat.zero_le 1, fun _ => Or.inr ⟨_, rfl, rfl, hrebuild⟩⟩
  | cons c cs =>
      have hnumbers := ProofEncoding.numbers_committed hcommitments
      rw [export_committed hcommitments hheader]
      constructor
      · rintro (⟨stop, hstop⟩ | ⟨list, hlist, hall, -⟩)
        · cases hstop
        · have hlength := congrArg List.length ((Except.ok.inj hlist).trans hall)
          simp only [hnumbers, List.length_map, List.length_append, length_words,
            ProofEncoding.length_flatMap_words] at hlength
          rw [List.length_cons]
          omega
      · intro hone
        have hnone : cs = [] := by
          apply List.eq_nil_of_length_eq_zero
          rw [List.length_cons] at hone
          omega
        refine Or.inr ⟨_, rfl, ?_, ?_⟩
        · rw [hnumbers, hnone]
          simp
        · rw [← hrebuild, hnumbers, hnone]
          simp

/-! ## Two commitments -/

/-- A proof whose commitments all have the same bytes. -/
def uniformProof (commitments : Nat) (h : commitments < 2 ^ 32) : ProofEncoding where
  points := List.replicate 256 1
  commitments := List.replicate commitments (List.replicate 64 2)
  pok := List.replicate 64 3
  points_length := List.length_replicate
  commitments_length c hc := by
    rw [List.eq_of_mem_replicate hc]
    exact List.length_replicate
  pok_length := List.length_replicate
  count_lt := by
    rw [List.length_replicate]
    exact h

/-- One commitment and one public input. -/
theorem oneCommitment_exported :
    Exports (uniformProof 1 (by decide)) [5]
      (runProveExportResult (uniformProof 1 (by decide)).bytes
        (.ok (publicBytes (List.replicate 12 0) [5])) 1) :=
  (exports_iff (uniformProof 1 (by decide)) [5] List.length_replicate).2 (Nat.le_refl 1)

/-- With two commitments the second one stands for the proof of knowledge. -/
theorem twoCommitments_misplaced :
    ¬Exports (uniformProof 2 (by decide)) [5]
      (runProveExportResult (uniformProof 2 (by decide)).bytes
        (.ok (publicBytes (List.replicate 12 0) [5])) 1) := by
  have hheader : (List.replicate 12 (0 : UInt8)).length = 12 := List.length_replicate
  have hexport := export_committed (e := uniformProof 2 (by decide)) rfl hheader [5]
  intro h
  rw [show (1 : Nat) = [(5 : Fr)].length from rfl, hexport] at h
  rcases h with ⟨stop, hstop⟩ | ⟨list, hlist, hall, -⟩
  · cases hstop
  · have hlength := congrArg List.length ((Except.ok.inj hlist).trans hall)
    revert hlength
    decide

end ProverNetwork.Ports.GnarkProver
