import ProverNetwork.Ports.R1CSLayout

/-!
# The files that the reader refuses

`ReadR1CS` compares the magic, the prime and the sizes of three sections; everything else
it reads is trusted.  A file that is not well formed is refused exactly where one of these
comparisons fails, or a wire is unknown to the circuit, before an index, an offset or a
count leads out of the buffer.

## Main results

* `readToCounts_gives` — when the header is read, and what it is.
* `readRest_gives` — what the constraints and the labels need.
* `define_returns_iff` — when `Define` finds every wire.
-/

namespace ProverNetwork.Ports.CircomR1CS

open ProverNetwork.Verified

/-- The run on `file` gets to the sizes of the two vectors with the header `h`. -/
def HeaderRead (file : Slice UInt8) (g : Globals) (h : Header) : Prop :=
  ∃ c, readToCounts file (fun _ => none) (fun _ h => pure (some h)) ⟨file, 0, g⟩ =
    .ok (some h, c)

/-! ## The places of the parts -/

section Places

variable (file : Slice UInt8)

def nSections : Nat := number file 8 4

/-- `sections[t]`, as read from the table. -/
def sectionAt (t : Nat) : Section := sectionOf (sectionTable file (nSections file)) t

/-- Where the body of section `t` starts. -/
def bodyOffset (t : Nat) : Nat := (sectionAt file t).offset.toNat

/-- The size of section `t` is the one that was read, which ended at `off`. -/
def EndsAt (t off : Nat) : Prop := (sectionAt file t).offset + (sectionAt file t).size = off

/-- The width of the field elements. -/
def fieldBytes : Nat := number file (bodyOffset file 1) 4

def primeOffset : Nat := bodyOffset file 1 + 4

def filePrime : Nat := number file (primeOffset file) (fieldBytes file)

def countsOffset : Nat := primeOffset file + fieldBytes file

def fileHeader : Header := headerAt file (countsOffset file)

/-- The buffer in which the constraints are read: the bytes of the prime stand reversed. -/
def afterPrime : Slice UInt8 := turned file (primeOffset file) (fieldBytes file)

/-- The number of linear combinations. -/
def nCombinations : Nat := 3 * (fileHeader file).nConstraints

/-- Where the last combination ends. -/
def constraintsEnd : Nat :=
  combinationOffset (afterPrime file) (fieldBytes file) (bodyOffset file 2) (nCombinations file)

def labelsEnd : Nat := bodyOffset file 3 + 8 * (fileHeader file).nVars

/-- The wires of all terms. -/
def fileWires : List Nat :=
  wiresBefore (afterPrime file) (fieldBytes file) (bodyOffset file 2) (nCombinations file)

/-- The section table lies inside the file. -/
structure TableInside : Prop where
  magic : file.arr.take 4 = magic
  counted : 12 ≤ file.len
  entries : ∀ i, i < nSections file → EntryInside file i

/-- So does the prime. -/
structure PrimeInside : Prop extends TableInside file where
  width : primeOffset file ≤ file.len
  prime : countsOffset file ≤ file.cap

/-- The prime is right, and the counts lie inside the file. -/
structure CountsInside : Prop extends PrimeInside file where
  prime_eq : filePrime file = bn254Prime
  counts : countsOffset file + 28 ≤ file.len

/-- The combinations lie inside the buffer as well, and the public wires are wires. -/
structure ConstraintsInside : Prop extends CountsInside file where
  header_size : EndsAt file 1 (countsOffset file + 28)
  public_le : (fileHeader file).nPubInputs + (fileHeader file).nOutputs ≤ (fileHeader file).nVars
  combinations : ∀ j, j < nCombinations file →
    CombinationFits (afterPrime file) (fieldBytes file) (bodyOffset file 2) j

/-- And the labels. -/
structure LabelsInside : Prop extends ConstraintsInside file where
  constraints_size : EndsAt file 2 (constraintsEnd file)
  labels : labelsEnd file ≤ file.len

end Places

section Returns

variable {file : Slice UInt8} {g : Globals} {α : Type} {Q : α → Prop}

theorem magic_exact {c : Cursor Globals} : Exact (Scan.liftGo (file.subslice 0 4)) c
    (4 ≤ file.cap) (fun w c' => w.toList = file.arr.take 4 ∧ c' = c) := by
  apply Exact.liftGo
  · rw [Slice.subslice_returns]
    omega
  · intro w h
    exact ⟨(Slice.subslice_zero h).1, rfl⟩

theorem TableInside.body (h : TableInside file) (t : Nat) :
    (sectionAt file t).offset = bodyOffset file t ∧ bodyOffset file t ≤ file.len := by
  have hin := sectionOf_offset h.entries t
  have hoff : (sectionAt file t).offset = bodyOffset file t := (Int.toNat_of_nonneg hin.1).symm
  refine ⟨hoff, ?_⟩
  have hle : (sectionAt file t).offset ≤ file.len := hin.2
  omega

/-- The cursor behind the header. -/
def afterHeader (file : Slice UInt8) (g : Globals) : Cursor Globals :=
  ⟨afterPrime file, ((countsOffset file + 28 : Nat) : Int), { g with n8 := fieldBytes file }⟩

theorem headerAt_frame {data : Slice UInt8} {lo hi off : Nat} (hf : Slice.Frame lo hi file data)
    (h : hi ≤ off) : headerAt data off = headerAt file off := by
  rw [headerAt, number_frame hf h, number_frame hf (by omega : hi ≤ off + 4),
    number_frame hf (by omega : hi ≤ off + 8), number_frame hf (by omega : hi ≤ off + 12),
    number_frame hf (by omega : hi ≤ off + 16), number_frame hf (by omega : hi ≤ off + 24)]
  rfl

/-- The header section, once the table is read. -/
theorem readHeaderSection_gives (htable : TableInside file) (failed : String → α)
    (next : Dict Nat Section → Header → Scan Globals α) (ptr : Int) :
    (readHeaderSection failed next (sectionTable file (nSections file))).Gives ⟨file, ptr, g⟩ Q ↔
      (primeOffset file ≤ file.len ∧ countsOffset file ≤ file.cap) ∧
        (filePrime file ≠ bn254Prime ∧ Q (failed "invalid prime") ∨
          ¬filePrime file ≠ bn254Prime ∧ countsOffset file + 28 ≤ file.len ∧
            (¬EndsAt file 1 (countsOffset file + 28) ∧ Q (failed "invalid header section size") ∨
              ¬¬EndsAt file 1 (countsOffset file + 28) ∧
                (next (sectionTable file (nSections file)) (fileHeader file)).Gives
                  (afterHeader file g) Q)) := by
  have hprime := readPrime_exact (c := ⟨file, (sectionAt file 1).offset, g⟩) (htable.body 1).1
  rw [readHeaderSection]
  rw [Scan.gives_setPtr]
  apply Exact.gives_bind hprime
  rintro ⟨-, hcap⟩ _ _ ⟨rfl, rfl⟩
  have hframe := turned_frame hcap
  rw [Scan.gives_ite, Scan.gives_pure]
  apply or_congr Iff.rfl
  apply and_congr Iff.rfl
  have hheader := readHeader_exact (c := ⟨afterPrime file, ((countsOffset file : Nat) : Int),
    { g with n8 := fieldBytes file }⟩) rfl
  have hlen : (afterPrime file).len = file.len := hframe.len_eq
  have hsame : headerAt (afterPrime file) (countsOffset file) = fileHeader file :=
    headerAt_frame hframe (Nat.le_refl _)
  rw [hlen] at hheader
  apply Exact.gives_bind hheader
  rintro - _ _ ⟨rfl, rfl⟩
  rw [hsame, Scan.gives_getPtr, Scan.gives_ite, Scan.gives_pure]
  exact Iff.rfl

/-- The magic and the section table. -/
theorem readTable_gives (failed : String → α)
    (next : Dict Nat Section → Header → Scan Globals α) :
    (readToCounts file failed next).Gives ⟨file, 0, g⟩ Q ↔
      (4 ≤ file.cap ∧ file.arr.take 4 ≠ magic ∧ Q (failed "invalid header type")) ∨
      (TableInside file ∧ (readHeaderSection failed next (sectionTable file (nSections file))).Gives
        ⟨file, entryPtr file (nSections file), g⟩ Q) := by
  have hnested : (readToCounts file failed next).Gives ⟨file, 0, g⟩ Q ↔
      4 ≤ file.cap ∧ (file.arr.take 4 ≠ magic ∧ Q (failed "invalid header type") ∨
        ¬file.arr.take 4 ≠ magic ∧ 4 + 4 ≤ file.len ∧ 4 + 4 + 4 ≤ file.len ∧
          (∀ i, i < nSections file → EntryInside file i) ∧
          ((readHeaderSection failed next (sectionTable file (nSections file))).Gives
            ⟨file, entryPtr file (nSections file), g⟩ Q)) := by
    apply Exact.gives_bind magic_exact
    rintro - w _ ⟨hw, rfl⟩
    rw [hw, Scan.gives_ite, Scan.gives_pure]
    apply or_congr Iff.rfl
    apply and_congr Iff.rfl
    rw [Scan.gives_setPtr]
    apply Exact.gives_bind (uint32_exact (show (4 : Int) = ((4 : Nat) : Int) from rfl))
    rintro - _ _ ⟨rfl, rfl⟩
    apply Exact.gives_bind (uint32_exact rfl)
    rintro - _ _ ⟨rfl, rfl⟩
    have htable : Exact (readSections (nSections file) (sectionTable file 0))
        ⟨file, entryPtr file 0, g⟩ _ _ := readSections_exact (nSections file) 0
    simp only [Nat.zero_add] at htable
    apply Exact.gives_bind htable
    rintro - _ _ ⟨rfl, rfl⟩
    exact Iff.rfl
  rw [hnested]
  constructor
  · rintro ⟨hcap, ⟨hne, hQ⟩ | ⟨heq, -, hcounted, hentries, hbody⟩⟩
    · exact Or.inl ⟨hcap, hne, hQ⟩
    · exact Or.inr ⟨⟨not_not.1 heq, hcounted, hentries⟩, hbody⟩
  · rintro (⟨hcap, hne, hQ⟩ | ⟨htable, hbody⟩)
    · exact ⟨hcap, Or.inl ⟨hne, hQ⟩⟩
    · have hcounted := htable.counted
      have hcap : 4 ≤ file.cap := Nat.le_trans (by omega) (Nat.le_trans hcounted file.len_le)
      exact ⟨hcap, Or.inr ⟨not_not.2 htable.magic, by omega, by omega, htable.entries, hbody⟩⟩

/-- **The run up to the two vectors.** -/
theorem readToCounts_gives (failed : String → α)
    (next : Dict Nat Section → Header → Scan Globals α) :
    (readToCounts file failed next).Gives ⟨file, 0, g⟩ Q ↔
      (4 ≤ file.cap ∧ file.arr.take 4 ≠ magic ∧ Q (failed "invalid header type")) ∨
      (PrimeInside file ∧ filePrime file ≠ bn254Prime ∧ Q (failed "invalid prime")) ∨
      (CountsInside file ∧ ¬EndsAt file 1 (countsOffset file + 28) ∧
        Q (failed "invalid header section size")) ∨
      (CountsInside file ∧ EndsAt file 1 (countsOffset file + 28) ∧
        (next (sectionTable file (nSections file)) (fileHeader file)).Gives
          (afterHeader file g) Q) := by
  rw [readTable_gives]
  apply or_congr Iff.rfl
  constructor
  · rintro ⟨htable, hbody⟩
    obtain ⟨⟨hwidth, hprime⟩, hrest⟩ := (readHeaderSection_gives htable failed next _).1 hbody
    have hinside : PrimeInside file := ⟨htable, hwidth, hprime⟩
    rcases hrest with ⟨hne, hQ⟩ | ⟨heq, hcounts, hends⟩
    · exact Or.inl ⟨hinside, hne, hQ⟩
    · have hcounts : CountsInside file := ⟨hinside, not_not.1 heq, hcounts⟩
      rcases hends with ⟨hsize, hQ⟩ | ⟨hsize, hnext⟩
      · exact Or.inr (Or.inl ⟨hcounts, hsize, hQ⟩)
      · exact Or.inr (Or.inr ⟨hcounts, not_not.1 hsize, hnext⟩)
  · intro h
    have hinside : PrimeInside file := by
      rcases h with h | h | h
      · exact h.1
      · exact h.1.toPrimeInside
      · exact h.1.toPrimeInside
    refine ⟨hinside.toTableInside, (readHeaderSection_gives hinside.toTableInside failed next _).2
      ⟨⟨hinside.width, hinside.prime⟩, ?_⟩⟩
    rcases h with ⟨-, hne, hQ⟩ | ⟨hcounts, hsize, hQ⟩ | ⟨hcounts, hsize, hnext⟩
    · exact Or.inl ⟨hne, hQ⟩
    · exact Or.inr ⟨not_not.2 hcounts.prime_eq, hcounts.counts, Or.inl ⟨hsize, hQ⟩⟩
    · exact Or.inr ⟨not_not.2 hcounts.prime_eq, hcounts.counts,
        Or.inr ⟨not_not.2 hsize, hnext⟩⟩

theorem headerRead_iff {h : Header} : HeaderRead file g h ↔
    CountsInside file ∧ EndsAt file 1 (countsOffset file + 28) ∧ h = fileHeader file := by
  have hgives : (readToCounts file (fun _ => none) (fun _ h => pure (some h))).Gives
      ⟨file, 0, g⟩ (fun r => r = some h) ↔ _ := readToCounts_gives _ _
  have hiff : HeaderRead file g h ↔ (readToCounts file (fun _ => none)
      (fun _ h => pure (some h))).Gives ⟨file, 0, g⟩ (fun r => r = some h) := by
    constructor
    · rintro ⟨c, hrun⟩
      exact ⟨_, hrun, rfl⟩
    · rintro ⟨⟨_, c⟩, hrun, rfl⟩
      exact ⟨c, hrun⟩
  rw [hiff, hgives, Scan.gives_pure]
  simp only [reduceCtorEq, and_false, false_or, Option.some.injEq]
  rw [eq_comm (a := h)]

/-! ## The constraints and the labels -/

/-- The cursor at the constraints. -/
def atConstraints (file : Slice UInt8) (g : Globals) : Cursor Globals :=
  ⟨afterPrime file, bodyOffset file 2, { g with
    n8 := fieldBytes file
    NumOutput := (fileHeader file).nOutputs
    NumInPublic := (fileHeader file).nPubInputs }⟩

theorem constraints_exact (file : Slice UInt8) (htable : g.CoeffArr = []) :
    Exact (readConstraints (fileHeader file).nConstraints) (atConstraints file g)
      (∀ j, j < nCombinations file →
        CombinationFits (afterPrime file) (fieldBytes file) (bodyOffset file 2) j)
      (fun rs c => Combined (afterPrime file) (fieldBytes file) (bodyOffset file 2)
        (nCombinations file) (termsOf rs) c) :=
  readConstraints_exact (afterPrime file) (bodyOffset file 2) _ htable

/-- What `ReadR1CS` returns for the constraints `rs`. -/
def compiled {CS : Type} (compile : R1CSCircuit Unit → List Nat → Option CS × Option String)
    (h : Header) (rs : List R1C) (coeffArr : List Nat) : ReadResult CS :=
  ⟨(compile (placeholderCircuit h rs) coeffArr).1, h.nOutputs, h.nPubInputs,
    (compile (placeholderCircuit h rs) coeffArr).2⟩

/-- **The run from the two vectors on.** -/
theorem readRest_gives {CS : Type}
    {compile : R1CSCircuit Unit → List Nat → Option CS × Option String}
    {Q : ReadResult CS → Prop} (htable : g.CoeffArr = []) (h : CountsInside file) :
    (readRest compile (sectionTable file (nSections file)) (fileHeader file)).Gives
        (afterHeader file g) Q ↔
      (∀ j, j < nCombinations file →
        CombinationFits (afterPrime file) (fieldBytes file) (bodyOffset file 2) j) ∧
      (¬EndsAt file 2 (constraintsEnd file) ∧
          Q (ReadResult.failed "invalid header section size") ∨
        ¬¬EndsAt file 2 (constraintsEnd file) ∧ labelsEnd file ≤ file.len ∧
          (¬EndsAt file 3 (labelsEnd file) ∧
              Q (ReadResult.failed "invalid header section size") ∨
            ¬¬EndsAt file 3 (labelsEnd file) ∧ ∀ rs c,
              readConstraints (fileHeader file).nConstraints (atConstraints file g) =
                  .ok (rs, c) →
                Q (compiled compile (fileHeader file) rs c.st.CoeffArr))) := by
  have hconstraints := (constraints_exact file htable).with_run
  have hframe : Slice.Frame (primeOffset file) (countsOffset file) file (afterPrime file) :=
    turned_frame h.prime
  have hlen : (afterPrime file).len = file.len := hframe.len_eq
  have hbody : ∀ t, (sectionOf (sectionTable file (nSections file)) t).offset =
      bodyOffset file t := fun t => (h.toTableInside.body t).1
  have hends : ∀ t (off : Nat), ((bodyOffset file t : Int) +
      (sectionOf (sectionTable file (nSections file)) t).size ≠ off) ↔ ¬EndsAt file t off := by
    intro t off
    rw [EndsAt, (h.toTableInside.body t).1]
    rfl
  rw [readRest, Scan.gives_getState, Scan.gives_setState, Scan.gives_setPtr, hbody 2]
  apply Exact.gives_bind hconstraints
  rintro - rs c ⟨hread, hrun⟩
  rw [Scan.gives_getPtr, Scan.gives_ite, Scan.gives_pure, hread.reading.ptr]
  refine or_congr (and_congr (hends 2 _) Iff.rfl) (and_congr (not_congr (hends 2 _)) ?_)
  rw [Scan.gives_setPtr, hbody 3]
  have hclen : c.data.len = file.len := hread.reading.behind.len_eq.trans hlen
  have hlabels : Exact (readLabels (fileHeader file).nVars) { c with ptr := bodyOffset file 3 }
      (labelsEnd file ≤ c.data.len) (fun _ c' =>
        c'.ptr = (labelsEnd file : Int) ∧ c'.st.CoeffArr = c.st.CoeffArr) :=
    readLabels_exact rfl (by rw [hclen]; exact (h.toTableInside.body 3).2) _
  rw [hclen] at hlabels
  apply Exact.gives_bind hlabels
  rintro - _ c' ⟨hptr, hcoeffs⟩
  rw [Scan.gives_getPtr, Scan.gives_ite, Scan.gives_pure, hptr]
  refine or_congr (and_congr (hends 3 _) Iff.rfl) (and_congr (not_congr (hends 3 _)) ?_)
  rw [Scan.gives_getState, hcoeffs]
  have hleaf : Q (compiled compile (fileHeader file) rs c.st.CoeffArr) ↔ ∀ rs c,
      readConstraints (fileHeader file).nConstraints (atConstraints file g) = .ok (rs, c) →
        Q (compiled compile (fileHeader file) rs c.st.CoeffArr) := by
    constructor
    · intro hQ rs' c'' hrun'
      have hsame := Except.ok.inj (hrun.symm.trans hrun')
      rw [Prod.mk.injEq] at hsame
      rw [← hsame.1, ← hsame.2]
      exact hQ
    · intro hall
      exact hall rs c hrun
  rw [← hleaf]
  exact Scan.gives_pure (compiled compile (fileHeader file) rs c.st.CoeffArr)

end Returns

/-! ## The circuit -/

/-- The vectors of these lengths hold wire `i`. -/
def WireKnown (nWit nPub i : Nat) : Prop := (i = 0 → 0 < nWit) ∧ (nPub < i → i < nWit + nPub)

section Define

variable {V : Type} {api : API V} {wit pub : List V} {coeffArr : List Nat}

theorem index_returns (l : List V) (i : Int) :
    ((Slice.ofList l).index i).Returns (fun _ => True) ↔ 0 ≤ i ∧ i < l.length := by
  constructor
  · rintro ⟨x, h, -⟩
    exact Slice.index_bounds h
  · rintro ⟨hlow, hhigh⟩
    have hlt : i.toNat < l.length := by omega
    have h := Slice.index_ofList (List.getElem?_eq_getElem hlt)
    rw [Int.toNat_of_nonneg hlow] at h
    exact ⟨_, h, trivial⟩

theorem wireVariable_returns (i : Nat) :
    (wireVariable wit pub i).Returns (fun _ => True) ↔ WireKnown wit.length pub.length i := by
  unfold wireVariable WireKnown
  by_cases hpub : 1 ≤ i ∧ i < 1 + pub.length
  · rw [if_pos hpub, index_returns]
    omega
  · rw [if_neg hpub]
    by_cases hzero : i < 1
    · rw [if_pos hzero, index_returns]
      omega
    · rw [if_neg hzero, index_returns]
      omega

theorem sumTerm_returns {t : Term} (hid : t.coeffID < coeffArr.length) :
    (sumTerm api coeffArr wit pub t).Returns (fun _ => True) ↔
      WireKnown wit.length pub.length t.wireID := by
  have hcoeff : ∀ v, ((Slice.ofList coeffArr).index t.coeffID >>= fun coef =>
      pure (api.mul v (api.const coef))).Returns (fun _ => True) := by
    intro v
    have h := Slice.index_ofList (List.getElem?_eq_getElem hid)
    rw [h]
    exact ⟨_, rfl, trivial⟩
  rw [sumTerm, Go.returns_bind, Go.returns_always hcoeff]
  exact wireVariable_returns t.wireID

theorem sumConstraint_returns {lc : LinearExpression} (hids : ∀ t ∈ lc, t.coeffID < coeffArr.length) :
    (sumConstraint api coeffArr lc wit pub).Returns (fun _ => True) ↔
      ∀ t ∈ lc, WireKnown wit.length pub.length t.wireID := by
  rw [sumConstraint, Go.returns_bind, Go.returns_always, Go.mapM_returns]
  · exact forall₂_congr (fun t ht => sumTerm_returns (hids t ht))
  · intro vs
    split <;> exact ⟨_, rfl, trivial⟩

theorem assertion_returns {r : R1C}
    (hids : ∀ t ∈ r.L ++ (r.R ++ r.O), t.coeffID < coeffArr.length) :
    (assertion api coeffArr wit pub r).Returns (fun _ => True) ↔
      ∀ t ∈ r.L ++ (r.R ++ r.O), WireKnown wit.length pub.length t.wireID := by
  rw [List.forall_mem_append, List.forall_mem_append] at hids
  have hsum : ∀ lc : LinearExpression, (∀ t ∈ lc, t.coeffID < coeffArr.length) →
      ((sumConstraint api coeffArr lc wit pub).Returns (fun _ => True) ↔
        ∀ t ∈ lc, WireKnown wit.length pub.length t.wireID) := fun _ h => sumConstraint_returns h
  rw [List.forall_mem_append, List.forall_mem_append, ← hsum _ hids.1, ← hsum _ hids.2.1,
    ← hsum _ hids.2.2]
  apply Go.returns_both
  intro a
  apply Go.returns_both
  intro b
  rw [Go.returns_bind]
  exact Go.returns_always (fun c => ⟨_, rfl, trivial⟩)

/-- **`Define` returns exactly when the vectors hold the wires of all terms.** -/
theorem define_returns_iff {rs : List R1C} (hids : ∀ t ∈ termsOf rs, t.coeffID < coeffArr.length) :
    ((R1CSCircuit.mk wit pub rs).define api coeffArr).Returns (fun _ => True) ↔
      ∀ t ∈ termsOf rs, WireKnown wit.length pub.length t.wireID := by
  have hmem : ∀ r ∈ rs, ∀ t ∈ r.L ++ (r.R ++ r.O), t ∈ termsOf rs :=
    fun r hr t ht => List.mem_flatMap.2 ⟨r, hr, ht⟩
  rw [R1CSCircuit.define, Go.mapM_returns]
  constructor
  · intro hall t ht
    obtain ⟨r, hr, htr⟩ := List.mem_flatMap.1 ht
    exact (assertion_returns (fun t ht => hids t (hmem r hr t ht))).1 (hall r hr) t htr
  · intro hall r hr
    exact (assertion_returns (fun t ht => hids t (hmem r hr t ht))).2
      (fun t ht => hall t (hmem r hr t ht))

end Define

end ProverNetwork.Ports.CircomR1CS
