import ProverNetwork.Ports.CircomR1CSFile

/-!
# What the reader of constraint systems needs

Every reader of `ReadCircomR1CS` returns exactly where what it reads lies inside the
buffer.  The places are functions of the buffer: `entryPtr` walks the section table,
`combinationOffset` the linear combinations.  A number may reach past the length of the
slice, into its spare capacity; a word may not.

## Main results

* `readSections_exact`, `readPrime_exact`, `readHeader_exact`, `readConstraints_exact`,
  `readLabels_exact` — what each part of the file needs, and what is read.
-/

namespace ProverNetwork.Ports.CircomR1CS

open ProverNetwork.Verified

/-! ## Numbers at offsets -/

/-- The little-endian number in the `k` bytes of the buffer from `off` on. -/
def number (file : Slice UInt8) (off k : Nat) : Nat := ofLE (file.window off k)

/-- The buffer once `readBigInt` was there: the `k` bytes from `off` on stand reversed. -/
def turned (file : Slice UInt8) (off k : Nat) : Slice UInt8 :=
  file.overwrite off (reverseInPlace (file.window off k))

theorem turned_frame {file : Slice UInt8} {off k : Nat} (h : off + k ≤ file.cap) :
    Slice.Frame off (off + k) file (turned file off k) := by
  have hlen : (reverseInPlace (file.window off k)).length = k := by
    rw [reverseInPlace_eq_reverse, List.length_reverse, Slice.length_window h]
  have hframe : Slice.Frame off (off + (reverseInPlace (file.window off k)).length) file
      (turned file off k) := Slice.overwrite_frame (by rw [hlen]; exact h)
  rwa [hlen] at hframe

theorem number_frame {file data : Slice UInt8} {lo hi off : Nat}
    (hf : Slice.Frame lo hi file data) (h : hi ≤ off) (k : Nat) :
    number data off k = number file off k := congrArg ofLE (hf.window_eq h k)

/-- A reader of `k` bytes that indexes each of them. -/
theorem word_iff {f : Slice UInt8 → Int → Go (Nat × Int)} {data : Slice UInt8} {off off' : Int}
    {k n : Nat}
    (hinside : ∀ o : Nat, o + k ≤ data.len →
      f data o = .ok (number data o k, ((o + k : Nat) : Int)))
    (hbounds : ∀ r, f data off = .ok r → 0 ≤ off ∧ off + k ≤ data.len) :
    f data off = .ok (n, off') ↔
      0 ≤ off ∧ off + k ≤ data.len ∧ n = number data off.toNat k ∧ off' = off + k := by
  have hread : 0 ≤ off → off + k ≤ data.len →
      f data off = .ok (number data off.toNat k, off + k) := by
    intro hlow hhigh
    have hoff : (off.toNat : Int) = off := by omega
    have h := hinside off.toNat (by omega)
    rwa [Nat.cast_add, hoff] at h
  constructor
  · intro h
    have hin := hbounds _ h
    rw [hread hin.1 hin.2] at h
    simp only [Except.ok.injEq, Prod.mk.injEq] at h
    exact ⟨hin.1, hin.2, h.1.symm, h.2.symm⟩
  · rintro ⟨hlow, hhigh, rfl, rfl⟩
    exact hread hlow hhigh

theorem readUint32_iff {data : Slice UInt8} {off off' : Int} {n : Nat} :
    readUint32 data off = .ok (n, off') ↔
      0 ≤ off ∧ off + (4 : Nat) ≤ data.len ∧ n = number data off.toNat 4 ∧
        off' = off + (4 : Nat) := by
  apply word_iff
  · intro o ho
    exact readUint32_at (Slice.at_window ho) (Slice.length_window (Nat.le_trans ho data.len_le))
  · intro r h
    obtain ⟨b0, h0, hrest⟩ := (Go.bind_eq_ok _ _ _).1 h
    obtain ⟨b1, -, hrest⟩ := (Go.bind_eq_ok _ _ _).1 hrest
    obtain ⟨b2, -, hrest⟩ := (Go.bind_eq_ok _ _ _).1 hrest
    obtain ⟨b3, h3, -⟩ := (Go.bind_eq_ok _ _ _).1 hrest
    have hlow := Slice.index_bounds h0
    have hhigh := Slice.index_bounds h3
    omega

theorem readUint64_iff {data : Slice UInt8} {off off' : Int} {n : Nat} :
    readUint64 data off = .ok (n, off') ↔
      0 ≤ off ∧ off + (8 : Nat) ≤ data.len ∧ n = number data off.toNat 8 ∧
        off' = off + (8 : Nat) := by
  apply word_iff
  · intro o ho
    exact readUint64_at (Slice.at_window ho) (Slice.length_window (Nat.le_trans ho data.len_le))
  · intro r h
    obtain ⟨b0, h0, hrest⟩ := (Go.bind_eq_ok _ _ _).1 h
    obtain ⟨b1, -, hrest⟩ := (Go.bind_eq_ok _ _ _).1 hrest
    obtain ⟨b2, -, hrest⟩ := (Go.bind_eq_ok _ _ _).1 hrest
    obtain ⟨b3, -, hrest⟩ := (Go.bind_eq_ok _ _ _).1 hrest
    obtain ⟨b4, -, hrest⟩ := (Go.bind_eq_ok _ _ _).1 hrest
    obtain ⟨b5, -, hrest⟩ := (Go.bind_eq_ok _ _ _).1 hrest
    obtain ⟨b6, -, hrest⟩ := (Go.bind_eq_ok _ _ _).1 hrest
    obtain ⟨b7, h7, -⟩ := (Go.bind_eq_ok _ _ _).1 hrest
    have hlow := Slice.index_bounds h0
    have hhigh := Slice.index_bounds h7
    omega

theorem readBigInt_iff {data data' : Slice UInt8} {off k n : Nat} {off' : Int} :
    readBigInt data k off = .ok (n, off', data') ↔
      off + k ≤ data.cap ∧ n = number data off k ∧ off' = ((off + k : Nat) : Int) ∧
        data' = turned data off k := by
  have hwidth : (((off : Int) + k) - off).toNat = k := by omega
  constructor
  · intro h
    obtain ⟨w, hw, hend⟩ := (Go.bind_eq_ok _ _ _).1 h
    have hcap := ((Slice.subslice_returns data _ _).1 ⟨w, hw, trivial⟩).2.2
    have hwindow : w.toList = data.window off k := by
      rw [Slice.subslice_window hw, Int.toNat_natCast, hwidth]
      rfl
    simp only [Go.pure_eq, Except.ok.injEq, Prod.mk.injEq, hwindow, Int.toNat_natCast] at hend
    refine ⟨by omega, ?_, by omega, hend.2.2.symm⟩
    rw [← hend.1, reverseInPlace_eq_reverse, setBytes_reverse]
    rfl
  · rintro ⟨hcap, rfl, rfl, rfl⟩
    obtain ⟨w, hw, -⟩ := (Slice.subslice_returns data (off : Int) ((off : Int) + k)).2 (by omega)
    have hwindow : w.toList = data.window off k := by
      rw [Slice.subslice_window hw, Int.toNat_natCast, hwidth]
      rfl
    unfold readBigInt
    rw [hw, Go.ok_bind]
    dsimp only
    rw [hwindow, reverseInPlace_eq_reverse, setBytes_reverse, ← reverseInPlace_eq_reverse]
    rfl

/-! ## Scanners on numbers -/

section Numbers

variable {c : Cursor Globals} {off : Nat}

theorem word_exact {f : Slice UInt8 → Int → Go (Nat × Int)} {k : Nat}
    (hf : ∀ n ptr, f c.data c.ptr = .ok (n, ptr) ↔ 0 ≤ c.ptr ∧ c.ptr + k ≤ c.data.len ∧
      n = number c.data c.ptr.toNat k ∧ ptr = c.ptr + k) :
    Exact (Scan.read f) c (0 ≤ c.ptr ∧ c.ptr + k ≤ c.data.len) (fun n c' =>
      n = number c.data c.ptr.toNat k ∧ c' = { c with ptr := c.ptr + k }) := by
  apply Exact.read
  · constructor
    · rintro ⟨⟨n, ptr⟩, h, -⟩
      have hin := (hf n ptr).1 h
      exact ⟨hin.1, hin.2.1⟩
    · rintro ⟨hlow, hhigh⟩
      exact ⟨_, (hf _ _).2 ⟨hlow, hhigh, rfl, rfl⟩, trivial⟩
  · intro n ptr h
    obtain ⟨-, -, rfl, rfl⟩ := (hf n ptr).1 h
    exact ⟨rfl, rfl⟩

/-- The same where the cursor stands at a natural number. -/
theorem word_exact_nat {f : Slice UInt8 → Int → Go (Nat × Int)} {k : Nat}
    (hf : ∀ n ptr, f c.data c.ptr = .ok (n, ptr) ↔ 0 ≤ c.ptr ∧ c.ptr + k ≤ c.data.len ∧
      n = number c.data c.ptr.toNat k ∧ ptr = c.ptr + k) (hptr : c.ptr = off) :
    Exact (Scan.read f) c (off + k ≤ c.data.len) (fun n c' =>
      n = number c.data off k ∧ c' = { c with ptr := ((off + k : Nat) : Int) }) := by
  have hnat : c.ptr.toNat = off := by omega
  apply (word_exact hf).mono
  · omega
  · rintro - n c' ⟨rfl, rfl⟩
    rw [hnat, hptr, Nat.cast_add]
    exact ⟨rfl, rfl⟩

theorem uint32_exact (hptr : c.ptr = off) :
    Exact (Scan.read readUint32) c (off + 4 ≤ c.data.len) (fun n c' =>
      n = number c.data off 4 ∧ c' = { c with ptr := ((off + 4 : Nat) : Int) }) :=
  word_exact_nat (fun _ _ => readUint32_iff) hptr

theorem uint64_exact (hptr : c.ptr = off) :
    Exact (Scan.read readUint64) c (off + 8 ≤ c.data.len) (fun n c' =>
      n = number c.data off 8 ∧ c' = { c with ptr := ((off + 8 : Nat) : Int) }) :=
  word_exact_nat (fun _ _ => readUint64_iff) hptr

theorem bigInt_exact (hptr : c.ptr = off) (k : Nat) :
    Exact (Scan.readInPlace (fun data offset => readBigInt data k offset)) c
      (off + k ≤ c.data.cap) (fun n c' => n = number c.data off k ∧
        c' = { c with ptr := ((off + k : Nat) : Int), data := turned c.data off k }) := by
  apply Exact.readInPlace
  · rw [hptr]
    constructor
    · rintro ⟨⟨n, ptr, data⟩, h, -⟩
      exact (readBigInt_iff.1 h).1
    · intro hin
      exact ⟨_, readBigInt_iff.2 ⟨hin, rfl, rfl, rfl⟩, trivial⟩
  · intro n ptr data h
    rw [hptr] at h
    obtain ⟨-, rfl, rfl, rfl⟩ := readBigInt_iff.1 h
    exact ⟨rfl, rfl⟩

end Numbers

/-! ## Linear combinations -/

section Combinations

variable (file : Slice UInt8) (n8 off : Nat)

/-- A term at `off` lies inside, and its wire fits its field. -/
structure TermInside : Prop where
  wire : off + 4 ≤ file.len
  coeff : off + 4 + n8 ≤ file.cap
  wire_lt : number file off 4 < 2 ^ 29

/-- Where term `i` of the combination at `off` stands. -/
def termOffset (i : Nat) : Nat := off + 4 + i * (4 + n8)

/-- The wires of the combination at `off`. -/
def combinationWires : List Nat :=
  (List.range (number file off 4)).map (fun i => number file (termOffset n8 off i) 4)

/-- The combination at `off` lies inside, and its coefficients are numbered, from `k` on,
below the limit. -/
structure CombinationInside (k : Nat) : Prop where
  count : off + 4 ≤ file.len
  terms : ∀ i, i < number file off 4 →
    TermInside file n8 (termOffset n8 off i) ∧ k + i < 2 ^ 30

/-- Where combination `j` of the section at `off` stands. -/
def combinationOffset : Nat → Nat
  | 0 => off
  | j + 1 => termOffset n8 (combinationOffset j) (number file (combinationOffset j) 4)

/-- The number of terms in the combinations before combination `j`. -/
def termsBefore : Nat → Nat
  | 0 => 0
  | j + 1 => termsBefore j + number file (combinationOffset file n8 off j) 4

end Combinations

/-- The terms of packed constraints, in the order in which they are read. -/
def termsOf (rs : List R1C) : List Term := rs.flatMap (fun r => r.L ++ (r.R ++ r.O))

/-- The wires of the first `j` combinations of the section at `off`. -/
def wiresBefore (file : Slice UInt8) (n8 off j : Nat) : List Nat :=
  (List.range j).flatMap (fun i => combinationWires file n8 (combinationOffset file n8 off i))

/-- Combination `j` of the section at `off` lies inside. -/
def CombinationFits (file : Slice UInt8) (n8 off j : Nat) : Prop :=
  CombinationInside file n8 (combinationOffset file n8 off j) (termsBefore file n8 off j)

/-- The reader stands at `off`, with `k` coefficients read; nothing from `off` on was
written to. -/
structure Reading (file : Slice UInt8) (n8 off k : Nat) (c : Cursor Globals) : Prop where
  behind : Slice.Frame 0 off file c.data
  ptr : c.ptr = off
  width : c.st.n8 = n8
  count : c.st.coefCount = k
  table : c.st.CoeffArr.length = k
  room : k ≤ 2 ^ 30

section Constraints

variable {file : Slice UInt8} {n8 off k : Nat} {c : Cursor Globals}

theorem number_lt (file : Slice UInt8) (off k : Nat) : number file off k < 256 ^ k := by
  have hlen : (file.window off k).length ≤ k := by
    rw [Slice.window, List.length_take]
    exact Nat.min_le_left _ _
  exact Nat.lt_of_lt_of_le (ofLE_lt _) (Nat.pow_le_pow_right (by omega) hlen)

theorem setCoeffID_exact (t : Term) (hk : k ≤ 2 ^ 30) :
    Exact (Scan.liftGo (t.setCoeffID k)) c (k < 2 ^ 30) (fun t' c' =>
      t'.coeffID = k ∧ c' = c) := by
  apply Exact.liftGo
  · constructor
    · rintro ⟨t', h, -⟩
      exact ((Term.setCoeffID_ok_iff t t' k (by omega)).1 h).1
    · intro h
      exact ⟨_, (Term.setCoeffID_ok_iff t _ k (by omega)).2 ⟨h, rfl⟩, trivial⟩
  · intro t' h
    have hlt := ((Term.setCoeffID_ok_iff t t' k (by omega)).1 h).1
    exact ⟨Term.coeffID_setCoeffID h hlt, rfl⟩

theorem setWireID_exact (t : Term) {w : Nat} (hw : w < 2 ^ 32) :
    Exact (Scan.liftGo (t.setWireID w)) c (w < 2 ^ 29) (fun t' c' =>
      t'.wireID = w ∧ t'.coeffID = t.coeffID ∧ c' = c) := by
  apply Exact.liftGo
  · constructor
    · rintro ⟨t', h, -⟩
      exact ((Term.setWireID_ok_iff t t' w (by omega)).1 h).1
    · intro h
      exact ⟨_, (Term.setWireID_ok_iff t _ w (by omega)).2 ⟨h, rfl⟩, trivial⟩
  · intro t' h
    have hlt := ((Term.setWireID_ok_iff t t' w (by omega)).1 h).1
    exact ⟨Term.wireID_setWireID h hlt, Term.coeffID_setWireID h hlt, rfl⟩

theorem readTerm_exact (h : Reading file n8 off k c) :
    Exact readTerm c (TermInside file n8 off ∧ k < 2 ^ 30) (fun t c' =>
      Reading file n8 (off + 4 + n8) (k + 1) c' ∧ t.wireID = number file off 4 ∧
        t.coeffID = k) := by
  have hcap := h.behind.cap_eq
  have hlen := h.behind.len_eq
  have hwire : number c.data off 4 = number file off 4 :=
    number_frame h.behind (Nat.le_refl _) 4
  have hlt : number file off 4 < 2 ^ 32 := number_lt file off 4
  have hrun : Exact readTerm c (off + 4 ≤ c.data.len ∧ off + 4 + c.st.n8 ≤ c.data.cap ∧
      k < 2 ^ 30 ∧ number file off 4 < 2 ^ 29 ∧ True) (fun t c' =>
        Reading file n8 (off + 4 + n8) (k + 1) c' ∧ t.wireID = number file off 4 ∧
          t.coeffID = k) := by
    apply Exact.bind (uint32_exact h.ptr)
    rintro - _ _ ⟨rfl, rfl⟩
    apply Exact.bind_getState
    apply Exact.bind (bigInt_exact rfl c.st.n8)
    rintro hinside _ _ ⟨rfl, rfl⟩
    rw [h.count]
    apply Exact.bind (setCoeffID_exact 0 h.room)
    rintro hk t _ ⟨hcoeffID, rfl⟩
    rw [hwire]
    apply Exact.bind (setWireID_exact t hlt)
    rintro - t' _ ⟨hwireID, hkeep, rfl⟩
    apply Exact.bind_setState
    apply Exact.pure
    have hfront : Slice.Frame 0 (off + 4) file c.data :=
      h.behind.mono (Nat.le_refl _) (Nat.le_add_right _ _)
    have hframe := hfront.trans (turned_frame hinside) (Nat.zero_le _) (Nat.le_add_right _ _)
    refine ⟨⟨?_, ?_, h.width, ?_, ?_, hk⟩, hwireID, hkeep.trans hcoeffID⟩
    · rw [← h.width]
      exact hframe
    · rw [← h.width]
    · exact Nat.mod_eq_of_lt (by omega)
    · rw [List.length_append, h.table]
      rfl
  refine hrun.mono ?_ (fun _ _ _ hR => hR)
  rw [h.width, hcap, hlen]
  constructor
  · rintro ⟨hw, hc, hk, hlt29, -⟩
    exact ⟨⟨hw, hc, hlt29⟩, hk⟩
  · rintro ⟨hin, hk⟩
    exact ⟨hin.wire, hin.coeff, hk, hin.wire_lt, trivial⟩

theorem termOffset_succ (n8 off i : Nat) :
    termOffset n8 off (i + 1) = termOffset n8 off i + 4 + n8 := by
  rw [termOffset, termOffset, Nat.succ_mul]
  omega

theorem readLC_exact (h : Reading file n8 off k c) :
    Exact readLC c (CombinationInside file n8 off k) (fun lc c' =>
      Reading file n8 (termOffset n8 off (number file off 4)) (k + number file off 4) c' ∧
        lc.map Term.wireID = combinationWires file n8 off ∧
        ∀ t ∈ lc, t.coeffID < k + number file off 4) := by
  have hcount : number c.data off 4 = number file off 4 :=
    number_frame h.behind (Nat.le_refl _) 4
  have hrun : Exact readLC c (off + 4 ≤ c.data.len ∧ ∀ i, i < number file off 4 →
      TermInside file n8 (termOffset n8 off i) ∧ k + i < 2 ^ 30) (fun lc c' =>
        Reading file n8 (termOffset n8 off (number file off 4)) (k + number file off 4) c' ∧
          lc.map Term.wireID = combinationWires file n8 off ∧
          ∀ t ∈ lc, t.coeffID < k + number file off 4) := by
    apply Exact.bind (uint32_exact h.ptr)
    rintro - _ _ ⟨rfl, rfl⟩
    rw [hcount]
    apply Exact.repeatN (I := fun i lc c' =>
      Reading file n8 (termOffset n8 off i) (k + i) c' ∧
        lc.map Term.wireID = (List.range i).map (fun i => number file (termOffset n8 off i) 4) ∧
        ∀ t ∈ lc, t.coeffID < k + i)
    · have hstart : termOffset n8 off 0 = off + 4 := by
        rw [termOffset, Nat.zero_mul]
      refine ⟨?_, rfl, by simp⟩
      rw [hstart]
      exact ⟨h.behind.mono (Nat.le_refl _) (Nat.le_add_right _ _), rfl, h.width, h.count,
        h.table, h.room⟩
    · rintro i lc c' ⟨hreading, hwires, hids⟩
      refine (readTerm_exact hreading).mono Iff.rfl ?_
      rintro - t c'' ⟨hnext, hwire, hid⟩
      refine ⟨?_, ?_, ?_⟩
      · rw [termOffset_succ]
        exact hnext
      · rw [List.map_append, hwires, List.range_succ, List.map_append, List.map_singleton,
          List.map_singleton, hwire]
      · intro u hu
        rcases List.mem_append.1 hu with hold | hnew
        · have := hids u hold
          omega
        · rw [List.mem_singleton.1 hnew, hid]
          omega
  rw [h.behind.len_eq] at hrun
  exact hrun.mono ⟨fun hin => ⟨hin.1, hin.2⟩, fun hin => ⟨hin.count, hin.terms⟩⟩
    (fun _ _ _ hR => hR)

/-- What is known once `j` combinations of the section at `off` were read into `terms`. -/
structure Combined (file : Slice UInt8) (n8 off j : Nat) (terms : List Term)
    (c : Cursor Globals) : Prop where
  reading : Reading file n8 (combinationOffset file n8 off j) (termsBefore file n8 off j) c
  wires : terms.map Term.wireID = wiresBefore file n8 off j
  ids : ∀ t ∈ terms, t.coeffID < termsBefore file n8 off j

theorem readLC_next {j : Nat} {terms : List Term} (h : Combined file n8 off j terms c) :
    Exact readLC c (CombinationFits file n8 off j) (fun lc c' =>
      Combined file n8 off (j + 1) (terms ++ lc) c') := by
  refine (readLC_exact h.reading).mono Iff.rfl ?_
  rintro - lc c' ⟨hreading, hwires, hids⟩
  refine ⟨hreading, ?_, ?_⟩
  · rw [List.map_append, h.wires, hwires, wiresBefore, wiresBefore, List.range_succ,
      List.flatMap_append, List.flatMap_singleton]
  · intro t ht
    rcases List.mem_append.1 ht with hold | hnew
    · exact Nat.lt_of_lt_of_le (h.ids t hold) (Nat.le_add_right _ _)
    · exact hids t hnew

theorem readR1C_exact {j : Nat} {terms : List Term} (h : Combined file n8 off j terms c) :
    Exact readR1C c (CombinationFits file n8 off j ∧ CombinationFits file n8 off (j + 1) ∧
      CombinationFits file n8 off (j + 2)) (fun r c' =>
        Combined file n8 off (j + 3) (terms ++ (r.L ++ (r.R ++ r.O))) c') := by
  have hrun : Exact readR1C c (CombinationFits file n8 off j ∧
      CombinationFits file n8 off (j + 1) ∧ CombinationFits file n8 off (j + 2) ∧ True)
      (fun r c' => Combined file n8 off (j + 3) (terms ++ (r.L ++ (r.R ++ r.O))) c') := by
    apply Exact.bind (readLC_next h)
    intro _ l c1 h1
    apply Exact.bind (readLC_next h1)
    intro _ r c2 h2
    apply Exact.bind (readLC_next h2)
    intro _ o c3 h3
    apply Exact.pure
    rw [List.append_assoc, List.append_assoc] at h3
    exact h3
  refine hrun.mono ?_ (fun _ _ _ hR => hR)
  rw [and_true]

/-- The combinations by threes. -/
theorem forall_threes {P : Nat → Prop} (n : Nat) :
    (∀ i, i < n → P (3 * i) ∧ P (3 * i + 1) ∧ P (3 * i + 2)) ↔ ∀ j, j < 3 * n → P j := by
  constructor
  · intro hall j hj
    have hthree := hall (j / 3) (by omega)
    have hmod : j = 3 * (j / 3) ∨ j = 3 * (j / 3) + 1 ∨ j = 3 * (j / 3) + 2 := by omega
    rcases hmod with hj | hj | hj
    · rw [hj]
      exact hthree.1
    · rw [hj]
      exact hthree.2.1
    · rw [hj]
      exact hthree.2.2
  · intro hall i hi
    exact ⟨hall _ (by omega), hall _ (by omega), hall _ (by omega)⟩

theorem readConstraints_exact (data : Slice UInt8) {g : Globals} (off : Nat) (n : Nat)
    (htable : g.CoeffArr = []) :
    Exact (readConstraints n) ⟨data, off, g⟩
      (∀ j, j < 3 * n → CombinationFits data g.n8 off j) (fun rs c' =>
        Combined data g.n8 off (3 * n) (termsOf rs) c') := by
  have hrun : Exact (readConstraints n) ⟨data, off, g⟩
      (∀ i, i < n → CombinationFits data g.n8 off (3 * i) ∧
        CombinationFits data g.n8 off (3 * i + 1) ∧ CombinationFits data g.n8 off (3 * i + 2))
      (fun rs c' => Combined data g.n8 off (3 * n) (termsOf rs) c') := by
    apply Exact.bind_getState
    apply Exact.bind_setState
    apply Exact.repeatN (I := fun i rs c' => Combined data g.n8 off (3 * i) (termsOf rs) c')
    · refine ⟨⟨Slice.Frame.refl _ _ data, rfl, rfl, rfl, ?_, Nat.zero_le _⟩, rfl, ?_⟩
      · show g.CoeffArr.length = 0
        rw [htable]
        rfl
      · intro t ht
        cases ht
    · intro i rs c' h
      refine (readR1C_exact h).mono Iff.rfl ?_
      intro _ r c'' hnext
      rw [termsOf, List.flatMap_append, List.flatMap_singleton]
      exact hnext
  exact hrun.mono (forall_threes n) (fun _ _ _ hR => hR)

end Constraints

/-! ## Labels -/

theorem readLabels_exact {c : Cursor Globals} {off : Nat} (hptr : c.ptr = off)
    (hoff : off ≤ c.data.len) (n : Nat) :
    Exact (readLabels n) c (off + 8 * n ≤ c.data.len) (fun _ c' =>
      c'.ptr = ((off + 8 * n : Nat) : Int) ∧ c'.st.CoeffArr = c.st.CoeffArr) := by
  have hloop : Exact (Scan.repeatN n (Scan.read readUint64)) c
      (∀ i, i < n → off + 8 * i + 8 ≤ c.data.len)
      (fun _ c' => c'.data = c.data ∧ c'.ptr = ((off + 8 * n : Nat) : Int) ∧ c'.st = c.st) := by
    apply Exact.repeatN (I := fun i _ c' =>
      c'.data = c.data ∧ c'.ptr = ((off + 8 * i : Nat) : Int) ∧ c'.st = c.st)
    · exact ⟨rfl, hptr, rfl⟩
    · rintro i _ c' ⟨hdata, hp, hst⟩
      have hread := uint64_exact hp
      rw [hdata] at hread
      refine hread.mono Iff.rfl ?_
      rintro - _ _ ⟨-, rfl⟩
      exact ⟨rfl, rfl, hst⟩
  have hrun : Exact (readLabels n) c ((∀ i, i < n → off + 8 * i + 8 ≤ c.data.len) ∧ True)
      (fun _ c' => c'.ptr = ((off + 8 * n : Nat) : Int) ∧ c'.st.CoeffArr = c.st.CoeffArr) := by
    apply Exact.bind hloop
    rintro - labels c' ⟨-, hp, hst⟩
    apply Exact.bind_getState
    refine ⟨⟨fun _ => trivial, fun _ => ⟨_, rfl, trivial⟩⟩, ?_⟩
    intro _ c'' h
    cases h
    have hcoeffs : c'.st.CoeffArr = c.st.CoeffArr := congrArg Globals.CoeffArr hst
    exact ⟨hp, hcoeffs⟩
  refine hrun.mono ?_ (fun _ _ _ hR => hR)
  constructor
  · rintro ⟨hall, -⟩
    by_cases hzero : n = 0
    · omega
    · have hlast := hall (n - 1) (by omega)
      omega
  · intro h
    exact ⟨fun i hi => by omega, trivial⟩

/-! ## The header -/

theorem readPrime_exact {c : Cursor Globals} {off : Nat} (hptr : c.ptr = off) :
    Exact readPrime c
      (off + 4 ≤ c.data.len ∧ off + 4 + number c.data off 4 ≤ c.data.cap) (fun prime c' =>
        prime = number c.data (off + 4) (number c.data off 4) ∧
          c' = ⟨turned c.data (off + 4) (number c.data off 4),
            ((off + 4 + number c.data off 4 : Nat) : Int),
            { c.st with n8 := number c.data off 4 }⟩) := by
  apply Exact.bind (uint32_exact hptr)
  rintro - _ _ ⟨rfl, rfl⟩
  apply Exact.bind_getState
  apply Exact.bind_setState
  exact bigInt_exact rfl _

/-- The numbers of the header section behind the prime, which ends at `off`. -/
def headerAt (file : Slice UInt8) (off : Nat) : Header :=
  ⟨number file off 4, number file (off + 4) 4, number file (off + 8) 4,
    number file (off + 12) 4, number file (off + 16) 8, number file (off + 24) 4⟩

theorem readHeader_exact {c : Cursor Globals} {off : Nat} (hptr : c.ptr = off) :
    Exact readHeader c (off + 28 ≤ c.data.len) (fun h c' =>
      h = headerAt c.data off ∧ c' = { c with ptr := ((off + 28 : Nat) : Int) }) := by
  have hrun : Exact readHeader c (off + 4 ≤ c.data.len ∧ off + 8 ≤ c.data.len ∧
      off + 12 ≤ c.data.len ∧ off + 16 ≤ c.data.len ∧ off + 24 ≤ c.data.len ∧
      off + 28 ≤ c.data.len ∧ True) (fun h c' =>
        h = headerAt c.data off ∧ c' = { c with ptr := ((off + 28 : Nat) : Int) }) := by
    apply Exact.bind (uint32_exact hptr)
    rintro - _ _ ⟨rfl, rfl⟩
    apply Exact.bind (uint32_exact rfl)
    rintro - _ _ ⟨rfl, rfl⟩
    apply Exact.bind (uint32_exact rfl)
    rintro - _ _ ⟨rfl, rfl⟩
    apply Exact.bind (uint32_exact rfl)
    rintro - _ _ ⟨rfl, rfl⟩
    apply Exact.bind (uint64_exact rfl)
    rintro - _ _ ⟨rfl, rfl⟩
    apply Exact.bind (uint32_exact rfl)
    rintro - _ _ ⟨rfl, rfl⟩
    exact Exact.pure ⟨rfl, rfl⟩
  refine hrun.mono ?_ (fun _ _ _ hR => hR)
  rw [and_true]
  omega

/-! ## The section table -/

/-- Where the reader takes entry `i` of the section table to stand; a size is read as a
signed number. -/
def entryPtr (file : Slice UInt8) : Nat → Int
  | 0 => 12
  | i + 1 => entryPtr file i + 12 + int64 (number file (entryPtr file i + 4).toNat 8)

/-- Entry `i` lies inside the file. -/
def EntryInside (file : Slice UInt8) (i : Nat) : Prop :=
  0 ≤ entryPtr file i ∧ entryPtr file i + 12 ≤ file.len

def entrySection (file : Slice UInt8) (i : Nat) : Section :=
  ⟨entryPtr file i + 12, int64 (number file (entryPtr file i + 4).toNat 8)⟩

/-- The sections of the first `n` entries; of two entries of one type the later counts. -/
def sectionTable (file : Slice UInt8) : Nat → Dict Nat Section
  | 0 => Dict.empty
  | i + 1 => (sectionTable file i).set (number file (entryPtr file i).toNat 4)
      (entrySection file i)

theorem readSection_exact {data : Slice UInt8} {g : Globals} (i : Nat) :
    Exact readSection ⟨data, entryPtr data i, g⟩ (EntryInside data i) (fun s c' =>
      s = (number data (entryPtr data i).toNat 4, entrySection data i) ∧
        c' = ⟨data, entryPtr data (i + 1), g⟩) := by
  have hrun : Exact readSection ⟨data, entryPtr data i, g⟩
      ((0 ≤ entryPtr data i ∧ entryPtr data i + 4 ≤ data.len) ∧
        (0 ≤ entryPtr data i + 4 ∧ entryPtr data i + 4 + 8 ≤ data.len) ∧ True) (fun s c' =>
      s = (number data (entryPtr data i).toNat 4, entrySection data i) ∧
        c' = ⟨data, entryPtr data (i + 1), g⟩) := by
    apply Exact.bind (word_exact (fun _ _ => readUint32_iff))
    rintro - _ _ ⟨rfl, rfl⟩
    apply Exact.bind (word_exact (fun _ _ => readUint64_iff))
    rintro - _ _ ⟨rfl, rfl⟩
    apply Exact.bind_getPtr
    apply Exact.bind_setPtr
    apply Exact.pure
    have hptr : entryPtr data i + 4 + 8 = entryPtr data i + 12 := by omega
    show (number data (entryPtr data i).toNat 4, Section.mk (entryPtr data i + 4 + 8) _) = _ ∧
      Cursor.mk data (entryPtr data i + 4 + 8 + _) g = _
    rw [hptr]
    exact ⟨rfl, rfl⟩
  refine hrun.mono ?_ (fun _ _ _ hR => hR)
  rw [and_true, EntryInside]
  omega

theorem readSections_exact {data : Slice UInt8} {g : Globals} (n i : Nat) :
    Exact (readSections n (sectionTable data i)) ⟨data, entryPtr data i, g⟩
      (∀ j, j < n → EntryInside data (i + j)) (fun m c' =>
        m = sectionTable data (i + n) ∧ c' = ⟨data, entryPtr data (i + n), g⟩) := by
  induction n generalizing i with
  | zero =>
      refine (Exact.pure ⟨rfl, rfl⟩).mono ?_ (fun _ _ _ hR => hR)
      simp
  | succ n ih =>
      have hrun : Exact (readSections (n + 1) (sectionTable data i)) ⟨data, entryPtr data i, g⟩
          (EntryInside data i ∧ ∀ j, j < n → EntryInside data (i + 1 + j)) (fun m c' =>
            m = sectionTable data (i + (n + 1)) ∧
              c' = ⟨data, entryPtr data (i + (n + 1)), g⟩) := by
        apply Exact.bind (readSection_exact i)
        rintro - _ _ ⟨rfl, rfl⟩
        have hcount : i + (n + 1) = i + 1 + n := by omega
        rw [hcount]
        exact ih (i + 1)
      exact hrun.mono (Exact.forall_turns i n) (fun _ _ _ hR => hR)

theorem get?_sectionTable {file : Slice UInt8} {n t : Nat} {s : Section}
    (h : (sectionTable file n).get? t = some s) : ∃ i, i < n ∧ s = entrySection file i := by
  induction n with
  | zero => cases h
  | succ n ih =>
      rw [sectionTable, Dict.get?_set] at h
      split at h
      next =>
        cases h
        exact ⟨n, Nat.lt_succ_self n, rfl⟩
      next =>
        obtain ⟨i, hi, hs⟩ := ih h
        exact ⟨i, Nat.lt_succ_of_lt hi, hs⟩

/-- A section starts inside the file, also where it has no entry. -/
theorem sectionOf_offset {file : Slice UInt8} {n : Nat} (h : ∀ i, i < n → EntryInside file i)
    (t : Nat) : 0 ≤ (sectionOf (sectionTable file n) t).offset ∧
      (sectionOf (sectionTable file n) t).offset ≤ file.len := by
  cases hs : (sectionTable file n).get? t with
  | none =>
      rw [sectionOf, hs]
      exact ⟨Int.le_refl 0, Int.natCast_nonneg _⟩
  | some s =>
      obtain ⟨i, hi, rfl⟩ := get?_sectionTable hs
      have hin := h i hi
      rw [sectionOf, hs]
      show 0 ≤ entryPtr file i + 12 ∧ entryPtr file i + 12 ≤ file.len
      exact ⟨by have := hin.1; omega, hin.2⟩

end ProverNetwork.Ports.CircomR1CS
