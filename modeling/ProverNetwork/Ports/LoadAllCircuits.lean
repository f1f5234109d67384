import ProverNetwork.Ports.CircomWires
import ProverNetwork.Ports.R1CSRefusal

/-!
# Loading the circuits of a template directory

`loadAllCircuits` reads the keys and the constraint system of every directory, and passes
over a directory where one of them gives an error.  A reader that panics takes the whole
process with it, and every other circuit.

## Main results

* `loadAllCircuits_returns` — every directory is loaded or passed over, once every reader
  returns.
* `corruptFile_iff` — the files on which the reader returns with an error, or with the
  constraint system of a well-formed file.
-/

namespace ProverNetwork.Ports.CircomR1CS

open ProverNetwork.Verified

/-! ## The loop over the directories -/

def KeysFolderPath : String := "keys"
def PkFileName : String := "pk.key"
def VkFileName : String := "vk.key"
def R1csFileName : String := "circuit.r1cs"

/-- An entry of a directory. -/
structure FileInfo where
  Name : String
  IsDir : Bool

/-- The file system and the decoders of keys. -/
structure Host (PK VK : Type) where
  ReadDir : String → Except String (List FileInfo)
  join : String → String → String
  provingKey : String → Except String PK
  verifyingKey : String → Except String VK
  ReadFile : String → Except String (Slice UInt8)

structure CircuitData (PK VK CS : Type) where
  Pk : PK
  Vk : VK
  Ccs : Option CS
  NumOutput : Nat
  NumInPublic : Nat
  CircuitPath : String

section Load

variable {PK VK CS : Type} (compile : R1CSCircuit Unit → List Nat → Option CS × Option String)
  (host : Host PK VK) (templateDir : String)

/-- The outcome of reading the constraint system of a circuit. -/
def Host.r1cs (circuitId : String) : Except String (Slice UInt8) :=
  host.ReadFile (host.join (host.join templateDir circuitId) R1csFileName)

/-- One turn of the loop of `loadAllCircuits`. -/
def loadCircuit (s : Dict String (CircuitData PK VK CS) × Globals) (dir : FileInfo) :
    Go (Dict String (CircuitData PK VK CS) × Globals) :=
  if dir.IsDir then
    let circuitId := dir.Name
    let circuitPath := host.join templateDir circuitId
    let keysDir := host.join circuitPath KeysFolderPath
    match host.provingKey (host.join keysDir PkFileName) with
    | .error _ => pure s
    | .ok pk =>
        match host.verifyingKey (host.join keysDir VkFileName) with
        | .error _ => pure s
        | .ok vk => do
            let (r, g) ← readR1CS compile (host.r1cs templateDir circuitId) s.2
            match r.err with
            | some _ => pure (s.1, g)
            | none => pure (s.1.set circuitId
                ⟨pk, vk, r.ccs, r.nOutputs, r.nPubInputs, circuitPath⟩, g)
  else pure s

/-- `loadAllCircuits`. -/
def loadAllCircuits (g : Globals) :
    Go (Except String (Dict String (CircuitData PK VK CS)) × Globals) :=
  match host.ReadDir templateDir with
  | .error err => pure (.error err, g)
  | .ok dirs => do
      let (circuits, g) ← dirs.foldlM (loadCircuit compile host templateDir) (Dict.empty, g)
      pure (.ok circuits, g)

/-- The entry is a directory with both keys. -/
def Keys (dir : FileInfo) (pk : PK) (vk : VK) : Prop :=
  dir.IsDir = true ∧
    host.provingKey (host.join (host.join (host.join templateDir dir.Name) KeysFolderPath)
      PkFileName) = .ok pk ∧
    host.verifyingKey (host.join (host.join (host.join templateDir dir.Name) KeysFolderPath)
      VkFileName) = .ok vk

/-- What becomes of an entry: a circuit whose keys and constraint system are read without
an error is in the table, and nothing else is. -/
structure Outcome (circuits : Dict String (CircuitData PK VK CS)) (dir : FileInfo) : Prop where
  without_keys : (∀ pk vk, ¬Keys host templateDir dir pk vk) → circuits.get? dir.Name = none
  with_keys : ∀ pk vk, Keys host templateDir dir pk vk → ∃ g r g',
    readR1CS compile (host.r1cs templateDir dir.Name) g = .ok (r, g') ∧
      circuits.get? dir.Name = if r.err = none then
        some ⟨pk, vk, r.ccs, r.nOutputs, r.nPubInputs, host.join templateDir dir.Name⟩
      else none

variable {compile host templateDir}

theorem Outcome.congr {circuits circuits' : Dict String (CircuitData PK VK CS)} {dir : FileInfo}
    (h : Outcome compile host templateDir circuits dir)
    (hsame : circuits'.get? dir.Name = circuits.get? dir.Name) :
    Outcome compile host templateDir circuits' dir := by
  constructor
  · rw [hsame]
    exact h.without_keys
  · rw [hsame]
    exact h.with_keys

/-- An entry that is passed over before its constraint system is read. -/
theorem outcome_without_keys {circuits : Dict String (CircuitData PK VK CS)} {dir : FileInfo}
    (hkeys : ∀ pk vk, ¬Keys host templateDir dir pk vk) (hnew : circuits.get? dir.Name = none) :
    Outcome compile host templateDir circuits dir :=
  ⟨fun _ => hnew, fun pk vk h => absurd h (hkeys pk vk)⟩

theorem loadCircuit_returns {s : Dict String (CircuitData PK VK CS) × Globals} {dir : FileInfo}
    (hreads : ∀ g, (readR1CS compile (host.r1cs templateDir dir.Name) g).Returns (fun _ => True))
    (hnew : s.1.get? dir.Name = none) :
    ∃ s', loadCircuit compile host templateDir s dir = .ok s' ∧
      (∀ name, name ≠ dir.Name → s'.1.get? name = s.1.get? name) ∧
      Outcome compile host templateDir s'.1 dir := by
  unfold loadCircuit
  dsimp only
  by_cases hdir : dir.IsDir = true
  · rw [if_pos hdir]
    split
    next err hpk =>
      refine ⟨s, rfl, fun _ _ => rfl, outcome_without_keys ?_ hnew⟩
      rintro pk vk ⟨-, hpk', -⟩
      rw [hpk] at hpk'
      cases hpk'
    next pk hpk =>
      split
      next err hvk =>
        refine ⟨s, rfl, fun _ _ => rfl, outcome_without_keys ?_ hnew⟩
        rintro pk' vk ⟨-, -, hvk'⟩
        rw [hvk] at hvk'
        cases hvk'
      next vk hvk =>
        obtain ⟨⟨r, g⟩, hrun, -⟩ := hreads s.2
        rw [hrun, Go.ok_bind]
        have hkeys : ∀ pk' vk', Keys host templateDir dir pk' vk' → pk' = pk ∧ vk' = vk := by
          rintro pk' vk' ⟨-, hpk', hvk'⟩
          exact ⟨Except.ok.inj (hpk'.symm.trans hpk), Except.ok.inj (hvk'.symm.trans hvk)⟩
        have hthese : Keys host templateDir dir pk vk := ⟨hdir, hpk, hvk⟩
        cases herr : r.err with
        | some err =>
            refine ⟨(s.1, g), rfl, fun _ _ => rfl, fun h => absurd hthese (h pk vk), ?_⟩
            intro pk' vk' _
            refine ⟨s.2, r, g, hrun, ?_⟩
            rw [herr, if_neg (by simp)]
            exact hnew
        | none =>
            refine ⟨_, rfl, ?_, fun h => absurd hthese (h pk vk), ?_⟩
            · intro name hne
              exact (Dict.get?_set _ _ _ _).trans (if_neg hne)
            · intro pk' vk' hkeys'
              obtain ⟨rfl, rfl⟩ := hkeys pk' vk' hkeys'
              refine ⟨s.2, r, g, hrun, ?_⟩
              rw [herr, if_pos rfl]
              exact Dict.get?_set_self _ _ _
  · rw [if_neg hdir]
    refine ⟨s, rfl, fun _ _ => rfl, outcome_without_keys ?_ hnew⟩
    rintro pk vk ⟨hdir', -⟩
    exact hdir hdir'

theorem loadCircuits_returns {dirs : List FileInfo} (hnames : (dirs.map FileInfo.Name).Nodup)
    (hreads : ∀ dir ∈ dirs, ∀ g,
      (readR1CS compile (host.r1cs templateDir dir.Name) g).Returns (fun _ => True))
    (s : Dict String (CircuitData PK VK CS) × Globals)
    (hnew : ∀ dir ∈ dirs, s.1.get? dir.Name = none) :
    ∃ s', dirs.foldlM (loadCircuit compile host templateDir) s = .ok s' ∧
      (∀ name, name ∉ dirs.map FileInfo.Name → s'.1.get? name = s.1.get? name) ∧
      ∀ dir ∈ dirs, Outcome compile host templateDir s'.1 dir := by
  induction dirs generalizing s with
  | nil => exact ⟨s, rfl, fun _ _ => rfl, fun dir hdir => by cases hdir⟩
  | cons dir dirs ih =>
      rw [List.map_cons, List.nodup_cons] at hnames
      obtain ⟨s₁, hfirst, hsame, houtcome⟩ :=
        loadCircuit_returns (hreads dir List.mem_cons_self) (hnew dir List.mem_cons_self)
      obtain ⟨s₂, hrest, hkept, hall⟩ := ih hnames.2
        (fun d hd => hreads d (List.mem_cons_of_mem _ hd)) s₁ (by
          intro d hd
          have hne : d.Name ≠ dir.Name := by
            intro heq
            exact hnames.1 (heq ▸ List.mem_map_of_mem hd)
          rw [hsame _ hne]
          exact hnew d (List.mem_cons_of_mem _ hd))
      refine ⟨s₂, ?_, ?_, ?_⟩
      · rw [List.foldlM_cons, hfirst]
        exact hrest
      · intro name hname
        rw [List.map_cons, List.mem_cons, not_or] at hname
        rw [hkept name hname.2, hsame name hname.1]
      · rw [List.forall_mem_cons]
        exact ⟨houtcome.congr (hkept _ hnames.1), hall⟩

/-- **Every directory is loaded or passed over.** -/
theorem loadAllCircuits_returns {dirs : List FileInfo}
    (hdirs : host.ReadDir templateDir = .ok dirs) (hnames : (dirs.map FileInfo.Name).Nodup)
    (hreads : ∀ dir ∈ dirs, ∀ g,
      (readR1CS compile (host.r1cs templateDir dir.Name) g).Returns (fun _ => True))
    (g : Globals) :
    ∃ circuits g', loadAllCircuits compile host templateDir g = .ok (.ok circuits, g') ∧
      ∀ dir ∈ dirs, Outcome compile host templateDir circuits dir := by
  obtain ⟨s, hfold, -, hall⟩ := loadCircuits_returns hnames hreads (Dict.empty, g)
    (fun _ _ => Dict.get?_empty _)
  refine ⟨s.1, s.2, ?_, hall⟩
  rw [loadAllCircuits, hdirs]
  dsimp only
  rw [hfold]
  rfl

end Load

/-! ## What a corrupt file does -/

/-- The compiler turns a stopped `Define` into an error, whatever variables and whatever
API it runs `Define` on. -/
def Recovers {CS : Type} (compile : R1CSCircuit Unit → List Nat → Option CS × Option String) :
    Prop :=
  ∀ circuit coeffArr, (∀ (V : Type) (api : API V) (wit pub : List V),
      wit.length = circuit.witness.length → pub.length = circuit.witnessPublic.length →
      ¬((R1CSCircuit.mk wit pub circuit.constraints).define api coeffArr).Returns
        (fun _ => True)) →
    (compile circuit coeffArr).2 ≠ none

/-- The bytes of a constraint system with field elements of 32 bytes. -/
def WellFormed (bytes : List UInt8) : Prop :=
  ∃ (sys : R1CSSystem) (f : R1CSFile sys), f.n8 = 32 ∧ bytes = f.bytes

/-- What should become of a file: the reader returns, with an error unless the file is well
formed; the size of the private vector does not wrap; and in every template directory where
the other readers return, every circuit is loaded or passed over. -/
structure Handled (file : Slice UInt8) : Prop where
  reads : ∀ {CS : Type} (compile : R1CSCircuit Unit → List Nat → Option CS × Option String),
    Recovers compile → ∀ g, (readR1CS compile (.ok file) g).Returns
      (fun r => r.1.err ≠ none ∨ WellFormed file.toList)
  public_le : ∀ g h, HeaderRead file g h → h.nPubInputs + h.nOutputs ≤ h.nVars
  others : ∀ {PK VK CS : Type} (compile : R1CSCircuit Unit → List Nat → Option CS × Option String),
    Recovers compile → ∀ (host : Host PK VK) (templateDir : String) (dirs : List FileInfo),
      host.ReadDir templateDir = .ok dirs → (dirs.map FileInfo.Name).Nodup →
      (∀ dir ∈ dirs, host.r1cs templateDir dir.Name = .ok file ∨
        ∀ g, (readR1CS compile (host.r1cs templateDir dir.Name) g).Returns (fun _ => True)) →
      ∀ g, ∃ circuits g', loadAllCircuits compile host templateDir g = .ok (.ok circuits, g') ∧
        ∀ dir ∈ dirs, Outcome compile host templateDir circuits dir

/-- A term has a wire that the circuit does not have. -/
def UnknownWire (file : Slice UInt8) : Prop :=
  ∃ i ∈ fileWires file, ¬WireKnown
    ((fileHeader file).nVars - ((fileHeader file).nPubInputs + (fileHeader file).nOutputs))
    ((fileHeader file).nPubInputs + (fileHeader file).nOutputs) i

/-- The defect that the reader meets first is one it looks for. -/
inductive Refused (file : Slice UInt8) : Prop
  | magic : 4 ≤ file.cap → file.arr.take 4 ≠ magic → Refused file
  | prime : PrimeInside file → filePrime file ≠ bn254Prime → Refused file
  | header : CountsInside file → ¬EndsAt file 1 (countsOffset file + 28) → Refused file
  | constraints : ConstraintsInside file → ¬EndsAt file 2 (constraintsEnd file) → Refused file
  | labels : LabelsInside file → ¬EndsAt file 3 (labelsEnd file) → Refused file
  | wires : LabelsInside file → EndsAt file 3 (labelsEnd file) → UnknownWire file → Refused file

section Corrupt

variable {file : Slice UInt8}

theorem readR1CS_gives {CS : Type}
    {compile : R1CSCircuit Unit → List Nat → Option CS × Option String} {g : Globals}
    {Q : ReadResult CS → Prop} :
    (readR1CS compile (.ok file) g).Returns (fun r => Q r.1) ↔
      (readToCounts file ReadResult.failed (readRest compile)).Gives
        ⟨file, 0, { g with n8 := 0, CoeffArr := [], coefCount := 0, Labels := [] }⟩ Q := by
  rw [readR1CS]
  dsimp only
  rw [Go.returns_bind]
  simp [Scan.Gives, readFile]

theorem readConstraints_ok {g : Globals} (htable : g.CoeffArr = [])
    (h : ∀ j, j < nCombinations file →
      CombinationFits (afterPrime file) (fieldBytes file) (bodyOffset file 2) j) :
    ∃ rs c, readConstraints (fileHeader file).nConstraints (atConstraints file g) =
      .ok (rs, c) := by
  obtain ⟨⟨rs, c⟩, hrun, -⟩ := (constraints_exact file htable).returns.2 h
  exact ⟨rs, c, hrun⟩

/-- Whether `Define` finds the wires of the constraints that were read. -/
theorem define_unknown {V : Type} {api : API V} {wit pub : List V} {rs : List R1C}
    {c : Cursor Globals} {g : Globals} (h : ConstraintsInside file) (htable : g.CoeffArr = [])
    (hrun : readConstraints (fileHeader file).nConstraints (atConstraints file g) = .ok (rs, c))
    (hwit : wit.length = (placeholderCircuit (fileHeader file) rs).witness.length)
    (hpub : pub.length = (placeholderCircuit (fileHeader file) rs).witnessPublic.length) :
    ((R1CSCircuit.mk wit pub rs).define api c.st.CoeffArr).Returns (fun _ => True) ↔
      ¬UnknownWire file := by
  have hread := (constraints_exact file htable).result rs c hrun
  have hwires : (termsOf rs).map Term.wireID = fileWires file := hread.wires
  have hids : ∀ t ∈ termsOf rs, t.coeffID < c.st.CoeffArr.length := by
    rw [hread.reading.table]
    exact hread.ids
  have hle := h.public_le
  have hlt : (fileHeader file).nVars < 2 ^ 32 := number_lt file (countsOffset file) 4
  have hwit' : wit.length = (fileHeader file).nVars -
      ((fileHeader file).nPubInputs + (fileHeader file).nOutputs) := by
    rw [hwit, placeholderCircuit, List.length_replicate]
    exact uint32_of_lt (by omega) (by omega)
  have hpub' : pub.length = (fileHeader file).nPubInputs + (fileHeader file).nOutputs := by
    rw [hpub, placeholderCircuit, List.length_replicate]
    exact uint32_of_lt (by omega) (by omega)
  rw [define_returns_iff hids, hwit', hpub', UnknownWire, ← hwires]
  simp

/-- A compiler that does nothing but run `Define`. -/
def defineOnly (circuit : R1CSCircuit Unit) (coeffArr : List Nat) : Option Unit × Option String :=
  match circuit.define ⟨fun _ => (), fun _ _ => (), fun _ _ _ => ()⟩ coeffArr with
  | .ok _ => (some (), none)
  | .error _ => (none, some "panic in Define")

theorem defineOnly_iff {circuit : R1CSCircuit Unit} {coeffArr : List Nat} :
    (defineOnly circuit coeffArr).2 = none ↔
      (circuit.define ⟨fun _ => (), fun _ _ => (), fun _ _ _ => ()⟩ coeffArr).Returns
        (fun _ => True) := by
  unfold defineOnly
  split
  next out hrun => simp [hrun]
  next err hrun => simp [hrun]

theorem defineOnly_recovers : Recovers defineOnly := by
  intro circuit coeffArr hstops hnone
  exact hstops Unit _ circuit.witness circuit.witnessPublic rfl rfl (defineOnly_iff.1 hnone)

/-- The end of the run: the sizes of the last two sections, and the wires. -/
theorem refused_of_rest (h : CountsInside file)
    (hsize : EndsAt file 1 (countsOffset file + 28))
    (hle : (fileHeader file).nPubInputs + (fileHeader file).nOutputs ≤ (fileHeader file).nVars)
    {g : Globals} (htable : g.CoeffArr = [])
    (hrest : (readRest defineOnly (sectionTable file (nSections file)) (fileHeader file)).Gives
      (afterHeader file g) (fun r => r.err ≠ none ∨ WellFormed file.toList)) :
    WellFormed file.toList ∨ Refused file := by
  obtain ⟨hcombinations, hends⟩ := (readRest_gives htable h).1 hrest
  have hinside : ConstraintsInside file := ⟨h, hsize, hle, hcombinations⟩
  rcases hends with ⟨hne, -⟩ | ⟨heq, hlabels, hends⟩
  · exact Or.inr (Refused.constraints hinside hne)
  have hlabels : LabelsInside file := ⟨hinside, not_not.1 heq, hlabels⟩
  rcases hends with ⟨hne, -⟩ | ⟨heq, hleaf⟩
  · exact Or.inr (Refused.labels hlabels hne)
  obtain ⟨rs, c, hrun⟩ := readConstraints_ok htable hcombinations
  rcases hleaf rs c hrun with herr | hwell
  · refine Or.inr (Refused.wires hlabels (not_not.1 heq) ?_)
    by_contra hknown
    exact herr (defineOnly_iff.2 ((define_unknown hinside htable hrun rfl rfl).2 hknown))
  · exact Or.inl hwell

/-- A file that is handled is well formed or refused. -/
theorem Handled.refused (h : Handled file) : WellFormed file.toList ∨ Refused file := by
  have hgives := (readR1CS_gives (Q := fun r => r.err ≠ none ∨ WellFormed file.toList)).1
    (h.reads defineOnly defineOnly_recovers freshGlobals)
  rcases (readToCounts_gives _ _).1 hgives with ⟨hcap, hne, -⟩ | ⟨hprime, hne, -⟩ |
    ⟨hcounts, hne, -⟩ | ⟨hcounts, hsize, hrest⟩
  · exact Or.inr (Refused.magic hcap hne)
  · exact Or.inr (Refused.prime hprime hne)
  · exact Or.inr (Refused.header hcounts hne)
  · have hheader : HeaderRead file freshGlobals (fileHeader file) :=
      headerRead_iff.2 ⟨hcounts, hsize, rfl⟩
    exact refused_of_rest hcounts hsize (h.public_le _ _ hheader) rfl hrest

/-! ### Refused files and well-formed files are handled -/

theorem Refused.gives (h : Refused file) {CS : Type}
    {compile : R1CSCircuit Unit → List Nat → Option CS × Option String}
    (hcompile : Recovers compile) (g : Globals) :
    (readR1CS compile (.ok file) g).Returns (fun r => r.1.err ≠ none) := by
  rw [readR1CS_gives (Q := fun r => r.err ≠ none), readToCounts_gives]
  have hfailed : ∀ msg, (ReadResult.failed msg : ReadResult CS).err ≠ none := by
    intro msg
    simp [ReadResult.failed]
  cases h with
  | magic hcap hne => exact Or.inl ⟨hcap, hne, hfailed _⟩
  | prime h hne => exact Or.inr (Or.inl ⟨h, hne, hfailed _⟩)
  | header h hne => exact Or.inr (Or.inr (Or.inl ⟨h, hne, hfailed _⟩))
  | constraints h hne =>
      exact Or.inr (Or.inr (Or.inr ⟨h.toCountsInside, h.header_size,
        (readRest_gives rfl h.toCountsInside).2 ⟨h.combinations, Or.inl ⟨hne, hfailed _⟩⟩⟩))
  | labels h hne =>
      exact Or.inr (Or.inr (Or.inr ⟨h.toCountsInside, h.header_size,
        (readRest_gives rfl h.toCountsInside).2 ⟨h.combinations,
          Or.inr ⟨not_not.2 h.constraints_size, h.labels, Or.inl ⟨hne, hfailed _⟩⟩⟩⟩))
  | wires h hsize hunknown =>
      refine Or.inr (Or.inr (Or.inr ⟨h.toCountsInside, h.header_size,
        (readRest_gives rfl h.toCountsInside).2 ⟨h.combinations,
          Or.inr ⟨not_not.2 h.constraints_size, h.labels, Or.inr ⟨not_not.2 hsize, ?_⟩⟩⟩⟩))
      intro rs c hrun
      apply hcompile
      intro V api wit pub hwit hpub hreturns
      exact (define_unknown h.toConstraintsInside rfl hrun hwit hpub).1 hreturns hunknown

theorem Refused.public_le (h : Refused file) {g : Globals} {header : Header}
    (hread : HeaderRead file g header) : header.nPubInputs + header.nOutputs ≤ header.nVars := by
  obtain ⟨hcounts, hsize, rfl⟩ := headerRead_iff.1 hread
  cases h with
  | magic _ hne => exact absurd hcounts.magic hne
  | prime _ hne => exact absurd hcounts.prime_eq hne
  | header _ hne => exact absurd hsize hne
  | constraints h _ => exact h.public_le
  | labels h _ => exact h.public_le
  | wires h _ _ => exact h.public_le

/-- On a well-formed file the counts are those of its system. -/
theorem WellFormed.public_le (h : WellFormed file.toList) {g : Globals} {header : Header}
    (hread : HeaderRead file g header) : header.nPubInputs + header.nOutputs ≤ header.nVars := by
  obtain ⟨hcounts, hsize, rfl⟩ := headerRead_iff.1 hread
  obtain ⟨sys, f, -, hfile⟩ := h
  obtain ⟨circuit, g', hbuilt, hreads⟩ := readR1CS_file f hfile g
  -- a compiler that keeps the circuit it is given
  have hrun := hreads (R1CSCircuit Unit) (fun c _ => (some c, none))
  have hgives := (readR1CS_gives (Q := fun r => r.err = none ∧ r.ccs = some circuit ∧
    r.nOutputs = sys.nOutputs ∧ r.nPubInputs = sys.nPubInputs)).1 ⟨_, hrun, rfl, rfl, rfl, rfl⟩
  rcases (readToCounts_gives _ _).1 hgives with ⟨-, -, herr, -⟩ | ⟨-, -, herr, -⟩ |
    ⟨-, -, herr, -⟩ | ⟨-, -, hrest⟩
  · cases herr
  · cases herr
  · cases herr
  obtain ⟨hcombinations, hends⟩ := (readRest_gives rfl hcounts).1 hrest
  rcases hends with ⟨-, herr, -⟩ | ⟨-, -, ⟨-, herr, -⟩ | ⟨-, hleaf⟩⟩
  · cases herr
  · cases herr
  obtain ⟨rs, c, hconstraints⟩ := readConstraints_ok
    (g := { g with n8 := 0, CoeffArr := [], coefCount := 0, Labels := [] }) rfl hcombinations
  obtain ⟨-, hcircuit, hout, hin⟩ := hleaf rs c hconstraints
  have hwit := hbuilt.witness_length
  rw [← Option.some.inj hcircuit, placeholderCircuit, List.length_replicate] at hwit
  have hout' : (fileHeader file).nOutputs = sys.nOutputs := hout
  have hin' : (fileHeader file).nPubInputs = sys.nPubInputs := hin
  have hlt : (fileHeader file).nVars < 2 ^ 32 := number_lt file (countsOffset file) 4
  have hpublic := sys.public_le
  have hvars := sys.nVars_lt
  unfold uint32 at hwit
  omega

theorem WellFormed.gives (h : WellFormed file.toList) {CS : Type}
    (compile : R1CSCircuit Unit → List Nat → Option CS × Option String) (g : Globals) :
    (readR1CS compile (.ok file) g).Returns (fun _ => True) := by
  obtain ⟨sys, f, -, hfile⟩ := h
  obtain ⟨circuit, g', -, hreads⟩ := readR1CS_file f hfile g
  exact ⟨_, hreads CS compile, trivial⟩

/-- **The files that are handled**: well-formed ones, and those whose first defect is one
that the reader looks for.  Every allocation that a count of the file asks for is taken to
succeed. -/
theorem corruptFile_iff (file : Slice UInt8) :
    Handled file ↔ WellFormed file.toList ∨ Refused file := by
  constructor
  · exact Handled.refused
  · intro h
    have hreads : ∀ {CS : Type}
        (compile : R1CSCircuit Unit → List Nat → Option CS × Option String),
        Recovers compile → ∀ g, (readR1CS compile (.ok file) g).Returns
          (fun r => r.1.err ≠ none ∨ WellFormed file.toList) := by
      intro CS compile hcompile g
      rcases h with hwell | hrefused
      · exact (hwell.gives compile g).mono (fun _ _ => Or.inr hwell)
      · exact (hrefused.gives hcompile g).mono (fun _ herr => Or.inl herr)
    refine ⟨hreads, ?_, ?_⟩
    · intro g header hread
      rcases h with hwell | hrefused
      · exact hwell.public_le hread
      · exact hrefused.public_le hread
    · intro PK VK CS compile hcompile host templateDir dirs hdirs hnames hothers
      apply loadAllCircuits_returns hdirs hnames
      intro dir hdir g
      rcases hothers dir hdir with hthis | hother
      · rw [hthis]
        exact (hreads compile hcompile g).mono (fun _ _ => trivial)
      · exact hother g

end Corrupt

/-- The magic and nothing else, in the buffer `ReadFile` starts with. -/
def truncatedFile : Slice UInt8 where
  arr := magic ++ List.replicate 508 0
  len := 4
  len_le := by
    rw [List.length_append, List.length_replicate]
    omega

/-- The reader panics on a truncated file. -/
theorem truncatedFile_not_handled : ¬Handled truncatedFile := by
  intro h
  have hshort : ¬TableInside truncatedFile := fun htable => absurd htable.counted (by decide)
  have hgives := (readR1CS_gives
    (Q := fun r => r.err ≠ none ∨ WellFormed truncatedFile.toList)).1
    (h.reads defineOnly defineOnly_recovers freshGlobals)
  rcases (readToCounts_gives _ _).1 hgives with ⟨-, hne, -⟩ | ⟨hprime, -⟩ | ⟨hcounts, -⟩ |
    ⟨hcounts, -⟩
  · exact hne rfl
  · exact hshort hprime.toTableInside
  · exact hshort hcounts.toTableInside
  · exact hshort hcounts.toTableInside

end ProverNetwork.Ports.CircomR1CS
