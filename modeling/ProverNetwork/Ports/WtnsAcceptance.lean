import ProverNetwork.Ports.CircomR1CSFile
import ProverNetwork.Ports.ParseWtns

/-!
# The witness files the reader accepts

`ParseWtns` checks the magic and then reads at fixed offsets: the witness count at 60,
the values from 76 on.  It looks at no section and at no prime, and reslices up to the
capacity of the buffer.  The sizes of its two vectors come from the counts as they are:
where the file has fewer witnesses than the circuit has public wires, the capacity wraps
around to almost 2^32.  `IsWtns` says which files are witness files, with their sections in
any order.

## Main results

* `parseWires_runs`, `parseWires_fits` — the loop returns exactly when its last window
  ends inside the buffer and every public wire has a place.
* `readsWtns_iff` — on which files the reader does what a reader of witness files does.
-/

namespace ProverNetwork.Ports.CircomR1CS

open ProverNetwork.Verified

/-- The header section of a witness file: field elements of 32 bytes, the BN254 prime,
and the number of witnesses. -/
def wtnsHeader (count : Nat) : List UInt8 :=
  leBytes 4 32 ++ (leBytes 32 bn254Prime ++ leBytes 4 count)

/-- The bytes are a witness file with `count` witnesses. -/
def IsWtns (bytes : List UInt8) (count : Nat) : Prop :=
  ∃ (version : Nat) (sections : List (Nat × List UInt8)) (data : List UInt8),
    bytes = wtnsMagic ++ (leBytes 4 version ++ (leBytes 4 sections.length ++
      sections.flatMap encodeSection)) ∧
    sections.length < 2 ^ 32 ∧ (∀ s ∈ sections, s.1 < 2 ^ 32 ∧ s.2.length < 2 ^ 64) ∧
    sections.filter (fun s => s.1 = 1) = [(1, wtnsHeader count)] ∧
    sections.filter (fun s => s.1 = 2) = [(2, data)] ∧
    count < 2 ^ 32 ∧ data.length = 32 * count

/-- What a reader of witness files does: it accepts those with at least one witness and
the public ones, and returns the public ones, none of them missing, and as many others
as there are; on anything else it returns an error. -/
def ReadsWtns (memory : Memory) (file : Slice UInt8) (numOutput numInPublic : Nat) : Prop :=
  (∃ count witnesses witnessesPublic, IsWtns file.toList count ∧
      1 + numOutput + numInPublic ≤ count ∧
      parseWtnsIn memory (.ok file) numOutput numInPublic =
        .ok (.ok (witnesses, witnessesPublic)) ∧
      witnessesPublic.length = numOutput + numInPublic ∧
      witnesses.length = count - numOutput - numInPublic ∧
      ∀ v ∈ witnessesPublic, v ≠ none) ∨
    ((¬ ∃ count, IsWtns file.toList count ∧ 1 + numOutput + numInPublic ≤ count) ∧
      ∃ err, parseWtnsIn memory (.ok file) numOutput numInPublic = .ok (.error err))

/-- The first four bytes of the buffer are there and are not the magic. -/
def ForeignMagic (file : Slice UInt8) : Prop := 4 ≤ file.cap ∧ file.arr.take 4 ≠ wtnsMagic

/-- The four bytes at offset 60, as a number. -/
def countAt60 (file : Slice UInt8) : Nat := ofLE ((file.arr.drop 60).take 4)

/-! ## One witness -/

/-- The wire goes to the public vector. -/
def IsPublic (numOutput numInPublic i : Nat) : Prop :=
  1 ≤ i ∧ i < uint32 (numOutput + 1 + numInPublic)

instance (numOutput numInPublic i : Nat) : Decidable (IsPublic numOutput numInPublic i) :=
  inferInstanceAs (Decidable (_ ∧ _))

/-- How many of the first `n` wires are private. -/
def privateCount (numOutput numInPublic n : Nat) : Nat :=
  (List.range n).countP (fun i => !decide (IsPublic numOutput numInPublic i))

section Loop

variable {numOutput numInPublic : Nat}

/-- What a turn of the loop leaves behind. -/
structure WireRead (numOutput numInPublic i : Nat) (s s' : WtnsState) : Prop where
  inside : witnessDataStart + (i + 1) * witnessDataLength ≤ s.fileContent.cap
  place : IsPublic numOutput numInPublic i → i - 1 < s.witnessesPublic.length
  same_cap : s'.fileContent.cap = s.fileContent.cap
  public_read : IsPublic numOutput numInPublic i → s'.witnesses = s.witnesses ∧
    ∃ x, s'.witnessesPublic = s.witnessesPublic.set (i - 1) (some x)
  private_read : ¬ IsPublic numOutput numInPublic i →
    s'.witnessesPublic = s.witnessesPublic ∧ ∃ x, s'.witnesses = s.witnesses ++ [x]

theorem cap_overwrite (s : Slice UInt8) (lo : Nat) (new : List UInt8) :
    (s.overwrite lo new).cap = s.cap := by
  unfold Slice.overwrite
  dsimp only
  split
  next h => exact h
  next => rfl

theorem parseWire_read {s s' : WtnsState} {i : Nat}
    (h : parseWire numOutput numInPublic s i = .ok s') :
    WireRead numOutput numInPublic i s s' := by
  unfold parseWire at h
  obtain ⟨w, hw, h⟩ := (Go.bind_eq_ok _ _ _).1 h
  dsimp only at h
  have hinside := ((Slice.subslice_returns _ _ _).1 ⟨w, hw, trivial⟩).2.2
  have hbound : witnessDataStart + (i + 1) * witnessDataLength ≤ s.fileContent.cap := by
    simp only [witnessDataLength] at hinside ⊢
    omega
  by_cases hpublic : IsPublic numOutput numInPublic i
  · have hcond : 1 ≤ i ∧ i < uint32 (numOutput + 1 + numInPublic) := hpublic
    rw [if_pos hcond] at h
    split at h
    next hplace =>
      cases h
      exact ⟨hbound, fun _ => hplace, cap_overwrite _ _ _, fun _ => ⟨rfl, _, rfl⟩,
        fun hnot => absurd hpublic hnot⟩
    next => cases h
  · have hcond : ¬ (1 ≤ i ∧ i < uint32 (numOutput + 1 + numInPublic)) := hpublic
    rw [if_neg hcond] at h
    cases h
    exact ⟨hbound, fun hyes => absurd hyes hpublic, cap_overwrite _ _ _,
      fun hyes => absurd hyes hpublic, fun _ => ⟨rfl, _, rfl⟩⟩

theorem parseWire_returns {s : WtnsState} {i : Nat}
    (hinside : witnessDataStart + (i + 1) * witnessDataLength ≤ s.fileContent.cap)
    (hplace : IsPublic numOutput numInPublic i → i - 1 < s.witnessesPublic.length) :
    ∃ s', parseWire numOutput numInPublic s i = .ok s' := by
  have hsub := (Slice.subslice_returns s.fileContent
    ((witnessDataStart + i * witnessDataLength : Nat) : Int)
    ((witnessDataStart + i * witnessDataLength + witnessDataLength : Nat) : Int)).2 (by
      simp only [witnessDataLength] at hinside ⊢
      omega)
  obtain ⟨w, hw, -⟩ := hsub
  unfold parseWire
  dsimp only
  rw [hw, Go.ok_bind]
  by_cases hpublic : IsPublic numOutput numInPublic i
  · have hcond : 1 ≤ i ∧ i < uint32 (numOutput + 1 + numInPublic) := hpublic
    rw [if_pos hcond, if_pos (hplace hpublic)]
    exact ⟨_, rfl⟩
  · have hcond : ¬ (1 ≤ i ∧ i < uint32 (numOutput + 1 + numInPublic)) := hpublic
    rw [if_neg hcond]
    exact ⟨_, rfl⟩

/-! ## The loop -/

/-- What the first `n` turns leave behind, `k` being the length of the public vector. -/
structure WiresRead (numOutput numInPublic k n : Nat) (file : Slice UInt8) (s : WtnsState) :
    Prop where
  inside : n = 0 ∨ witnessDataStart + n * witnessDataLength ≤ file.cap
  same_cap : s.fileContent.cap = file.cap
  private_length : s.witnesses.length = privateCount numOutput numInPublic n
  public_length : s.witnessesPublic.length = k
  public_read : ∀ j, j < k → ((∃ x, s.witnessesPublic[j]? = some (some x)) ↔
    j + 1 < n ∧ IsPublic numOutput numInPublic (j + 1))

theorem privateCount_succ (n : Nat) :
    privateCount numOutput numInPublic (n + 1) = privateCount numOutput numInPublic n +
      if IsPublic numOutput numInPublic n then 0 else 1 := by
  rw [privateCount, List.range_succ, List.countP_append, List.countP_singleton, privateCount]
  by_cases hpublic : IsPublic numOutput numInPublic n
  · simp [hpublic]
  · simp [hpublic]

theorem parseWires_succ (n : Nat) (s : WtnsState) :
    parseWires numOutput numInPublic (n + 1) s =
      (parseWires numOutput numInPublic n s >>= fun s =>
        parseWire numOutput numInPublic s n) := by
  rw [parseWires, List.range_succ, List.foldlM_append]
  simp only [List.foldlM_cons, List.foldlM_nil, bind_pure, parseWires]

/-- One more turn, for a public wire. -/
theorem WiresRead.next_public {file : Slice UInt8} {k n : Nat} {s s' : WtnsState}
    (hread : WiresRead numOutput numInPublic k n file s)
    (hwire : WireRead numOutput numInPublic n s s') (hpublic : IsPublic numOutput numInPublic n) :
    WiresRead numOutput numInPublic k (n + 1) file s' := by
  obtain ⟨hsame, x, hset⟩ := hwire.public_read hpublic
  have hplace := hwire.place hpublic
  have hinside := hwire.inside
  rw [hread.same_cap] at hinside
  refine ⟨Or.inr hinside, hwire.same_cap.trans hread.same_cap, ?_, ?_, ?_⟩
  · rw [hsame, privateCount_succ, if_pos hpublic]
    exact hread.private_length
  · rw [hset, List.length_set]
    exact hread.public_length
  · intro j hj
    rw [hset, List.getElem?_set]
    by_cases hthis : n - 1 = j
    · rw [if_pos hthis, if_pos hplace]
      have hn : j + 1 = n := by
        have hone := hpublic.1
        omega
      rw [hn]
      exact ⟨fun _ => ⟨Nat.lt_succ_self n, hpublic⟩, fun _ => ⟨x, rfl⟩⟩
    · rw [if_neg hthis, hread.public_read j hj]
      have hne : j + 1 < n + 1 ↔ j + 1 < n := by omega
      rw [hne]

/-- One more turn, for any other wire. -/
theorem WiresRead.next_private {file : Slice UInt8} {k n : Nat} {s s' : WtnsState}
    (hread : WiresRead numOutput numInPublic k n file s)
    (hwire : WireRead numOutput numInPublic n s s')
    (hprivate : ¬IsPublic numOutput numInPublic n) :
    WiresRead numOutput numInPublic k (n + 1) file s' := by
  obtain ⟨hsame, x, hset⟩ := hwire.private_read hprivate
  have hinside := hwire.inside
  rw [hread.same_cap] at hinside
  refine ⟨Or.inr hinside, hwire.same_cap.trans hread.same_cap, ?_, ?_, ?_⟩
  · rw [hset, List.length_append, privateCount_succ, if_neg hprivate, hread.private_length]
    rfl
  · rw [hsame]
    exact hread.public_length
  · intro j hj
    rw [hsame, hread.public_read j hj]
    constructor
    · intro hold
      exact ⟨by omega, hold.2⟩
    · intro hnew
      refine ⟨?_, hnew.2⟩
      by_contra hge
      have hn : j + 1 = n := by omega
      rw [hn] at hnew
      exact hprivate hnew.2

theorem parseWires_fits {file : Slice UInt8} {k n : Nat} {s : WtnsState}
    (h : parseWires numOutput numInPublic n ⟨file, [], List.replicate k none⟩ = .ok s) :
    WiresRead numOutput numInPublic k n file s := by
  induction n generalizing s with
  | zero =>
      cases h
      refine ⟨Or.inl rfl, rfl, rfl, List.length_replicate, ?_⟩
      intro j hj
      simp [hj]
  | succ n ih =>
      rw [parseWires_succ] at h
      obtain ⟨s₁, hfirst, hlast⟩ := (Go.bind_eq_ok _ _ _).1 h
      have hwire := parseWire_read hlast
      by_cases hpublic : IsPublic numOutput numInPublic n
      · exact (ih hfirst).next_public hwire hpublic
      · exact (ih hfirst).next_private hwire hpublic

theorem parseWires_runs {file : Slice UInt8} {k n : Nat}
    (hinside : witnessDataStart + n * witnessDataLength ≤ file.cap)
    (hplace : ∀ i, IsPublic numOutput numInPublic i → i - 1 < k) :
    ∃ s, parseWires numOutput numInPublic n ⟨file, [], List.replicate k none⟩ = .ok s := by
  induction n with
  | zero => exact ⟨_, rfl⟩
  | succ n ih =>
      obtain ⟨s₁, hfirst⟩ := ih (by
        simp only [witnessDataLength] at hinside ⊢
        omega)
      have hread := parseWires_fits hfirst
      obtain ⟨s₂, hlast⟩ := parseWire_returns (s := s₁) (i := n)
        (by rw [hread.same_cap]; exact hinside)
        (fun hpublic => by rw [hread.public_length]; exact hplace n hpublic)
      refine ⟨s₂, ?_⟩
      rw [parseWires_succ, hfirst]
      exact hlast

/-- The private wires, where the counts do not wrap. -/
theorem privateCount_eq {n : Nat} (hcount : 1 + (numOutput + numInPublic) < 2 ^ 32) :
    privateCount numOutput numInPublic n =
      n - (min n (1 + (numOutput + numInPublic)) - 1) := by
  have hbound : uint32 (numOutput + 1 + numInPublic) = 1 + (numOutput + numInPublic) := by
    unfold uint32
    omega
  induction n with
  | zero => rfl
  | succ n ih =>
      rw [privateCount_succ, ih]
      by_cases hpublic : IsPublic numOutput numInPublic n
      · have hrange := hpublic
        rw [IsPublic, hbound] at hrange
        rw [if_pos hpublic]
        omega
      · have hrange := hpublic
        rw [IsPublic, hbound] at hrange
        rw [if_neg hpublic]
        omega

end Loop

/-! ## The whole file -/

/-- The buffer is a witness file with enough witnesses, what the reader takes for the count
and the values is there, and so is the memory for its private and its public vector. -/
def StandsAtOffsets (memory : Memory) (file : Slice UInt8) (numOutput numInPublic : Nat) :
    Prop :=
  ∃ count, IsWtns file.toList count ∧ 1 + numOutput + numInPublic ≤ count ∧
    countAt60 file = count ∧ witnessDataStart + count * witnessDataLength ≤ file.cap ∧
    memory 0 (count - numInPublic - numOutput) = true ∧
    memory (count - numInPublic - numOutput) (numInPublic + numOutput) = true

theorem IsWtns.magic {file : Slice UInt8} {count : Nat} (h : IsWtns file.toList count) :
    file.arr.take 4 = wtnsMagic := by
  obtain ⟨version, sections, data, hbytes, -⟩ := h
  have hlen : 4 ≤ file.len := by
    rw [← file.length_toList, hbytes, List.length_append]
    exact Nat.le_add_right 4 _
  have htake : file.toList.take 4 = file.arr.take 4 := by
    rw [Slice.toList, List.take_take, Nat.min_eq_left hlen]
  rw [← htake, hbytes]
  rfl

theorem IsWtns.count_lt {bytes : List UInt8} {count : Nat} (h : IsWtns bytes count) :
    count < 2 ^ 32 := by
  obtain ⟨version, sections, data, -, -, -, -, -, hcount, -⟩ := h
  exact hcount

section Whole

variable {memory : Memory} {numOutput numInPublic : Nat} {file : Slice UInt8}

theorem head_eq {w : Slice UInt8} (h : file.subslice 0 4 = .ok w) :
    4 ≤ file.cap ∧ w.toList = file.arr.take 4 := by
  have hcap := ((Slice.subslice_returns file 0 4).1 ⟨w, h, trivial⟩).2.2
  exact ⟨by omega, (Slice.subslice_zero h).1⟩

theorem parseWtnsIn_error_iff :
    (∃ err, parseWtnsIn memory (.ok file) numOutput numInPublic = .ok (.error err)) ↔
      ForeignMagic file := by
  constructor
  · rintro ⟨err, h⟩
    unfold parseWtnsIn at h
    obtain ⟨w, hw, h⟩ := (Go.bind_eq_ok _ _ _).1 h
    obtain ⟨hcap, hlist⟩ := head_eq hw
    split at h
    next hne =>
      rw [hlist] at hne
      exact ⟨hcap, hne⟩
    next =>
      obtain ⟨c, -, h⟩ := (Go.bind_eq_ok _ _ _).1 h
      obtain ⟨-, -, h⟩ := (Go.bind_eq_ok _ _ _).1 h
      obtain ⟨-, -, h⟩ := (Go.bind_eq_ok _ _ _).1 h
      obtain ⟨s, -, h⟩ := (Go.bind_eq_ok _ _ _).1 h
      cases h
  · rintro ⟨hcap, hne⟩
    have hhead : ∃ w, file.subslice 0 4 = .ok w ∧ w.toList = file.arr.take 4 :=
      Slice.subslice_zero_ok (by omega)
    obtain ⟨w, hw, hlist⟩ := hhead
    refine ⟨"invalid file format", ?_⟩
    unfold parseWtnsIn
    dsimp only
    rw [hw, Go.ok_bind, hlist]
    exact if_pos hne

/-- There is memory for the two vectors that the counts call for. -/
def HasRoom (memory : Memory) (numOutput numInPublic witnessSize : Nat) : Prop :=
  memory 0 (witnessesCap numOutput numInPublic witnessSize) = true ∧
    memory (witnessesCap numOutput numInPublic witnessSize)
      (uint32 (numInPublic + numOutput)) = true

theorem parseWtnsIn_ok_iff {witnesses : List Nat} {witnessesPublic : List (Option Nat)} :
    parseWtnsIn memory (.ok file) numOutput numInPublic =
        .ok (.ok (witnesses, witnessesPublic)) ↔
      rawPrimeEnd + 4 ≤ file.cap ∧ file.arr.take 4 = wtnsMagic ∧
        HasRoom memory numOutput numInPublic (countAt60 file) ∧
        ∃ s, parseWires numOutput numInPublic (countAt60 file)
            ⟨file, [], List.replicate (uint32 (numInPublic + numOutput)) none⟩ = .ok s ∧
          s.witnesses = witnesses ∧ s.witnessesPublic = witnessesPublic := by
  have hcount : ∀ c, file.subslice rawPrimeEnd (rawPrimeEnd + 4) = .ok c →
      ofLE c.toList = countAt60 file := fun c hc => by
    rw [Slice.subslice_window hc]
    rfl
  constructor
  · intro h
    unfold parseWtnsIn at h
    obtain ⟨w, hw, h⟩ := (Go.bind_eq_ok _ _ _).1 h
    obtain ⟨hcap, hlist⟩ := head_eq hw
    split at h
    next => cases h
    next heq =>
      obtain ⟨c, hc, h⟩ := (Go.bind_eq_ok _ _ _).1 h
      obtain ⟨_, hprivate, h⟩ := (Go.bind_eq_ok _ _ _).1 h
      obtain ⟨_, hpublic, h⟩ := (Go.bind_eq_ok _ _ _).1 h
      obtain ⟨s, hs, h⟩ := (Go.bind_eq_ok _ _ _).1 h
      rw [makeVariables_eq_ok, hcount c hc] at hprivate hpublic
      rw [hcount c hc] at hs
      have hinside := ((Slice.subslice_returns file _ _).1 ⟨c, hc, trivial⟩).2.2
      simp only [Go.pure_eq, Except.ok.injEq, Prod.mk.injEq] at h
      rw [hlist] at heq
      exact ⟨by omega, not_not.1 heq, ⟨hprivate, hpublic⟩, s, hs, h.1, h.2⟩
  · rintro ⟨hcap, hmagic, ⟨hprivate, hpublic⟩, s, hs, rfl, rfl⟩
    have hstart : rawPrimeEnd = 60 := rfl
    have hhead : ∃ w, file.subslice 0 4 = .ok w ∧ w.toList = file.arr.take 4 :=
      Slice.subslice_zero_ok (by omega)
    obtain ⟨w, hw, hlist⟩ := hhead
    obtain ⟨c, hc, -⟩ := (Slice.subslice_returns file (rawPrimeEnd : Int)
      ((rawPrimeEnd : Int) + 4)).2 (by omega)
    unfold parseWtnsIn
    dsimp only
    rw [hw, Go.ok_bind, if_neg (not_not.2 (hlist.trans hmagic)), hc, Go.ok_bind, hcount c hc,
      (makeVariables_eq_ok memory _ _ ()).2 hprivate, Go.ok_bind,
      (makeVariables_eq_ok memory _ _ ()).2 hpublic, Go.ok_bind, hs]
    rfl

/-- Where the public wires do not exceed the count, nothing wraps. -/
theorem hasRoom_iff {no ni count : Nat} (henough : no + ni ≤ count) (hbound : count < 2 ^ 32) :
    HasRoom memory no ni count ↔
      memory 0 (count - ni - no) = true ∧ memory (count - ni - no) (ni + no) = true := by
  have hcap : witnessesCap no ni count = count - ni - no := by
    unfold witnessesCap uint32
    omega
  have hpublic : uint32 (ni + no) = ni + no := by
    unfold uint32
    omega
  rw [HasRoom, hcap, hpublic]

/-- Where the last public wire was read, the loop went past it. -/
theorem past_public {no ni k n : Nat} {file : Slice UInt8} {s : WtnsState}
    (hread : WiresRead no ni k n file s) (hk : k = no + ni) (hsome : 0 < no + ni)
    (hall : ∀ v ∈ s.witnessesPublic, v ≠ none) : no + ni < n := by
  have hlen := hread.public_length
  have hin : no + ni - 1 < s.witnessesPublic.length := by omega
  obtain ⟨x, hx⟩ := Option.ne_none_iff_exists'.1 (hall _ (List.getElem_mem hin))
  have hget : s.witnessesPublic[no + ni - 1]? = some (some x) := by
    rw [List.getElem?_eq_getElem hin, hx]
  have hseen := (hread.public_read (no + ni - 1) (by omega)).1 ⟨x, hget⟩
  omega

/-- A witness file that is read as it should be has its count at the offset. -/
theorem standsAtOffsets_of_read {no ni count : Nat} {witnesses : List Nat}
    {witnessesPublic : List (Option Nat)} (hwtns : IsWtns file.toList count)
    (henough : 1 + no + ni ≤ count)
    (hparse : parseWtnsIn memory (.ok file) no ni = .ok (.ok (witnesses, witnessesPublic)))
    (hpublic : witnessesPublic.length = no + ni) (hprivate : witnesses.length = count - no - ni)
    (hall : ∀ v ∈ witnessesPublic, v ≠ none) : StandsAtOffsets memory file no ni := by
  obtain ⟨hcap, -, hroom, s, hs, rfl, rfl⟩ := parseWtnsIn_ok_iff.1 hparse
  have hread := parseWires_fits hs
  have hbound := hwtns.count_lt
  have hk : uint32 (ni + no) = no + ni := hread.public_length ▸ hpublic
  have hlen := hread.private_length
  rw [privateCount_eq (by omega), hprivate] at hlen
  have hlast : no + ni < countAt60 file := by
    by_cases hzero : no + ni = 0
    · rw [hzero] at hlen ⊢
      omega
    · exact past_public hread hk (Nat.pos_of_ne_zero hzero) hall
  have hcount : countAt60 file = count := by omega
  rw [hcount, hasRoom_iff (by omega) hbound] at hroom
  refine ⟨count, hwtns, henough, hcount, ?_, hroom⟩
  rcases hread.inside with hzero | hinside
  · omega
  · rw [← hcount]
    exact hinside

/-- A witness file whose count and values stand at the offsets is read. -/
theorem read_of_standsAtOffsets {no ni : Nat} (h : StandsAtOffsets memory file no ni) :
    ReadsWtns memory file no ni := by
  obtain ⟨count, hwtns, henough, hcount, hinside, hroom⟩ := h
  have hbound := hwtns.count_lt
  have hk : uint32 (ni + no) = no + ni := by
    unfold uint32
    omega
  have hpublic : ∀ i, IsPublic no ni i ↔ 1 ≤ i ∧ i < 1 + (no + ni) := by
    intro i
    have hwires : uint32 (no + 1 + ni) = 1 + (no + ni) := by
      unfold uint32
      omega
    rw [IsPublic, hwires]
  have hplace : ∀ i, IsPublic no ni i → i - 1 < no + ni := by
    intro i hi
    have hrange := (hpublic i).1 hi
    omega
  obtain ⟨s, hs⟩ := parseWires_runs hinside hplace
  have hread := parseWires_fits hs
  have hstart : rawPrimeEnd = 60 := rfl
  have hdata : witnessDataStart = 76 := rfl
  have hmemory : HasRoom memory no ni (countAt60 file) := by
    rw [hcount]
    exact (hasRoom_iff (by omega) hbound).2 hroom
  have hparse := parseWtnsIn_ok_iff.2 ⟨by omega, hwtns.magic, hmemory, s,
    by rw [hcount, hk]; exact hs, rfl, rfl⟩
  refine Or.inl ⟨count, s.witnesses, s.witnessesPublic, hwtns, henough, hparse,
    hread.public_length, ?_, ?_⟩
  · rw [hread.private_length, privateCount_eq (by omega)]
    omega
  · intro v hv hnone
    obtain ⟨j, hj⟩ := List.mem_iff_getElem?.1 hv
    have hjk : j < no + ni := by
      rw [← hread.public_length]
      exact (List.getElem?_eq_some_iff.1 hj).1
    obtain ⟨x, hx⟩ := (hread.public_read j hjk).2 ⟨by omega, (hpublic (j + 1)).2 (by omega)⟩
    rw [hj, hnone] at hx
    cases hx

/-- **The files the reader treats as it should**: those with another magic, and those
whose count and values stand at its offsets, where there is memory for the two vectors. -/
theorem readsWtns_iff (memory : Memory) (file : Slice UInt8) (numOutput numInPublic : UInt32) :
    ReadsWtns memory file numOutput.toNat numInPublic.toNat ↔
      ForeignMagic file ∨ StandsAtOffsets memory file numOutput.toNat numInPublic.toNat := by
  constructor
  · rintro (⟨count, witnesses, witnessesPublic, hwtns, henough, hparse, hpublic, hprivate,
      hall⟩ | ⟨-, herr⟩)
    · exact Or.inr (standsAtOffsets_of_read hwtns henough hparse hpublic hprivate hall)
    · exact Or.inl (parseWtnsIn_error_iff.1 herr)
  · rintro (hforeign | hstands)
    · refine Or.inr ⟨?_, parseWtnsIn_error_iff.2 hforeign⟩
      rintro ⟨count, hwtns, -⟩
      exact hforeign.2 hwtns.magic
    · exact read_of_standsAtOffsets hstands

end Whole

/-- The four bytes of the magic, in the buffer `ReadFile` starts with. -/
def magicOnly : Slice UInt8 where
  arr := wtnsMagic ++ List.replicate 508 0
  len := 4
  len_le := by
    rw [List.length_append, List.length_replicate]
    omega

/-- A machine with one gibibyte for vectors of variables, which take 16 bytes each. -/
def gibibyte : Memory := fun held n => 16 * (held + n) ≤ 2 ^ 30

/-- Four bytes are taken for a witness file without witnesses, for a circuit without public
wires. -/
theorem magicOnly_accepted :
    parseWtnsIn gibibyte (.ok magicOnly) 0 0 = .ok (.ok ([], [])) ∧
      ¬ ReadsWtns gibibyte magicOnly 0 0 := by
  refine ⟨by decide +kernel, ?_⟩
  rintro (⟨count, w, p, ⟨version, sections, data, hbytes, -⟩, -⟩ | ⟨-, err, herr⟩)
  · have hlen := congrArg List.length hbytes
    rw [Slice.length_toList] at hlen
    simp only [magicOnly, wtnsMagic, List.length_append, length_leBytes, List.length_cons,
      List.length_nil] at hlen
    omega
  · have hforeign := parseWtnsIn_error_iff.1 ⟨err, herr⟩
    exact hforeign.2 rfl

/-- With two public wires the capacity wraps, and the reader asks for 2^32 - 2 variables. -/
example : parseWtnsIn gibibyte (.ok magicOnly) 1 1 = .error .outOfMemory := by decide +kernel

end ProverNetwork.Ports.CircomR1CS
