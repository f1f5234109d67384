import ProverNetwork.Ports.ReadCircomR1CS

/-!
# The reader of circom witness files

`ParseWtns` reads the wire values of a `.wtns` file at the offsets of its
standard layout and splits them: wire 0 and the private wires go to one
vector, the outputs and public inputs to another.  Both vectors are made before
the first wire is read, in the sizes that the counts call for.

Whether there is memory for them is not in the file: `parseWtnsIn` takes it as
a parameter, and `parseWtns` is the reader where there always is.

Both vectors are made before the first wire is read, in the sizes the counts
call for.  Whether the runtime has the memory is not the program's to say, so
`parseWtnsIn` takes it as a parameter; `parseWtns` is the reader on a machine
where it always has.

## Main results

* `parseWires_spec` — where the first `n` wires of a file have gone.
* `parseWtns_file` — on the standard file of a wire vector, `parseWtns`
  returns wire 0 followed by the private wires, and the public wires.
-/

namespace ProverNetwork.Ports.CircomR1CS

open ProverNetwork.Verified

/-- `convertLittleEndianToBigEndian`. -/
def convertLittleEndianToBigEndian (data : List UInt8) : List UInt8 :=
  reverseInPlace data

/-- The variables of the loop of `ParseWtns`.  An item of the public vector is
nil until its wire was read. -/
structure WtnsState where
  fileContent : Slice UInt8
  witnesses : List Nat
  witnessesPublic : List (Option Nat)

def rawPrimeStart : Nat := 28
def rawPrimeEnd : Nat := rawPrimeStart + 8 * 4
def idSection2Start : Nat := rawPrimeEnd + 4
def witnessDataStart : Nat := idSection2Start + 12
def witnessDataLength : Nat := 8 * 4

/-- One turn of the loop; the window is reversed inside the file buffer. -/
def parseWire (numOutput numInPublic : Nat) (s : WtnsState) (i : Nat) :
    Go WtnsState := do
  let witnessStart := witnessDataStart + i * witnessDataLength
  let witnessEnd := witnessStart + witnessDataLength
  let witness ← s.fileContent.subslice witnessStart witnessEnd
  let witness := convertLittleEndianToBigEndian witness.toList
  let fileContent := s.fileContent.overwrite witnessStart witness
  let bigIntWitness := setBytes witness
  if 1 ≤ i ∧ i < uint32 (numOutput + 1 + numInPublic) then
    if i - 1 < s.witnessesPublic.length then
      pure ⟨fileContent, s.witnesses, s.witnessesPublic.set (i - 1) (some bigIntWitness)⟩
    else .error .indexOutOfRange
  else
    pure ⟨fileContent, s.witnesses ++ [bigIntWitness], s.witnessesPublic⟩

def parseWires (numOutput numInPublic n : Nat) (s : WtnsState) : Go WtnsState :=
  (List.range n).foldlM (parseWire numOutput numInPublic) s

/-- The bytes of `"wtns"`. -/
def wtnsMagic : List UInt8 := [0x77, 0x74, 0x6e, 0x73]

/-- The memory of a process: whether it finds room for a vector of `n` variables
beside the `held` ones it has made. -/
abbrev Memory := (held n : Nat) → Bool

/-- Memory for everything. -/
def Memory.ample : Memory := fun _ _ => true

/-- `make([]frontend.Variable, .., n)`. -/
def makeVariables (memory : Memory) (held n : Nat) : Go Unit :=
  if memory held n then .ok () else .error .outOfMemory

/-- The capacity `witnessSize-NumInPublic-NumOutput`, in `uint32`. -/
def witnessesCap (numOutput numInPublic witnessSize : Nat) : Nat :=
  uint32 (witnessSize - numInPublic - numOutput)

/-- `ParseWtns`, on the outcome of `ioutil.ReadFile`. -/
def parseWtnsIn (memory : Memory) (file : Except String (Slice UInt8))
    (numOutput numInPublic : Nat) : Go (Except String (List Nat × List (Option Nat))) :=
  match file with
  | .error err => pure (.error ("error reading file: " ++ err))
  | .ok fileContent => do
      let head ← fileContent.subslice 0 4
      if head.toList ≠ wtnsMagic then
        pure (.error "invalid file format")
      else
      let count ← fileContent.subslice rawPrimeEnd (rawPrimeEnd + 4)
      let witnessSize := ofLE count.toList
      makeVariables memory 0 (witnessesCap numOutput numInPublic witnessSize)
      makeVariables memory (witnessesCap numOutput numInPublic witnessSize)
        (uint32 (numInPublic + numOutput))
      let witnessesPublic := List.replicate (uint32 (numInPublic + numOutput)) none
      let s ← parseWires numOutput numInPublic witnessSize
        ⟨fileContent, [], witnessesPublic⟩
      pure (.ok (s.witnesses, s.witnessesPublic))

/-- `ParseWtns` with memory for both vectors, whatever their sizes. -/
def parseWtns (file : Except String (Slice UInt8)) (numOutput numInPublic : Nat) :
    Go (Except String (List Nat × List (Option Nat))) :=
  parseWtnsIn Memory.ample file numOutput numInPublic

@[simp] theorem makeVariables_ample (held n : Nat) :
    makeVariables Memory.ample held n = .ok () := rfl

@[simp] theorem makeVariables_eq_ok (memory : Memory) (held n : Nat) (u : Unit) :
    makeVariables memory held n = .ok u ↔ memory held n = true := by
  unfold makeVariables
  split
  next h => exact ⟨fun _ => h, fun _ => rfl⟩
  next h => exact ⟨fun hno => (nomatch hno), fun hyes => absurd hyes h⟩

/-! ## The standard file of a wire vector -/

/-- Magic, version, section count, and the header section up to the prime. -/
def encodeWtnsHeader (version : Nat) : List UInt8 :=
  wtnsMagic ++ (leBytes 4 version ++ (leBytes 4 2 ++ (leBytes 4 1 ++ (leBytes 8 40 ++
    (leBytes 4 32 ++ leBytes 32 bn254Prime)))))

/-- The file of the wires `w`: the header section ends in their count, the
data section holds 32 bytes for each. -/
def encodeWtns (version : Nat) (w : List Nat) : List UInt8 :=
  encodeWtnsHeader version ++ (leBytes 4 w.length ++
    ((leBytes 4 2 ++ leBytes 8 (32 * w.length)) ++ w.flatMap (leBytes 32)))

/-- The private vector of the wires `w` with `k` public ones. -/
def privateWires (k : Nat) (w : List Nat) : List Nat := w.take 1 ++ w.drop (1 + k)

/-- The public vector after the wires `w` were read. -/
def publicWires (k : Nat) (w : List Nat) : List (Option Nat) :=
  (List.range k).map (fun j => w[j + 1]?)

theorem privateWires_append (k : Nat) (w : List Nat) (x : Nat) :
    privateWires k (w ++ [x]) =
      if 1 ≤ w.length ∧ w.length < 1 + k then privateWires k w
      else privateWires k w ++ [x] := by
  unfold privateWires
  by_cases h0 : w.length = 0
  · have hw : w = [] := List.length_eq_zero_iff.1 h0
    simp [hw]
  · rw [List.take_append_of_le_length (by omega)]
    by_cases hk : w.length < 1 + k
    · rw [if_pos (by omega), List.drop_of_length_le (by simp; omega),
        List.drop_of_length_le (by omega)]
    · rw [if_neg (by omega), List.drop_append_of_le_length (by omega),
        List.append_assoc]

private theorem getElem?_append_singleton_of_ne {w : List Nat} {x i : Nat}
    (h : i ≠ w.length) : (w ++ [x])[i]? = w[i]? := by
  by_cases hlt : i < w.length
  · rw [List.getElem?_append_left hlt]
  · rw [List.getElem?_eq_none (by simp; omega), List.getElem?_eq_none (by omega)]

theorem getElem?_publicWires (k : Nat) (w : List Nat) (j : Nat) :
    (publicWires k w)[j]? = if j < k then some w[j + 1]? else none := by
  by_cases hj : j < k
  · simp [publicWires, hj]
  · simp [publicWires, hj]

theorem publicWires_append (k : Nat) (w : List Nat) (x : Nat) :
    publicWires k (w ++ [x]) =
      if 1 ≤ w.length ∧ w.length < 1 + k then
        (publicWires k w).set (w.length - 1) (some x)
      else publicWires k w := by
  apply List.ext_getElem?
  intro j
  split
  · rename_i hin
    rw [List.getElem?_set, getElem?_publicWires, getElem?_publicWires]
    by_cases hj : w.length - 1 = j
    · have hjk : j < k := by omega
      have hidx : j + 1 = w.length := by omega
      simp [publicWires, hj, hjk, hidx]
    · rw [if_neg hj, getElem?_append_singleton_of_ne (by omega)]
  · rename_i hout
    rw [getElem?_publicWires, getElem?_publicWires]
    by_cases hj : j < k
    · rw [if_pos hj, if_pos hj, getElem?_append_singleton_of_ne (by omega)]
    · rw [if_neg hj, if_neg hj]

@[simp] theorem length_publicWires (k : Nat) (w : List Nat) :
    (publicWires k w).length = k := by
  simp [publicWires]

/-! ## The loop -/

section Loop

variable {numOutput numInPublic : Nat}

theorem parseWire_at {s : WtnsState} {w : List Nat} {x : Nat}
    (hcount : 1 + (numOutput + numInPublic) < 2 ^ 32)
    (hpriv : s.witnesses = privateWires (numOutput + numInPublic) w)
    (hpub : s.witnessesPublic = publicWires (numOutput + numInPublic) w)
    (hat : s.fileContent.At (witnessDataStart + w.length * witnessDataLength)
      (leBytes 32 x)) (hx : x < 256 ^ 32) :
    ∃ data', parseWire numOutput numInPublic s w.length =
        .ok ⟨data', privateWires (numOutput + numInPublic) (w ++ [x]),
          publicWires (numOutput + numInPublic) (w ++ [x])⟩ ∧
      Slice.Frame (witnessDataStart + w.length * witnessDataLength)
        (witnessDataStart + (w.length + 1) * witnessDataLength) s.fileContent data' := by
  obtain ⟨buff, hsub, hbuff⟩ := hat.subslice_ok
  have hend : witnessDataStart + w.length * witnessDataLength + (leBytes 32 x).length =
      witnessDataStart + (w.length + 1) * witnessDataLength := by
    simp only [length_leBytes, witnessDataLength]
    omega
  have hrev : (reverseInPlace (leBytes 32 x)).length = (leBytes 32 x).length := by
    rw [reverseInPlace_eq_reverse, List.length_reverse]
  have hfits : witnessDataStart + w.length * witnessDataLength +
      (reverseInPlace (leBytes 32 x)).length ≤ s.fileContent.cap := by
    rw [hrev]
    exact Nat.le_trans hat.1 s.fileContent.len_le
  have hframe := Slice.overwrite_frame hfits
  rw [hrev, hend] at hframe
  refine ⟨_, ?_, hframe⟩
  have hval : setBytes (reverseInPlace (leBytes 32 x)) = x := by
    rw [reverseInPlace_eq_reverse, setBytes_reverse, ofLE_leBytes 32 x hx]
  have hbound : uint32 (numOutput + 1 + numInPublic) = 1 + (numOutput + numInPublic) := by
    unfold uint32
    omega
  have hsub' : s.fileContent.subslice
      (witnessDataStart + w.length * witnessDataLength : Nat)
      (witnessDataStart + w.length * witnessDataLength + witnessDataLength : Nat) =
      .ok buff := by
    rw [Nat.cast_add _ witnessDataLength]
    exact hsub
  simp only [parseWire, hsub', Go.ok_bind, hbuff, convertLittleEndianToBigEndian, hval,
    hbound, hpriv, hpub, length_publicWires, privateWires_append, publicWires_append]
  by_cases hin : 1 ≤ w.length ∧ w.length < 1 + (numOutput + numInPublic)
  · have hidx : w.length - 1 < numOutput + numInPublic := by omega
    simp only [if_pos hin, if_pos hidx, Go.pure_eq]
  · simp only [if_neg hin, Go.pure_eq]

/-- **The first `n` wires of a file.**  They are split as `privateWires` and
`publicWires` say, and only their bytes were touched. -/
theorem parseWires_spec {data : Slice UInt8} {w : List Nat}
    (hcount : 1 + (numOutput + numInPublic) < 2 ^ 32)
    (hat : data.At witnessDataStart (w.flatMap (leBytes 32)))
    (hw : ∀ x ∈ w, x < 256 ^ 32) : ∀ n, n ≤ w.length →
    ∃ data', parseWires numOutput numInPublic n
        ⟨data, [], publicWires (numOutput + numInPublic) []⟩ =
        .ok ⟨data', privateWires (numOutput + numInPublic) (w.take n),
          publicWires (numOutput + numInPublic) (w.take n)⟩ ∧
      Slice.Frame witnessDataStart (witnessDataStart + n * witnessDataLength)
        data data' := by
  intro n
  induction n with
  | zero =>
      intro _
      refine ⟨data, ?_, Slice.Frame.refl _ _ data⟩
      simp [parseWires, privateWires]
  | succ n ih =>
      intro hn
      obtain ⟨data1, hrun, hframe⟩ := ih (by omega)
      have hlen : (w.take n).length = n := by
        rw [List.length_take]
        omega
      have hsplit : w = w.take n ++ (w[n] :: w.drop (n + 1)) := by
        rw [← List.drop_eq_getElem_cons, List.take_append_drop]
      -- the next wire stands right behind the bytes read so far
      have hnext : data.At (witnessDataStart + n * witnessDataLength)
          (leBytes 32 w[n]) := by
        have hskip : ((w.take n).flatMap (leBytes 32)).length = n * witnessDataLength := by
          rw [List.length_flatMap]
          simp [witnessDataLength]
          omega
        rw [hsplit, List.flatMap_append, List.flatMap_cons] at hat
        have hrest := ((Slice.At.append_iff data _ _ _).1 hat).2
        rw [hskip] at hrest
        exact ((Slice.At.append_iff data _ _ _).1 hrest).1
      have hnext1 := hnext.frame hframe (Or.inr (Nat.le_refl _))
      have hstep := parseWire_at (s := ⟨data1, privateWires _ (w.take n),
        publicWires _ (w.take n)⟩) (w := w.take n) hcount rfl rfl
        (by rw [hlen]; exact hnext1) (hw w[n] (List.getElem_mem _))
      rw [hlen] at hstep
      obtain ⟨data2, hwire, hframe2⟩ := hstep
      refine ⟨data2, ?_, hframe.trans hframe2 (by omega) (by
        simp only [witnessDataLength]
        omega)⟩
      have hunfold : parseWires numOutput numInPublic (n + 1)
          ⟨data, [], publicWires (numOutput + numInPublic) []⟩ =
          (parseWires numOutput numInPublic n
            ⟨data, [], publicWires (numOutput + numInPublic) []⟩ >>= fun s =>
              parseWire numOutput numInPublic s n) := by
        rw [parseWires, List.range_succ, List.foldlM_append]
        simp only [List.foldlM_cons, List.foldlM_nil, bind_pure, parseWires]
      have htake : w.take (n + 1) = w.take n ++ [w[n]] :=
        (List.take_append_getElem hn).symm
      rw [hunfold, hrun, Go.ok_bind, hwire, htake]

end Loop

/-- **The witness reader on a standard file.**  The wires come back in the two
vectors. -/
theorem parseWtns_file {file : Slice UInt8} {version : Nat} {w : List Nat}
    {numOutput numInPublic : Nat} (hfile : file.toList = encodeWtns version w)
    (hlen : w.length < 2 ^ 32) (hcount : 1 + (numOutput + numInPublic) ≤ w.length)
    (hw : ∀ x ∈ w, x < 256 ^ 32) :
    parseWtns (.ok file) numOutput numInPublic =
      .ok (.ok (privateWires (numOutput + numInPublic) w,
        publicWires (numOutput + numInPublic) w)) := by
  have hat := file.at_toList
  rw [hfile, encodeWtns] at hat
  obtain ⟨hheader, hat⟩ := (Slice.At.append_iff file _ _ _).1 hat
  have hmagic := ((Slice.At.append_iff file _ _ _).1 hheader).1
  obtain ⟨hsize, hat⟩ := (Slice.At.append_iff file _ _ _).1 hat
  have hdata := ((Slice.At.append_iff file _ _ _).1 hat).2
  have hend : 0 + (encodeWtnsHeader version).length = rawPrimeEnd := by
    simp [encodeWtnsHeader, wtnsMagic, rawPrimeEnd, rawPrimeStart]
  rw [hend] at hsize hdata
  simp only [length_leBytes, List.length_append] at hdata
  obtain ⟨head, hhead, hheadList⟩ := hmagic.subslice_ok
  obtain ⟨count, hcountSub, hcountList⟩ := hsize.subslice_ok
  have hhead' : file.subslice 0 4 = .ok head := hhead
  have hcount' : file.subslice rawPrimeEnd (rawPrimeEnd + 4) = .ok count := by
    simpa only [length_leBytes, Nat.cast_ofNat] using hcountSub
  have hsizeEq : ofLE count.toList = w.length := by
    rw [hcountList, ofLE_leBytes 4 _ (by omega)]
  have hpublic : uint32 (numInPublic + numOutput) = numOutput + numInPublic := by
    unfold uint32
    omega
  have hnil : List.replicate (numOutput + numInPublic) none =
      publicWires (numOutput + numInPublic) [] := by
    simp [publicWires]
  have hwrap : 1 + (numOutput + numInPublic) < 2 ^ 32 := by omega
  obtain ⟨data', hrun, _⟩ := parseWires_spec hwrap hdata hw w.length (Nat.le_refl _)
  rw [List.take_length] at hrun
  simp only [parseWtns, parseWtnsIn, hhead', Go.ok_bind, hheadList, ne_eq, not_true_eq_false,
    if_false, hcount', hsizeEq, makeVariables_ample, hpublic, hnil, Go.pure_eq]
  exact congrArg (fun x => x >>= _) hrun

end ProverNetwork.Ports.CircomR1CS
