import ProverNetwork.Ports.Term
import ProverNetwork.Verified.Bn254
import ProverNetwork.Verified.Dict
import ProverNetwork.Verified.LittleEndian
import ProverNetwork.Verified.Scan

/-!
# The reader of circom constraint systems

`readR1CS` decodes a `.r1cs` file into a list of packed constraints and hands
the circuit to the compiler.  The coefficients live in a global table that the
terms index; all globals are the scanner's state here.  `define` issues the
assertions of the circuit against any `API`, so that the same definition runs
on the compiler's variables and on field values.

The compiler and the outcome of reading the file from disk are parameters.
-/

namespace ProverNetwork.Ports.CircomR1CS

open ProverNetwork.Verified

/-- `readUint32`; the four summands share no bit, so nothing overflows. -/
def readUint32 (data : Slice UInt8) (offset : Int) : Go (Nat × Int) := do
  let b0 ← data.index offset
  let b1 ← data.index (offset + 1)
  let b2 ← data.index (offset + 2)
  let b3 ← data.index (offset + 3)
  pure (b0.toNat + b1.toNat <<< 8 + b2.toNat <<< 16 + b3.toNat <<< 24, offset + 4)

/-- `readUint64`. -/
def readUint64 (data : Slice UInt8) (offset : Int) : Go (Nat × Int) := do
  let b0 ← data.index offset
  let b1 ← data.index (offset + 1)
  let b2 ← data.index (offset + 2)
  let b3 ← data.index (offset + 3)
  let b4 ← data.index (offset + 4)
  let b5 ← data.index (offset + 5)
  let b6 ← data.index (offset + 6)
  let b7 ← data.index (offset + 7)
  pure (b0.toNat + b1.toNat <<< 8 + b2.toNat <<< 16 + b3.toNat <<< 24 +
    b4.toNat <<< 32 + b5.toNat <<< 40 + b6.toNat <<< 48 + b7.toNat <<< 56,
    offset + 8)

structure Section where
  offset : Int
  size : Int
  deriving DecidableEq

/-- `readBigInt`: the bytes are reversed where they stand, `buff` being a
window of `data`, and read as a big-endian number. -/
def readBigInt (data : Slice UInt8) (size : Nat) (offset : Int) :
    Go (Nat × Int × Slice UInt8) := do
  let buff ← data.subslice offset (offset + size)
  let buff := reverseInPlace buff.toList
  pure (setBytes buff, offset + size, data.overwrite offset.toNat buff)

/-- The package's variables. -/
structure Globals where
  n8 : Nat
  CoeffArr : List Nat
  coefCount : Nat
  Labels : List Nat
  NumOutput : Nat
  NumInPublic : Nat

/-- One turn of the loop of `readLC`; a fresh term is the zero word. -/
def readTerm : Scan Globals Term := do
  let index ← Scan.read readUint32
  let g ← Scan.getState
  let coeff ← Scan.readInPlace (fun data offset => readBigInt data g.n8 offset)
  let t ← Scan.liftGo (Term.setCoeffID 0 g.coefCount)
  let t ← Scan.liftGo (t.setWireID index)
  Scan.setState { g with
    CoeffArr := g.CoeffArr ++ [coeff]
    coefCount := (g.coefCount + 1) % 2 ^ 32 }
  pure t

/-- `readLC`. -/
def readLC : Scan Globals LinearExpression := do
  let nTerms ← Scan.read readUint32
  Scan.repeatN nTerms readTerm

/-- `readR1C`. -/
def readR1C : Scan Globals R1C := do
  let l ← readLC
  let r ← readLC
  let o ← readLC
  pure ⟨l, r, o⟩

/-! ## The circuit -/

/-- The part of `frontend.API` that the circuit calls, over its variables. -/
structure API (V : Type) where
  const : Nat → V
  mul : V → V → V
  add : V → V → List V → V

structure R1CSCircuit (V : Type) where
  witness : List V
  witnessPublic : List V
  constraints : List R1C

/-- The variable of a wire: wire 0 first in the private vector, then the
public wires, then the rest of the private vector. -/
def wireVariable {V : Type} (wit witPublic : List V) (wireID : Nat) : Go V :=
  if 1 ≤ wireID ∧ wireID < 1 + witPublic.length then
    (Slice.ofList witPublic).index (wireID - 1)
  else if wireID < 1 then (Slice.ofList wit).index wireID
  else (Slice.ofList wit).index (wireID - witPublic.length)

/-- One turn of the loop of `SumConstraint`. -/
def sumTerm {V : Type} (api : API V) (coeffArr : List Nat)
    (wit witPublic : List V) (term : Term) : Go V := do
  let v ← wireVariable wit witPublic term.wireID
  let coef ← (Slice.ofList coeffArr).index term.coeffID
  pure (api.mul v (api.const coef))

/-- `SumConstraint`. -/
def sumConstraint {V : Type} (api : API V) (coeffArr : List Nat)
    (lc : LinearExpression) (wit witPublic : List V) : Go V := do
  let neededVariables ← lc.mapM (sumTerm api coeffArr wit witPublic)
  match neededVariables with
  | [v0] => pure v0
  | [v0, v1] => pure (api.add v0 v1 [])
  | [v0, v1, v2] => pure (api.add v0 (api.add v1 v2 []) [])
  | [] => pure (api.const 0)
  | v0 :: v1 :: rest => pure (api.add v0 v1 rest)

/-- One turn of the loop of `Define`: the two arguments of `AssertIsEqual`. -/
def assertion {V : Type} (api : API V) (coeffArr : List Nat)
    (wit witPublic : List V) (r : R1C) : Go (V × V) := do
  let a ← sumConstraint api coeffArr r.L wit witPublic
  let b ← sumConstraint api coeffArr r.R wit witPublic
  let c ← sumConstraint api coeffArr r.O wit witPublic
  pure (api.mul a b, c)

/-- `Define`: what `AssertIsEqual` was called with, in order. -/
def R1CSCircuit.define {V : Type} (c : R1CSCircuit V) (api : API V)
    (coeffArr : List Nat) : Go (List (V × V)) :=
  c.constraints.mapM (assertion api coeffArr c.witness c.witnessPublic)

/-! ## The file -/

/-- `int(hl)` of an unsigned 64-bit number. -/
def int64 (n : Nat) : Int := (n : Int).bmod (2 ^ 64)

/-- Unsigned 32-bit wrap-around. -/
def uint32 (x : Int) : Nat := (x % 2 ^ 32).toNat

/-- One turn of the loop over the section table. -/
def readSection : Scan Globals (Nat × Section) := do
  let ht ← Scan.read readUint32
  let hl ← Scan.read readUint64
  let offset ← Scan.getPtr
  Scan.setPtr (offset + int64 hl)
  pure (ht, ⟨offset, int64 hl⟩)

def readSections : Nat → Dict Nat Section → Scan Globals (Dict Nat Section)
  | 0, sections => pure sections
  | n + 1, sections => do
      let (ht, s) ← readSection
      readSections n (sections.set ht s)

/-- `sections[t]`, the zero section where the map has none. -/
def sectionOf (sections : Dict Nat Section) (t : Nat) : Section :=
  (sections.get? t).getD ⟨0, 0⟩

/-- The numbers of the header section behind the prime. -/
structure Header where
  nVars : Nat
  nOutputs : Nat
  nPubInputs : Nat
  nPriInputs : Nat
  nLabels : Nat
  nConstraints : Nat
  deriving DecidableEq

def readPrime : Scan Globals Nat := do
  let n8 ← Scan.read readUint32
  let g ← Scan.getState
  Scan.setState { g with n8 := n8 }
  Scan.readInPlace (fun data offset => readBigInt data n8 offset)

def readHeader : Scan Globals Header := do
  let nVars ← Scan.read readUint32
  let nOutputs ← Scan.read readUint32
  let nPubInputs ← Scan.read readUint32
  let nPriInputs ← Scan.read readUint32
  let nLabels ← Scan.read readUint64
  let nConstraints ← Scan.read readUint32
  pure ⟨nVars, nOutputs, nPubInputs, nPriInputs, nLabels, nConstraints⟩

def readConstraints (nConstraints : Nat) : Scan Globals (List R1C) := do
  let g ← Scan.getState
  Scan.setState { g with coefCount := 0 }
  Scan.repeatN nConstraints readR1C

def readLabels (nVars : Nat) : Scan Globals Unit := do
  let labels ← Scan.repeatN nVars (Scan.read readUint64)
  let g ← Scan.getState
  Scan.setState { g with Labels := labels }

/-- What `ReadR1CS` returns. -/
structure ReadResult (CS : Type) where
  ccs : Option CS
  nOutputs : Nat
  nPubInputs : Nat
  err : Option String

def ReadResult.failed {CS : Type} (err : String) : ReadResult CS :=
  ⟨none, 0, 0, some err⟩

/-- The circuit before the compiler replaces its nil variables. -/
def placeholderCircuit (h : Header) (constraints : List R1C) : R1CSCircuit Unit :=
  { witness := List.replicate (uint32 (h.nVars - h.nPubInputs - h.nOutputs)) ()
    witnessPublic := List.replicate (uint32 (h.nPubInputs + h.nOutputs)) ()
    constraints := constraints }

/-- `ReadR1CS` from the sizes of the two vectors on. -/
def readRest {CS : Type}
    (compile : R1CSCircuit Unit → List Nat → Option CS × Option String)
    (sections : Dict Nat Section) (h : Header) : Scan Globals (ReadResult CS) := do
  let g ← Scan.getState
  Scan.setState { g with NumOutput := h.nOutputs, NumInPublic := h.nPubInputs }
  let s := sectionOf sections 2
  Scan.setPtr s.offset
  let constraints ← readConstraints h.nConstraints
  let ptr ← Scan.getPtr
  if s.offset + s.size ≠ ptr then
    pure (ReadResult.failed "invalid header section size")
  else
  let s := sectionOf sections 3
  Scan.setPtr s.offset
  readLabels h.nVars
  let ptr ← Scan.getPtr
  if s.offset + s.size ≠ ptr then
    pure (ReadResult.failed "invalid header section size")
  else
  let g ← Scan.getState
  let (ccs, err) := compile (placeholderCircuit h constraints) g.CoeffArr
  pure ⟨ccs, h.nOutputs, h.nPubInputs, err⟩

/-- The header section, and `next` once it is read. -/
def readHeaderSection {α : Type} (failed : String → α)
    (next : Dict Nat Section → Header → Scan Globals α) (sections : Dict Nat Section) :
    Scan Globals α := do
  let s := sectionOf sections 1
  Scan.setPtr s.offset
  let prime ← readPrime
  if prime ≠ bn254Prime then
    pure (failed "invalid prime")
  else
  let h ← readHeader
  let ptr ← Scan.getPtr
  if s.offset + s.size ≠ ptr then
    pure (failed "invalid header section size")
  else next sections h

/-- The sections in the order in which `ReadR1CS` visits them. -/
def readBody {CS : Type}
    (compile : R1CSCircuit Unit → List Nat → Option CS × Option String)
    (sections : Dict Nat Section) : Scan Globals (ReadResult CS) :=
  readHeaderSection ReadResult.failed (readRest compile) sections

/-- The bytes of `"r1cs"`. -/
def magic : List UInt8 := [0x72, 0x31, 0x63, 0x73]

/-- `ReadR1CS` up to the sizes of the two vectors, and `next` from there. -/
def readToCounts {α : Type} (file : Slice UInt8) (failed : String → α)
    (next : Dict Nat Section → Header → Scan Globals α) : Scan Globals α := do
  let headerString ← Scan.liftGo (file.subslice 0 4)
  if headerString.toList ≠ magic then
    pure (failed "invalid header type")
  else
  Scan.setPtr 4
  let _version ← Scan.read readUint32
  let nSections ← Scan.read readUint32
  let sections ← readSections nSections Dict.empty
  readHeaderSection failed next sections

def readFile {CS : Type}
    (compile : R1CSCircuit Unit → List Nat → Option CS × Option String)
    (file : Slice UInt8) : Scan Globals (ReadResult CS) :=
  readToCounts file ReadResult.failed (readRest compile)

/-- `ReadR1CS`, on the outcome of `ioutil.ReadFile`. -/
def readR1CS {CS : Type}
    (compile : R1CSCircuit Unit → List Nat → Option CS × Option String)
    (file : Except String (Slice UInt8)) (g : Globals) :
    Go (ReadResult CS × Globals) :=
  let g := { g with n8 := 0, CoeffArr := [], coefCount := 0, Labels := [] }
  match file with
  | .error err => .ok (ReadResult.failed err, g)
  | .ok file => do
      let (r, c) ← readFile compile file ⟨file, 0, g⟩
      pure (r, c.st)

end ProverNetwork.Ports.CircomR1CS
