import ProverNetwork.Ports.CircomR1CSFile
import ProverNetwork.Ports.ParseWtns

/-!
# The circuit that `ReadR1CS` builds

The circuit keeps the wires in two vectors.  `wireValues` reads the wires back
from them; on field values `Define` asserts exactly the constraints of the
system over these wires.

## Main results

* `sumConstraint_denotes` — a packed sum is the value of the combination it
  denotes, for any number of terms.
* `satisfied_iff` — the assertions hold exactly when the constraints do.
* `define_iff_system` — the two readers agree on wires.
* `genuine_of_constant_wire` — assignments with the constant wire at 1 prove
  statements of the circom system.
* `constant_wire_unchecked` — the circuit does not fix the constant wire.
-/

namespace ProverNetwork.Ports.CircomR1CS

open ProverNetwork.Verified

section Semantics

variable {F : Type} [CommRing F]

/-- `Mul` and `Add` as the field operations. -/
def fieldAPI (F : Type) [CommRing F] : API F where
  const := fun n => (n : F)
  mul := fun a b => a * b
  add := fun a b rest => a + b + rest.sum

/-- The circuit with values in place of its variables. -/
def R1CSCircuit.assign (c : R1CSCircuit Unit) (wit pub : List F) : R1CSCircuit F :=
  ⟨wit, pub, c.constraints⟩

/-- `Define` returns, and every `AssertIsEqual` it made compares equals. -/
def R1CSCircuit.Satisfied (c : R1CSCircuit F) (coeffArr : List Nat) : Prop :=
  ∃ asserted, c.define (fieldAPI F) coeffArr = .ok asserted ∧
    ∀ p ∈ asserted, p.1 = p.2

/-- The value of each wire, read from the two vectors. -/
def wireValues (wit pub : List F) (i : Nat) : F :=
  if 1 ≤ i ∧ i < 1 + pub.length then pub.getD (i - 1) 0
  else if i < 1 then wit.getD 0 0
  else wit.getD (i - pub.length) 0

private theorem index_getD {l : List F} {i : Nat} (h : i < l.length) :
    (Slice.ofList l).index i = .ok (l.getD i 0) :=
  Slice.index_ofList (by simp [List.getElem?_eq_getElem h])

theorem wireVariable_ok {wit pub : List F} {i : Nat} (hwit : 0 < wit.length)
    (hi : i < wit.length + pub.length) :
    wireVariable wit pub i = .ok (wireValues wit pub i) := by
  unfold wireVariable wireValues
  by_cases hpub : 1 ≤ i ∧ i < 1 + pub.length
  · have hidx : ((i : Int) - 1) = ((i - 1 : Nat) : Int) := by omega
    rw [if_pos hpub, if_pos hpub, hidx, index_getD (by omega)]
  · rw [if_neg hpub, if_neg hpub]
    by_cases hzero : i < 1
    · have hidx : i = 0 := by omega
      rw [if_pos hzero, if_pos hzero, hidx, index_getD hwit]
    · have hidx : ((i : Int) - pub.length) = ((i - pub.length : Nat) : Int) := by omega
      rw [if_neg hzero, if_neg hzero, hidx, index_getD (by omega)]

section Sum

variable {coeffArr : List Nat} {wit pub : List F}

private theorem mapM_sumTerm {lc : LinearExpression} {l : LinComb}
    (h : Denotes coeffArr lc l) (hwit : 0 < wit.length)
    (hwire : ∀ t ∈ l, t.wire < wit.length + pub.length) :
    lc.mapM (sumTerm (fieldAPI F) coeffArr wit pub) =
      .ok (l.map (fun t => wireValues wit pub t.wire * (t.coeff : F))) := by
  induction h with
  | nil => rfl
  | @cons term t lc l ht _ ih =>
      have hrest := ih (fun t' ht' => hwire t' (List.mem_cons_of_mem _ ht'))
      have hcoef := Slice.index_ofList ht.2
      have hvar : wireVariable wit pub t.wire = .ok (wireValues wit pub t.wire) :=
        wireVariable_ok hwit (hwire t List.mem_cons_self)
      simp only [List.mapM_cons, sumTerm, ht.1, hvar, Go.ok_bind, hcoef, Go.pure_eq]
      rw [hrest]
      rfl

/-- **A packed sum, of any length.**  The cases of zero to three terms compute
what the general case does. -/
theorem sumConstraint_denotes {lc : LinearExpression} {l : LinComb}
    (h : Denotes coeffArr lc l) (hwit : 0 < wit.length)
    (hwire : ∀ t ∈ l, t.wire < wit.length + pub.length) :
    sumConstraint (fieldAPI F) coeffArr lc wit pub =
      .ok (LinComb.eval l (wireValues wit pub)) := by
  unfold sumConstraint
  rw [mapM_sumTerm h hwit hwire, Go.ok_bind, LinComb.eval]
  generalize l.map (fun t => wireValues wit pub t.wire * (t.coeff : F)) = vs
  -- the cases of `sumConstraint`: no term, up to three, or more
  rcases vs with _ | ⟨v0, _ | ⟨v1, _ | ⟨v2, _ | ⟨v3, rest⟩⟩⟩⟩
  · simp [fieldAPI]
  · simp
  · simp [fieldAPI]
  · simp [fieldAPI]
  · simp [fieldAPI, add_assoc]

/-- What `Define` asserts for a constraint, on field values. -/
def assertedPair (w : Nat → F) (c : Constraint) : F × F :=
  (LinComb.eval c.L w * LinComb.eval c.R w, LinComb.eval c.O w)

theorem assertion_denotes {r : R1C} {c : Constraint} (h : DenotesR1C coeffArr r c)
    (hwit : 0 < wit.length)
    (hwire : ∀ t ∈ c.terms, t.wire < wit.length + pub.length) :
    assertion (fieldAPI F) coeffArr wit pub r =
      .ok (assertedPair (wireValues wit pub) c) := by
  have hsum : ∀ (lc : LinearExpression) (l : LinComb), Denotes coeffArr lc l →
      (∀ t ∈ l, t ∈ c.terms) → sumConstraint (fieldAPI F) coeffArr lc wit pub =
        .ok (LinComb.eval l (wireValues wit pub)) :=
    fun lc l hden hsub => sumConstraint_denotes hden hwit (fun t ht => hwire t (hsub t ht))
  have hL := hsum r.L c.L h.L (by simp +contextual [Constraint.terms])
  have hR := hsum r.R c.R h.R (by simp +contextual [Constraint.terms])
  have hO := hsum r.O c.O h.O (by simp +contextual [Constraint.terms])
  simp only [assertion, hL, hR, hO, Go.ok_bind, Go.pure_eq]
  rfl

theorem define_denotes {rs : List R1C} {cs : List Constraint}
    (h : List.Forall₂ (DenotesR1C coeffArr) rs cs) (hwit : 0 < wit.length)
    (hwire : ∀ c ∈ cs, ∀ t ∈ c.terms, t.wire < wit.length + pub.length) :
    (R1CSCircuit.mk wit pub rs).define (fieldAPI F) coeffArr =
      .ok (cs.map (assertedPair (wireValues wit pub))) := by
  unfold R1CSCircuit.define
  induction h with
  | nil => rfl
  | @cons r c rs cs hr _ ih =>
      have hrest := ih (fun c' hc' => hwire c' (List.mem_cons_of_mem _ hc'))
      have hfirst : assertion (fieldAPI F) coeffArr wit pub r =
          .ok (assertedPair (wireValues wit pub) c) :=
        assertion_denotes hr hwit (hwire c List.mem_cons_self)
      rw [List.mapM_cons, hfirst, Go.ok_bind, hrest]
      rfl

/-- **The assertions of `Define` are the constraints of the system.** -/
theorem satisfied_iff {rs : List R1C} {cs : List Constraint}
    (h : List.Forall₂ (DenotesR1C coeffArr) rs cs) (hwit : 0 < wit.length)
    (hwire : ∀ c ∈ cs, ∀ t ∈ c.terms, t.wire < wit.length + pub.length) :
    (R1CSCircuit.mk wit pub rs).Satisfied coeffArr ↔
      ∀ c ∈ cs, c.Holds (wireValues wit pub) := by
  unfold R1CSCircuit.Satisfied
  rw [define_denotes h hwit hwire]
  constructor
  · rintro ⟨asserted, hdef, heq⟩ c hc
    rw [← Except.ok.inj hdef] at heq
    exact heq _ (List.mem_map_of_mem hc)
  · intro hall
    refine ⟨_, rfl, ?_⟩
    intro p hp
    obtain ⟨c, hc, rfl⟩ := List.mem_map.1 hp
    exact hall c hc

end Sum

/-- On a circuit built from a system, with vectors of the circuit's lengths. -/
theorem BuiltFrom.satisfied_iff {sys : R1CSSystem} {circuit : R1CSCircuit Unit}
    {coeffArr : List Nat} (hbuilt : BuiltFrom sys circuit coeffArr) {wit pub : List F}
    (hwit : wit.length = circuit.witness.length)
    (hpub : pub.length = circuit.witnessPublic.length) :
    (circuit.assign wit pub).Satisfied coeffArr ↔
      ∀ c ∈ sys.constraints, c.Holds (wireValues wit pub) := by
  have hpublic := sys.public_le
  rw [hbuilt.witness_length] at hwit
  rw [hbuilt.public_length] at hpub
  apply CircomR1CS.satisfied_iff hbuilt.constraints (by omega)
  intro c hc t ht
  have hlt := (sys.wires_lt c hc t ht).1
  omega

end Semantics

/-! ## The two readers agree -/

/-- The wire values of a file, as field elements. -/
def fieldWires (w : List Nat) (i : Nat) : Fr := (w.getD i 0 : Nat)

/-- Numbers as field elements. -/
def asField (l : List Nat) : List Fr := l.map (fun x : Nat => (x : Fr))

@[simp] theorem length_asField (l : List Nat) : (asField l).length = l.length := by
  simp [asField]

private theorem getD_asField {l w : List Nat} {j i : Nat} (h : l[j]? = w[i]?)
    (hi : i < w.length) : (asField l).getD j 0 = fieldWires w i := by
  have hget : l[j]? = some w[i] := by rw [h, List.getElem?_eq_getElem hi]
  rw [List.getD_eq_getElem?_getD, asField, List.getElem?_map, hget, fieldWires,
    List.getD_eq_getElem?_getD, List.getElem?_eq_getElem hi]
  rfl

/-- Splitting the wires and reading them back is the identity. -/
theorem wireValues_split {w : List Nat} {k i : Nat} (hk : 1 + k ≤ w.length)
    (hi : i < w.length) :
    wireValues (asField (privateWires k w)) (asField ((w.drop 1).take k)) i =
      fieldWires w i := by
  have hlen : (asField ((w.drop 1).take k)).length = k := by
    simp
    omega
  unfold wireValues
  rw [hlen]
  by_cases hpub : 1 ≤ i ∧ i < 1 + k
  · have hget : ((w.drop 1).take k)[i - 1]? = w[i]? := by
      rw [List.getElem?_take, if_pos (by omega), List.getElem?_drop]
      congr 1
      omega
    rw [if_pos hpub, getD_asField hget hi]
  · rw [if_neg hpub]
    by_cases hzero : i < 1
    · have hget : (privateWires k w)[0]? = w[i]? := by
        have hidx : i = 0 := by omega
        rw [privateWires, List.getElem?_append_left (by simp; omega),
          List.getElem?_take, if_pos (by omega), hidx]
      rw [if_pos hzero, getD_asField hget hi]
    · have hget : (privateWires k w)[i - k]? = w[i]? := by
        rw [privateWires, List.getElem?_append_right (by simp; omega),
          List.getElem?_drop, List.length_take]
        congr 1
        omega
      rw [if_neg hzero, getD_asField hget hi]

theorem publicWires_eq_map {w : List Nat} {k : Nat} (hk : 1 + k ≤ w.length) :
    publicWires k w = ((w.drop 1).take k).map some := by
  apply List.ext_getElem?
  intro j
  rw [getElem?_publicWires, List.getElem?_map, List.getElem?_take, List.getElem?_drop]
  by_cases hj : j < k
  · rw [if_pos hj, if_pos hj, Nat.add_comm 1 j,
      List.getElem?_eq_getElem (by omega : j + 1 < w.length)]
    rfl
  · rw [if_neg hj, if_neg hj]
    rfl

/-! ### A small system -/

/-- `w0 * w0 = w1`, with wire 1 as the output. -/
def squareSystem : R1CSSystem where
  nVars := 2
  nOutputs := 1
  nPubInputs := 0
  nPriInputs := 0
  nLabels := 2
  constraints := [⟨[⟨0, 1⟩], [⟨0, 1⟩], [⟨1, 1⟩]⟩]
  labels := [0, 1]
  public_le := by decide
  nVars_lt := by decide
  nPriInputs_lt := by decide
  nLabels_lt := by decide
  nConstraints_lt := by decide
  labels_length := rfl
  labels_lt := by decide
  terms_le := by decide
  wires_lt := by decide

/-- A file of it, with the labels first and a section nobody reads. -/
def squareFile : R1CSFile squareSystem where
  n8 := 32
  version := 1
  sections := [(3, squareSystem.encodeLabels), (1, squareSystem.encodeHeader 32),
    (4, [0xff]), (2, squareSystem.encodeConstraints 32)]
  n8_lt := by decide
  prime_fits := by decide
  coeffs_fit := by decide
  version_lt := by decide
  nSections_lt := by decide
  sections_fit := by decide +kernel
  header_once := rfl
  constraints_once := rfl
  labels_once := rfl

/-- **The R1CS reader and the witness reader agree on wires.**  For every
system, every file of it, whatever was read before, and every wire vector in a
standard witness file: with the vectors `ParseWtns` returns for the counts
`ReadR1CS` returned, the assertions of `Define` hold exactly when the wires
satisfy every constraint of the system. -/
theorem define_iff_system {sys : R1CSSystem} (f : R1CSFile sys) {file wtns : Slice UInt8}
    (hfile : file.toList = f.bytes) (g : Globals) {version : Nat} {w : List Nat}
    (hw : w.length = sys.nVars) (hlt : ∀ x ∈ w, x < bn254Prime)
    (hwtns : wtns.toList = encodeWtns version w) :
    ∃ (circuit : R1CSCircuit Unit) (g' : Globals) (wit pub : List Nat),
      ReadsAs file g circuit g' sys.nOutputs sys.nPubInputs ∧
      parseWtns (.ok wtns) sys.nOutputs sys.nPubInputs = .ok (.ok (wit, pub.map some)) ∧
      wit.length = circuit.witness.length ∧ pub.length = circuit.witnessPublic.length ∧
      ((circuit.assign (asField wit) (asField pub)).Satisfied g'.CoeffArr ↔
        ∀ c ∈ sys.constraints, c.Holds (fieldWires w)) := by
  have hpublic := sys.public_le
  have hvars := sys.nVars_lt
  let k := sys.nOutputs + sys.nPubInputs
  have hk : 1 + k ≤ w.length := by omega
  obtain ⟨circuit, g', hbuilt, hreads⟩ := readR1CS_file f hfile g
  have hfits : ∀ x ∈ w, x < 256 ^ 32 := by
    intro x hx
    have hprime : bn254Prime < 256 ^ 32 := by decide
    have := hlt x hx
    omega
  have hparse := parseWtns_file hwtns (by omega) hk hfits
  rw [publicWires_eq_map hk] at hparse
  have hwit : (privateWires k w).length = circuit.witness.length := by
    rw [hbuilt.witness_length, privateWires, List.length_append, List.length_take,
      List.length_drop]
    omega
  have hpub : ((w.drop 1).take k).length = circuit.witnessPublic.length := by
    rw [hbuilt.public_length, List.length_take, List.length_drop]
    omega
  refine ⟨circuit, g', privateWires k w, (w.drop 1).take k, hreads, hparse, hwit, hpub, ?_⟩
  rw [hbuilt.satisfied_iff (by simpa using hwit) (by simpa using hpub)]
  refine forall₂_congr ?_
  intro c hc
  refine Constraint.holds_congr ?_
  intro t ht
  have hwire := (sys.wires_lt c hc t ht).1
  exact Or.inr (wireValues_split hk (by omega))

/-- The globals a process starts with. -/
def freshGlobals : Globals := ⟨0, [], 0, [], 0, 0⟩

theorem define_iff_system_square :
    ∃ (circuit : R1CSCircuit Unit) (g' : Globals) (wit pub : List Nat),
      ReadsAs (Slice.ofList squareFile.bytes) freshGlobals circuit g' 1 0 ∧
      parseWtns (.ok (Slice.ofList (encodeWtns 2 [1, 1]))) 1 0 =
        .ok (.ok (wit, pub.map some)) ∧
      wit.length = circuit.witness.length ∧ pub.length = circuit.witnessPublic.length ∧
      ((circuit.assign (asField wit) (asField pub)).Satisfied g'.CoeffArr ↔
        ∀ c ∈ squareSystem.constraints, c.Holds (fieldWires [1, 1])) :=
  define_iff_system squareFile (Slice.toList_ofList _) freshGlobals (w := [1, 1]) rfl
    (by decide) (Slice.toList_ofList _)

/-! ## What a satisfying assignment proves -/

/-- **Satisfying assignments and witnesses.**  Let the assignment satisfy every
assertion of `Define`.  The wires it gives form a witness of the system exactly
when it sets the constant wire to 1; and its public vector is the public part
of a witness when it does so, or when no constraint reads the constant wire.

Nothing in the circuit fixes that wire: `SumConstraint` takes it from the
private vector like any other. -/
theorem genuine_of_constant_wire {sys : R1CSSystem} (f : R1CSFile sys)
    {file : Slice UInt8} (hfile : file.toList = f.bytes) (g : Globals) :
    ∃ (circuit : R1CSCircuit Unit) (g' : Globals),
      ReadsAs file g circuit g' sys.nOutputs sys.nPubInputs ∧
      ∀ wit pub : List Fr, wit.length = circuit.witness.length →
        pub.length = circuit.witnessPublic.length →
        (circuit.assign wit pub).Satisfied g'.CoeffArr →
        (IsWitness sys.constraints (wireValues wit pub) ↔ wit.getD 0 0 = 1) ∧
        (wit.getD 0 0 = 1 ∨ IgnoresConstantWire Fr sys.constraints →
          Genuine sys.constraints pub) := by
  obtain ⟨circuit, g', hbuilt, hreads⟩ := readR1CS_file f hfile g
  refine ⟨circuit, g', hreads, ?_⟩
  intro wit pub hwit hpub hsat
  have hholds := (hbuilt.satisfied_iff hwit hpub).1 hsat
  have hzero : wireValues wit pub 0 = wit.getD 0 0 := by
    simp [wireValues]
  refine ⟨?_, ?_⟩
  · rw [IsWitness, hzero]
    exact and_iff_left hholds
  · intro hconst
    refine genuine_of_holds hholds ?_ (hzero ▸ hconst)
    intro i hi
    have hin : 1 ≤ i + 1 ∧ i + 1 < 1 + pub.length := by omega
    rw [wireValues, if_pos hin, Nat.add_sub_cancel]

theorem genuine_of_constant_wire_square :
    ∃ (circuit : R1CSCircuit Unit) (g' : Globals),
      ReadsAs (Slice.ofList squareFile.bytes) freshGlobals circuit g' 1 0 ∧
      (circuit.assign ([1] : List Fr) [1]).Satisfied g'.CoeffArr ∧
      IsWitness squareSystem.constraints (wireValues ([1] : List Fr) [1]) ∧
      Genuine squareSystem.constraints ([1] : List Fr) := by
  obtain ⟨circuit, g', hreads, hall⟩ :=
    genuine_of_constant_wire squareFile (Slice.toList_ofList _) freshGlobals
  obtain ⟨built, g'', hbuilt, hreads'⟩ :=
    readR1CS_file squareFile (Slice.toList_ofList _) freshGlobals
  obtain ⟨rfl, rfl⟩ := hreads.unique hreads'
  have hwit : ([1] : List Fr).length = circuit.witness.length :=
    hbuilt.witness_length.symm
  have hpub : ([1] : List Fr).length = circuit.witnessPublic.length :=
    hbuilt.public_length.symm
  have hsat : (circuit.assign ([1] : List Fr) [1]).Satisfied g'.CoeffArr := by
    rw [hbuilt.satisfied_iff hwit hpub]
    simp [squareSystem, Constraint.Holds, wireValues]
  obtain ⟨hiff, hgenuine⟩ := hall [1] [1] hwit hpub hsat
  exact ⟨circuit, g', hreads, hsat, hiff.2 rfl, hgenuine (Or.inl rfl)⟩

/-- With 2 on the constant wire the small circuit accepts 4 as the square of
the constant, which no witness has. -/
theorem constant_wire_unchecked :
    ∃ (circuit : R1CSCircuit Unit) (g' : Globals),
      ReadsAs (Slice.ofList squareFile.bytes) freshGlobals circuit g' 1 0 ∧
      ([2] : List Fr).length = circuit.witness.length ∧
      ([4] : List Fr).length = circuit.witnessPublic.length ∧
      (circuit.assign ([2] : List Fr) [4]).Satisfied g'.CoeffArr ∧
      ¬Genuine squareSystem.constraints ([4] : List Fr) := by
  obtain ⟨circuit, g', hbuilt, hreads⟩ :=
    readR1CS_file squareFile (Slice.toList_ofList _) freshGlobals
  have hwit : ([2] : List Fr).length = circuit.witness.length :=
    hbuilt.witness_length.symm
  have hpub : ([4] : List Fr).length = circuit.witnessPublic.length :=
    hbuilt.public_length.symm
  refine ⟨circuit, g', hreads, hwit, hpub, ?_, ?_⟩
  · rw [hbuilt.satisfied_iff hwit hpub]
    simp [squareSystem, Constraint.Holds, wireValues]
    norm_num
  · rintro ⟨v, ⟨hone, hholds⟩, hpublic⟩
    have hfour : v 1 = 4 := hpublic 0 (by decide)
    have hsquare : (1 : Fr) = 4 := by
      simpa [Constraint.Holds, hone, hfour] using
        hholds ⟨[⟨0, 1⟩], [⟨0, 1⟩], [⟨1, 1⟩]⟩ List.mem_cons_self
    have hcast : ((1 : Nat) : Fr) = ((4 : Nat) : Fr) := by exact_mod_cast hsquare
    exact absurd (natCast_inj (by decide) (by decide) hcast) (by decide)

end ProverNetwork.Ports.CircomR1CS
