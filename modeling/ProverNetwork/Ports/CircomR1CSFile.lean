import ProverNetwork.Ports.ReadCircomR1CS
import ProverNetwork.Verified.R1CS

/-!
# Files that encode a constraint system

`R1CSSystem` is a circom constraint system and `R1CSFile` a `.r1cs` file that
encodes it, with its sections in any order and any further sections between
them.  Each decoder of the reader is specified on the bytes of what it reads.

## Main results

* `readLC_reads`, `readR1C_reads` — a packed combination or constraint denotes
  the one whose bytes were read.
* `readSections_run` — the section table locates every section that occurs
  once.
* `readR1CS_file` — on the file of a system the reader hands the compiler
  packed constraints that denote the system, and returns its counts.
-/

namespace ProverNetwork.Ports.CircomR1CS

open ProverNetwork.Verified

/-! ## The encoding -/

/-- A circom constraint system that the packed terms can express. -/
structure R1CSSystem where
  nVars : Nat
  nOutputs : Nat
  nPubInputs : Nat
  nPriInputs : Nat
  nLabels : Nat
  constraints : List Constraint
  labels : List Nat
  public_le : 1 + nOutputs + nPubInputs ≤ nVars
  nVars_lt : nVars < 2 ^ 32
  nPriInputs_lt : nPriInputs < 2 ^ 32
  nLabels_lt : nLabels < 2 ^ 64
  nConstraints_lt : constraints.length < 2 ^ 32
  labels_length : labels.length = nVars
  labels_lt : ∀ l ∈ labels, l < 2 ^ 64
  terms_le : (constraints.flatMap Constraint.terms).length ≤ 2 ^ 30
  wires_lt : ∀ c ∈ constraints, ∀ t ∈ c.terms, t.wire < nVars ∧ t.wire < 2 ^ 29

def encodeTerm (n8 : Nat) (t : LinTerm) : List UInt8 :=
  leBytes 4 t.wire ++ leBytes n8 t.coeff

def encodeLC (n8 : Nat) (l : LinComb) : List UInt8 :=
  leBytes 4 l.length ++ l.flatMap (encodeTerm n8)

def encodeConstraint (n8 : Nat) (c : Constraint) : List UInt8 :=
  encodeLC n8 c.L ++ (encodeLC n8 c.R ++ encodeLC n8 c.O)

def encodeSection (s : Nat × List UInt8) : List UInt8 :=
  leBytes 4 s.1 ++ (leBytes 8 s.2.length ++ s.2)

namespace R1CSSystem

variable (sys : R1CSSystem)

def header : Header :=
  ⟨sys.nVars, sys.nOutputs, sys.nPubInputs, sys.nPriInputs, sys.nLabels,
    sys.constraints.length⟩

def encodeCounts : List UInt8 :=
  leBytes 4 sys.nVars ++ (leBytes 4 sys.nOutputs ++ (leBytes 4 sys.nPubInputs ++
    (leBytes 4 sys.nPriInputs ++ (leBytes 8 sys.nLabels ++
      leBytes 4 sys.constraints.length))))

def encodeHeader (n8 : Nat) : List UInt8 :=
  (leBytes 4 n8 ++ leBytes n8 bn254Prime) ++ sys.encodeCounts

def encodeConstraints (n8 : Nat) : List UInt8 :=
  sys.constraints.flatMap (encodeConstraint n8)

def encodeLabels : List UInt8 := sys.labels.flatMap (leBytes 8)

end R1CSSystem

/-- A file that encodes `sys` with field elements of `n8` bytes. -/
structure R1CSFile (sys : R1CSSystem) where
  n8 : Nat
  version : Nat
  sections : List (Nat × List UInt8)
  n8_lt : n8 < 2 ^ 32
  prime_fits : bn254Prime < 256 ^ n8
  coeffs_fit : ∀ c ∈ sys.constraints, ∀ t ∈ c.terms, t.coeff < 256 ^ n8
  version_lt : version < 2 ^ 32
  nSections_lt : sections.length < 2 ^ 32
  -- the length of a slice is an `int`
  sections_fit : ∀ s ∈ sections, s.1 < 2 ^ 32 ∧ s.2.length < 2 ^ 63
  header_once : sections.filter (fun s => s.1 = 1) = [(1, sys.encodeHeader n8)]
  constraints_once :
    sections.filter (fun s => s.1 = 2) = [(2, sys.encodeConstraints n8)]
  labels_once : sections.filter (fun s => s.1 = 3) = [(3, sys.encodeLabels)]

def R1CSFile.bytes {sys : R1CSSystem} (f : R1CSFile sys) : List UInt8 :=
  magic ++ (leBytes 4 f.version ++ (leBytes 4 f.sections.length ++
    f.sections.flatMap encodeSection))

/-! ## Numbers -/

theorem readUint32_at {data : Slice UInt8} {off : Nat} {bs : List UInt8}
    (h : data.At off bs) (hlen : bs.length = 4) :
    readUint32 data off = .ok (ofLE bs, ((off + 4 : Nat) : Int)) := by
  obtain ⟨b0, b1, b2, b3, rfl⟩ : ∃ b0 b1 b2 b3, bs = [b0, b1, b2, b3] := by
    match bs, hlen with
    | [b0, b1, b2, b3], _ => exact ⟨b0, b1, b2, b3, rfl⟩
  have h0 : data.index off = .ok b0 := h.index_ok (i := 0) rfl
  have h1 : data.index (off + 1) = .ok b1 := h.index_ok (i := 1) rfl
  have h2 : data.index (off + 2) = .ok b2 := h.index_ok (i := 2) rfl
  have h3 : data.index (off + 3) = .ok b3 := h.index_ok (i := 3) rfl
  rw [ofLE_four]
  simp only [readUint32, h0, h1, h2, h3, Go.ok_bind, Nat.cast_add, Nat.cast_ofNat]
  rfl

theorem readUint64_at {data : Slice UInt8} {off : Nat} {bs : List UInt8}
    (h : data.At off bs) (hlen : bs.length = 8) :
    readUint64 data off = .ok (ofLE bs, ((off + 8 : Nat) : Int)) := by
  obtain ⟨b0, b1, b2, b3, b4, b5, b6, b7, rfl⟩ : ∃ b0 b1 b2 b3 b4 b5 b6 b7,
      bs = [b0, b1, b2, b3, b4, b5, b6, b7] := by
    match bs, hlen with
    | [b0, b1, b2, b3, b4, b5, b6, b7], _ =>
        exact ⟨b0, b1, b2, b3, b4, b5, b6, b7, rfl⟩
  have h0 : data.index off = .ok b0 := h.index_ok (i := 0) rfl
  have h1 : data.index (off + 1) = .ok b1 := h.index_ok (i := 1) rfl
  have h2 : data.index (off + 2) = .ok b2 := h.index_ok (i := 2) rfl
  have h3 : data.index (off + 3) = .ok b3 := h.index_ok (i := 3) rfl
  have h4 : data.index (off + 4) = .ok b4 := h.index_ok (i := 4) rfl
  have h5 : data.index (off + 5) = .ok b5 := h.index_ok (i := 5) rfl
  have h6 : data.index (off + 6) = .ok b6 := h.index_ok (i := 6) rfl
  have h7 : data.index (off + 7) = .ok b7 := h.index_ok (i := 7) rfl
  rw [ofLE_eight]
  simp only [readUint64, h0, h1, h2, h3, h4, h5, h6, h7, Go.ok_bind,
    Nat.cast_add, Nat.cast_ofNat]
  rfl

theorem readBigInt_at {data : Slice UInt8} {off : Nat} {bs : List UInt8}
    (h : data.At off bs) :
    ∃ data', readBigInt data bs.length off =
        .ok (ofLE bs, ((off + bs.length : Nat) : Int), data') ∧
      Slice.Frame off (off + bs.length) data data' := by
  obtain ⟨w, hw, hbuff⟩ := h.subslice_ok
  have hframe : Slice.Frame off (off + bs.length) data
      (data.overwrite off (reverseInPlace bs)) := by
    have hlen : (reverseInPlace bs).length = bs.length := by
      rw [reverseInPlace_eq_reverse, List.length_reverse]
    rw [← hlen]
    exact Slice.overwrite_frame (by rw [hlen]; exact Nat.le_trans h.1 data.len_le)
  refine ⟨_, ?_, hframe⟩
  simp only [readBigInt, hw, Go.ok_bind, hbuff, Int.toNat_natCast]
  rw [reverseInPlace_eq_reverse, setBytes_reverse]
  rfl

/-! ### The same on encoded numbers -/

section Numbers

variable {g : Globals}

theorem uint32_reads {n : Nat} (hn : n < 2 ^ 32) :
    Reads (Scan.read readUint32) (leBytes 4 n) g (fun a g' => a = n ∧ g' = g) := by
  refine Reads.read (a := n) ?_ ⟨rfl, rfl⟩
  intro data off hat
  have h := readUint32_at hat (length_leBytes 4 n)
  rwa [ofLE_leBytes 4 n (by omega)] at h

theorem uint64_reads {n : Nat} (hn : n < 2 ^ 64) :
    Reads (Scan.read readUint64) (leBytes 8 n) g (fun a g' => a = n ∧ g' = g) := by
  refine Reads.read (a := n) ?_ ⟨rfl, rfl⟩
  intro data off hat
  have h := readUint64_at hat (length_leBytes 8 n)
  rwa [ofLE_leBytes 8 n (by omega)] at h

theorem bigInt_reads {k n : Nat} (hn : n < 256 ^ k) :
    Reads (Scan.readInPlace (fun data offset => readBigInt data k offset))
      (leBytes k n) g (fun a g' => a = n ∧ g' = g) := by
  refine Reads.readInPlace (a := n) ?_ ⟨rfl, rfl⟩
  intro data off hat
  have h := readBigInt_at hat
  simpa only [length_leBytes, ofLE_leBytes k n hn] using h

end Numbers

/-! ## Linear combinations and constraints -/

/-- The packed combination `lc` denotes `l` over the coefficient table. -/
def Denotes (coeffArr : List Nat) (lc : LinearExpression) (l : LinComb) : Prop :=
  List.Forall₂ (fun term t =>
    term.wireID = t.wire ∧ coeffArr[term.coeffID]? = some t.coeff) lc l

/-- The packed constraint `r` denotes `c` over the coefficient table. -/
structure DenotesR1C (coeffArr : List Nat) (r : R1C) (c : Constraint) : Prop where
  L : Denotes coeffArr r.L c.L
  R : Denotes coeffArr r.R c.R
  O : Denotes coeffArr r.O c.O

/-- Growing the table changes no denotation. -/
theorem Denotes.append {coeffArr : List Nat} {lc : LinearExpression} {l : LinComb}
    (h : Denotes coeffArr lc l) (more : List Nat) :
    Denotes (coeffArr ++ more) lc l := by
  refine List.Forall₂.imp ?_ h
  intro term t ht
  have hlt : term.coeffID < coeffArr.length := (List.getElem?_eq_some_iff.1 ht.2).1
  exact ⟨ht.1, by rw [List.getElem?_append_left hlt]; exact ht.2⟩

theorem DenotesR1C.append {coeffArr : List Nat} {r : R1C} {c : Constraint}
    (h : DenotesR1C coeffArr r c) (more : List Nat) :
    DenotesR1C (coeffArr ++ more) r c :=
  ⟨h.L.append more, h.R.append more, h.O.append more⟩

/-- The globals once `coeffs` were appended to the table. -/
def Globals.extend (g : Globals) (coeffs : List Nat) : Globals :=
  { g with
    CoeffArr := g.CoeffArr ++ coeffs
    coefCount := g.coefCount + coeffs.length }

@[simp] theorem Globals.extend_nil (g : Globals) : g.extend [] = g := by
  simp [Globals.extend]

@[simp] theorem Globals.extend_extend (g : Globals) (xs ys : List Nat) :
    (g.extend xs).extend ys = g.extend (xs ++ ys) := by
  simp [Globals.extend, Nat.add_assoc]

/-- The counter is the length of the table, and `room` more ids fit. -/
structure Globals.Ready (g : Globals) (n8 room : Nat) : Prop where
  n8_eq : g.n8 = n8
  count_eq : g.coefCount = g.CoeffArr.length
  room_le : g.CoeffArr.length + room ≤ 2 ^ 30

theorem Globals.Ready.extend {g : Globals} {n8 room : Nat} {coeffs : List Nat}
    (h : g.Ready n8 (coeffs.length + room)) : (g.extend coeffs).Ready n8 room := by
  have hroom := h.room_le
  refine ⟨h.n8_eq, ?_, ?_⟩
  · simp [Globals.extend, h.count_eq]
  · simp only [Globals.extend, List.length_append]
    omega

theorem readTerm_reads {g : Globals} {n8 : Nat} {t : LinTerm} (hg : g.Ready n8 1)
    (hwire : t.wire < 2 ^ 29) (hcoeff : t.coeff < 256 ^ n8) :
    Reads readTerm (encodeTerm n8 t) g (fun term g' =>
      g' = g.extend [t.coeff] ∧ term.wireID = t.wire ∧
        term.coeffID = g.CoeffArr.length) := by
  have hroom := hg.room_le
  have hn8 := hg.n8_eq
  subst hn8
  obtain ⟨t1, hset1, hcoeffID⟩ :=
    Term.setCoeffID_fits 0 (c := g.coefCount) (by rw [hg.count_eq]; omega)
  obtain ⟨t2, hset2, hwireID, hkeep⟩ := Term.setWireID_fits t1 hwire
  refine Reads.bind_eq (uint32_reads (by omega)) (Reads.bind_getState ?_)
  rw [← List.append_nil (leBytes g.n8 t.coeff)]
  refine Reads.bind_eq (bigInt_reads hcoeff) ?_
  refine Reads.bind_liftGo hset1 (Reads.bind_liftGo hset2 ?_)
  refine Reads.bind_setState (Reads.pure ⟨?_, hwireID, ?_⟩)
  · have hmod : (g.coefCount + 1) % 2 ^ 32 = g.coefCount + 1 := by
      rw [hg.count_eq]
      omega
    rw [Globals.extend, hmod]
    rfl
  · rw [hkeep, hcoeffID, hg.count_eq]

/-- The coefficients of a combination, in the order of its terms. -/
def coeffsOf (l : LinComb) : List Nat := l.map LinTerm.coeff

theorem readLC_reads {g : Globals} {n8 : Nat} {l : LinComb} (hg : g.Ready n8 l.length)
    (hwire : ∀ t ∈ l, t.wire < 2 ^ 29) (hcoeff : ∀ t ∈ l, t.coeff < 256 ^ n8) :
    Reads readLC (encodeLC n8 l) g (fun lc g' =>
      g' = g.extend (coeffsOf l) ∧ Denotes g'.CoeffArr lc l) := by
  have hroom := hg.room_le
  refine Reads.bind_eq (uint32_reads (by omega)) ?_
  refine Reads.repeatN (I := fun done out g' =>
    g' = g.extend (coeffsOf done) ∧ Denotes g'.CoeffArr out done) ?_ ?_
  · exact ⟨by simp [coeffsOf], List.Forall₂.nil⟩
  · intro done t rest out g' hl hI
    obtain ⟨rfl, hden⟩ := hI
    have hlen : l.length = done.length + (rest.length + 1) := by simp [hl]
    have hready : (g.extend (coeffsOf done)).Ready n8 1 := by
      apply Globals.Ready.extend
      refine ⟨hg.n8_eq, hg.count_eq, ?_⟩
      simp only [coeffsOf, List.length_map]
      omega
    have hmem : t ∈ l := by simp [hl]
    refine (readTerm_reads hready (hwire t hmem) (hcoeff t hmem)).mono ?_
    intro term g'' h
    obtain ⟨rfl, hwireID, hcoeffID⟩ := h
    refine ⟨by simp [coeffsOf], ?_⟩
    have hlast : Denotes (((g.extend (coeffsOf done)).extend [t.coeff]).CoeffArr)
        [term] [t] := by
      refine List.Forall₂.cons ⟨hwireID, ?_⟩ List.Forall₂.nil
      simp [hcoeffID, Globals.extend]
    exact List.rel_append (hden.append [t.coeff]) hlast

/-- The coefficients of a constraint, in the order of its terms. -/
def coeffsOfR1C (c : Constraint) : List Nat := coeffsOf c.terms

theorem readR1C_reads {g : Globals} {n8 : Nat} {c : Constraint}
    (hg : g.Ready n8 c.terms.length) (hwire : ∀ t ∈ c.terms, t.wire < 2 ^ 29)
    (hcoeff : ∀ t ∈ c.terms, t.coeff < 256 ^ n8) :
    Reads readR1C (encodeConstraint n8 c) g (fun r g' =>
      g' = g.extend (coeffsOfR1C c) ∧ DenotesR1C g'.CoeffArr r c) := by
  have hlen : c.terms.length = c.L.length + (c.R.length + c.O.length) := by
    simp [Constraint.terms]
  rw [hlen] at hg
  have hL : ∀ t ∈ c.L, t ∈ c.terms := by simp +contextual [Constraint.terms]
  have hR : ∀ t ∈ c.R, t ∈ c.terms := by simp +contextual [Constraint.terms]
  have hO : ∀ t ∈ c.O, t ∈ c.terms := by simp +contextual [Constraint.terms]
  have hg0 : g.Ready n8 c.L.length :=
    ⟨hg.n8_eq, hg.count_eq, by have := hg.room_le; omega⟩
  refine Reads.bind (readLC_reads hg0 (fun t ht => hwire t (hL t ht))
    (fun t ht => hcoeff t (hL t ht))) ?_
  intro l g1 h1
  obtain ⟨rfl, hdenL⟩ := h1
  have hg1 : (g.extend (coeffsOf c.L)).Ready n8 (c.R.length + c.O.length) :=
    Globals.Ready.extend (by simpa [coeffsOf] using hg)
  have hg1' : (g.extend (coeffsOf c.L)).Ready n8 c.R.length :=
    ⟨hg1.n8_eq, hg1.count_eq, by have := hg1.room_le; omega⟩
  refine Reads.bind (readLC_reads hg1' (fun t ht => hwire t (hR t ht))
    (fun t ht => hcoeff t (hR t ht))) ?_
  intro r g2 h2
  obtain ⟨rfl, hdenR⟩ := h2
  have hg2 : ((g.extend (coeffsOf c.L)).extend (coeffsOf c.R)).Ready n8 c.O.length :=
    Globals.Ready.extend (by simpa [coeffsOf] using hg1)
  refine Reads.map ((readLC_reads hg2 (fun t ht => hwire t (hO t ht))
    (fun t ht => hcoeff t (hO t ht))).mono ?_)
  intro o g3 h3
  obtain ⟨rfl, hdenO⟩ := h3
  refine ⟨by simp [coeffsOfR1C, coeffsOf, Constraint.terms], ?_, ?_, hdenO⟩
  · exact (hdenL.append (coeffsOf c.R)).append (coeffsOf c.O)
  · exact hdenR.append (coeffsOf c.O)

/-! ## The three sections -/

section Sections

variable {sys : R1CSSystem} (f : R1CSFile sys)

/-- The coefficient table of a whole system. -/
def R1CSSystem.table (sys : R1CSSystem) : List Nat :=
  sys.constraints.flatMap coeffsOfR1C

theorem readPrime_reads (g : Globals) :
    Reads readPrime (leBytes 4 f.n8 ++ leBytes f.n8 bn254Prime) g (fun prime g' =>
      prime = bn254Prime ∧ g' = { g with n8 := f.n8 }) := by
  refine Reads.bind_eq (uint32_reads f.n8_lt) (Reads.bind_getState ?_)
  exact Reads.bind_setState (bigInt_reads f.prime_fits)

theorem readHeader_reads (sys : R1CSSystem) (g : Globals) :
    Reads readHeader sys.encodeCounts g (fun h g' => h = sys.header ∧ g' = g) := by
  have hpublic := sys.public_le
  have hvars := sys.nVars_lt
  refine Reads.bind_eq (uint32_reads hvars) ?_
  refine Reads.bind_eq (uint32_reads (by omega)) ?_
  refine Reads.bind_eq (uint32_reads (by omega)) ?_
  refine Reads.bind_eq (uint32_reads sys.nPriInputs_lt) ?_
  refine Reads.bind_eq (uint64_reads sys.nLabels_lt) ?_
  refine Reads.map ((uint32_reads sys.nConstraints_lt).mono ?_)
  intro n g' h
  exact ⟨by rw [h.1]; rfl, h.2⟩

theorem readConstraints_reads (g : Globals) (hn8 : g.n8 = f.n8)
    (htable : g.CoeffArr = []) :
    Reads (readConstraints sys.constraints.length) (sys.encodeConstraints f.n8) g
      (fun rs g' => g' = { g with CoeffArr := sys.table, coefCount := sys.table.length } ∧
        List.Forall₂ (DenotesR1C g'.CoeffArr) rs sys.constraints) := by
  have hterms := sys.terms_le
  refine Reads.bind_getState (Reads.bind_setState ?_)
  refine (Reads.repeatN (I := fun done out g' =>
    g' = { g with coefCount := 0 }.extend (done.flatMap coeffsOfR1C) ∧
      List.Forall₂ (DenotesR1C g'.CoeffArr) out done) ?_ ?_).mono ?_
  · exact ⟨by simp, List.Forall₂.nil⟩
  · intro done c rest out g' hcs hI
    obtain ⟨rfl, hden⟩ := hI
    have hmem : c ∈ sys.constraints := by simp [hcs]
    have hroom : (done.flatMap coeffsOfR1C).length + c.terms.length ≤ 2 ^ 30 := by
      rw [hcs] at hterms
      simp only [List.flatMap_append, List.flatMap_cons, List.length_append] at hterms
      have hsame : (done.flatMap coeffsOfR1C).length =
          (done.flatMap Constraint.terms).length := by
        simp [List.length_flatMap, coeffsOfR1C, coeffsOf]
      omega
    have hready : ({ g with coefCount := 0 }.extend
        (done.flatMap coeffsOfR1C)).Ready f.n8 c.terms.length := by
      apply Globals.Ready.extend
      refine ⟨hn8, by simp [htable], ?_⟩
      simp only [htable, List.length_nil]
      omega
    refine (readR1C_reads hready (fun t ht => (sys.wires_lt c hmem t ht).2)
      (fun t ht => f.coeffs_fit c hmem t ht)).mono ?_
    intro r g'' h
    obtain ⟨rfl, hr⟩ := h
    refine ⟨by simp, ?_⟩
    have hold : List.Forall₂ (DenotesR1C
        (({ g with coefCount := 0 }.extend (done.flatMap coeffsOfR1C)).extend
          (coeffsOfR1C c)).CoeffArr) out done :=
      hden.imp (fun _ _ hd => hd.append (coeffsOfR1C c))
    exact List.rel_append hold (List.Forall₂.cons hr List.Forall₂.nil)
  · intro rs g' h
    refine ⟨?_, h.2⟩
    rw [h.1]
    simp [Globals.extend, htable, R1CSSystem.table]

theorem readLabels_reads (sys : R1CSSystem) (g : Globals) :
    Reads (readLabels sys.nVars) sys.encodeLabels g
      (fun _ g' => g' = { g with Labels := sys.labels }) := by
  have hloop : Reads (Scan.repeatN sys.labels.length (Scan.read readUint64))
      sys.encodeLabels g (fun out g' => out = sys.labels ∧ g' = g) := by
    refine Reads.repeatN (I := fun done out g' => out = done ∧ g' = g) ⟨rfl, rfl⟩ ?_
    intro done l rest out g' hls hI
    have hmem : l ∈ sys.labels := by simp [hls]
    refine (uint64_reads (sys.labels_lt l hmem)).mono ?_
    intro a g'' h
    exact ⟨by rw [hI.1, h.1], by rw [h.2, hI.2]⟩
  rw [sys.labels_length] at hloop
  rw [← List.append_nil sys.encodeLabels]
  refine Reads.bind_eq hloop (Reads.bind_getState ?_)
  intro data off _
  exact ⟨(), _, data, rfl, Slice.Frame.refl _ _ data, rfl⟩

end Sections

/-! ## The section table -/

theorem int64_of_lt {n : Nat} (h : n < 2 ^ 63) : int64 n = n := by
  unfold int64
  rw [Int.bmod_def]
  omega

/-- One turn over the table skips the body of the section. -/
theorem readSection_run {data : Slice UInt8} {base : Nat} {t : Nat}
    {body : List UInt8} (hat : data.At base (encodeSection (t, body)))
    (ht : t < 2 ^ 32) (hbody : body.length < 2 ^ 63) (g : Globals) :
    readSection ⟨data, base, g⟩ =
      .ok ((t, ⟨((base + 12 : Nat) : Int), body.length⟩),
        ⟨data, ((base + 12 + body.length : Nat) : Int), g⟩) := by
  obtain ⟨htype, hrest⟩ := (Slice.At.append_iff data base _ _).1 hat
  rw [length_leBytes] at hrest
  obtain ⟨hsize, _⟩ := (Slice.At.append_iff data (base + 4) _ _).1 hrest
  have h4 := readUint32_at htype (length_leBytes 4 t)
  have h8 := readUint64_at hsize (length_leBytes 8 body.length)
  rw [ofLE_leBytes 4 t (by omega)] at h4
  rw [ofLE_leBytes 8 body.length (by omega)] at h8
  simp only [readSection, Scan.read, Scan.getPtr, Scan.setPtr, Scan.bind_apply, h4,
    Go.pure_eq, Go.ok_bind, h8, int64_of_lt hbody, Scan.pure_apply]
  have hptr : ((base + 4 + 8 : Nat) : Int) = (base + 12 : Nat) := by omega
  rw [hptr, Nat.cast_add (base + 12)]

/-- Where the body of the first section of type `t` starts, in a table that
starts at `base`. -/
def sectionOffset (t : Nat) : Nat → List (Nat × List UInt8) → Nat
  | base, [] => base
  | base, (u, body) :: rest =>
      if u = t then base + 12 else sectionOffset t (base + 12 + body.length) rest

private theorem once_cons {t v : Nat} {body bt : List UInt8}
    {secs : List (Nat × List UInt8)}
    (h : ((v, body) :: secs).filter (fun s => s.1 = t) = [(t, bt)]) :
    (v = t ∧ body = bt ∧ secs.filter (fun s => s.1 = t) = []) ∨
      (v ≠ t ∧ secs.filter (fun s => s.1 = t) = [(t, bt)]) := by
  by_cases hv : v = t
  · simp only [hv, List.filter_cons, decide_true, if_true, List.cons.injEq,
      Prod.mk.injEq, true_and] at h
    exact Or.inl ⟨hv, h.1, h.2⟩
  · simp only [List.filter_cons, hv, decide_false, Bool.false_eq_true, if_false] at h
    exact Or.inr ⟨hv, h⟩

/-- **The section table.**  A section whose type occurs once is found. -/
theorem readSections_run {data : Slice UInt8} :
    ∀ (secs : List (Nat × List UInt8)) (base : Nat) (m : Dict Nat Section)
      (g : Globals), data.At base (secs.flatMap encodeSection) →
    (∀ s ∈ secs, s.1 < 2 ^ 32 ∧ s.2.length < 2 ^ 63) →
    ∃ m', readSections secs.length m ⟨data, base, g⟩ =
        .ok (m', ⟨data, ((base + (secs.flatMap encodeSection).length : Nat) : Int), g⟩) ∧
      ∀ t, (secs.filter (fun s => s.1 = t) = [] → m'.get? t = m.get? t) ∧
        ∀ body, secs.filter (fun s => s.1 = t) = [(t, body)] →
          m'.get? t = some ⟨sectionOffset t base secs, body.length⟩ := by
  intro secs
  induction secs with
  | nil =>
      intro base m g _ _
      refine ⟨m, rfl, ?_⟩
      intro t
      exact ⟨fun _ => rfl, fun body h => by simp at h⟩
  | cons s secs ih =>
      obtain ⟨u, body⟩ := s
      intro base m g hat hfit
      rw [List.flatMap_cons] at hat
      obtain ⟨hhead, htail⟩ := (Slice.At.append_iff data base _ _).1 hat
      have hu := hfit (u, body) List.mem_cons_self
      have hlen : (encodeSection (u, body)).length = 12 + body.length := by
        simp only [encodeSection, List.length_append, length_leBytes]
        omega
      rw [hlen] at htail
      have hrun := readSection_run hhead hu.1 hu.2 g
      obtain ⟨m', hrest, hmap⟩ := ih (base + (12 + body.length))
        (m.set u ⟨((base + 12 : Nat) : Int), body.length⟩) g htail
        (fun s hs => hfit s (List.mem_cons_of_mem _ hs))
      have hassoc : base + (12 + body.length) = base + 12 + body.length := by omega
      refine ⟨m', ?_, ?_⟩
      · rw [List.length_cons, readSections, Scan.bind_apply, hrun, Go.ok_bind]
        rw [hassoc] at hrest
        simp only [hrest, List.flatMap_cons, List.length_append, hlen]
        congr 3
        omega
      · intro t
        obtain ⟨hnone, honce⟩ := hmap t
        refine ⟨?_, ?_⟩
        · intro h
          obtain ⟨hut, hrest'⟩ : u ≠ t ∧ secs.filter (fun s => s.1 = t) = [] := by
            simpa using h
          rw [hnone hrest', Dict.get?_set, if_neg (Ne.symm hut)]
        · intro body' h
          rcases once_cons h with ⟨rfl, rfl, hrest'⟩ | ⟨hut, hrest'⟩
          · rw [hnone hrest', Dict.get?_set_self, sectionOffset, if_pos rfl]
          · rw [honce body' hrest', sectionOffset, if_neg hut, hassoc]

section Offsets

variable {t u : Nat} {bt bu : List UInt8}

theorem sectionOffset_bounds : ∀ (secs : List (Nat × List UInt8)) (base : Nat),
    secs.filter (fun s => s.1 = t) = [(t, bt)] →
    base + 12 ≤ sectionOffset t base secs ∧
      sectionOffset t base secs + bt.length ≤
        base + (secs.flatMap encodeSection).length := by
  intro secs
  induction secs with
  | nil => intro base h; simp at h
  | cons s secs ih =>
      obtain ⟨v, body⟩ := s
      intro base h
      simp only [sectionOffset, List.flatMap_cons, List.length_append, encodeSection,
        length_leBytes]
      rcases once_cons h with ⟨rfl, rfl, _⟩ | ⟨hv, hrest⟩
      · rw [if_pos rfl]
        omega
      · have hih := ih (base + 12 + body.length) hrest
        rw [if_neg hv]
        omega

theorem sectionOffset_at {data : Slice UInt8} :
    ∀ (secs : List (Nat × List UInt8)) (base : Nat),
    data.At base (secs.flatMap encodeSection) →
    secs.filter (fun s => s.1 = t) = [(t, bt)] →
    data.At (sectionOffset t base secs) bt := by
  intro secs
  induction secs with
  | nil => intro base _ h; simp at h
  | cons s secs ih =>
      obtain ⟨v, body⟩ := s
      intro base hat h
      rw [List.flatMap_cons] at hat
      obtain ⟨hhead, htail⟩ := (Slice.At.append_iff data base _ _).1 hat
      have hlen : base + (encodeSection (v, body)).length = base + 12 + body.length := by
        simp only [encodeSection, List.length_append, length_leBytes]
        omega
      rcases once_cons h with ⟨rfl, rfl, _⟩ | ⟨hv, hrest⟩
      · rw [sectionOffset, if_pos rfl]
        have hrest := ((Slice.At.append_iff data base _ _).1 hhead).2
        have hbody := ((Slice.At.append_iff data _ _ _).1 hrest).2
        simpa only [length_leBytes, Nat.add_assoc] using hbody
      · rw [sectionOffset, if_neg hv, ← hlen]
        exact ih _ htail hrest

/-- Two sections do not overlap. -/
theorem sectionOffset_disjoint (htu : t ≠ u) :
    ∀ (secs : List (Nat × List UInt8)) (base : Nat),
    secs.filter (fun s => s.1 = t) = [(t, bt)] →
    secs.filter (fun s => s.1 = u) = [(u, bu)] →
    sectionOffset t base secs + bt.length ≤ sectionOffset u base secs ∨
      sectionOffset u base secs + bu.length ≤ sectionOffset t base secs := by
  intro secs
  induction secs with
  | nil => intro base h; simp at h
  | cons s secs ih =>
      obtain ⟨v, body⟩ := s
      intro base ht hu
      simp only [sectionOffset]
      rcases once_cons ht with ⟨rfl, rfl, _⟩ | ⟨hvt, ht'⟩
      · rcases once_cons hu with ⟨hvu, _, _⟩ | ⟨hvu, hu'⟩
        · exact absurd hvu htu
        · have hbound := (sectionOffset_bounds secs (base + 12 + body.length) hu').1
          rw [if_pos rfl, if_neg hvu]
          omega
      · rcases once_cons hu with ⟨rfl, rfl, _⟩ | ⟨hvu, hu'⟩
        · have hbound := (sectionOffset_bounds secs (base + 12 + body.length) ht').1
          rw [if_neg hvt, if_pos rfl]
          omega
        · rw [if_neg hvt, if_neg hvu]
          exact ih _ ht' hu'

end Offsets

/-! ## The whole file -/

/-- What `ReadR1CS` hands the compiler for a file of `sys`. -/
structure BuiltFrom (sys : R1CSSystem) (c : R1CSCircuit Unit) (coeffArr : List Nat) :
    Prop where
  witness_length : c.witness.length = sys.nVars - (sys.nOutputs + sys.nPubInputs)
  public_length : c.witnessPublic.length = sys.nOutputs + sys.nPubInputs
  constraints : List.Forall₂ (DenotesR1C coeffArr) c.constraints sys.constraints

theorem uint32_of_lt {n : Nat} {x : Int} (hx : x = n) (hn : n < 2 ^ 32) :
    uint32 x = n := by
  unfold uint32
  omega

theorem placeholderCircuit_built {sys : R1CSSystem} {rs : List R1C} {coeffArr : List Nat}
    (h : List.Forall₂ (DenotesR1C coeffArr) rs sys.constraints) :
    BuiltFrom sys (placeholderCircuit sys.header rs) coeffArr := by
  have hpublic := sys.public_le
  have hvars := sys.nVars_lt
  refine ⟨?_, ?_, h⟩
  · simp only [placeholderCircuit, List.length_replicate]
    exact uint32_of_lt (by simp only [R1CSSystem.header]; omega) (by omega)
  · simp only [placeholderCircuit, List.length_replicate]
    exact uint32_of_lt (by simp only [R1CSSystem.header]; omega) (by omega)

section File

variable {sys : R1CSSystem} (f : R1CSFile sys)

/-- The globals once the constraints of `sys` were read. -/
def loadedGlobals (g : Globals) : Globals :=
  { g with
    n8 := f.n8
    CoeffArr := sys.table
    coefCount := sys.table.length
    NumOutput := sys.nOutputs
    NumInPublic := sys.nPubInputs }

/-- The reader behind the section table, on a file that holds the three
sections in places that do not overlap. -/
theorem readBody_run {data : Slice UInt8} {o1 o2 o3 : Nat} {m : Dict Nat Section}
    (hm1 : m.get? 1 = some ⟨o1, (sys.encodeHeader f.n8).length⟩)
    (hm2 : m.get? 2 = some ⟨o2, (sys.encodeConstraints f.n8).length⟩)
    (hm3 : m.get? 3 = some ⟨o3, sys.encodeLabels.length⟩)
    (hat1 : data.At o1 (sys.encodeHeader f.n8))
    (hat2 : data.At o2 (sys.encodeConstraints f.n8))
    (hat3 : data.At o3 sys.encodeLabels)
    (h12 : o2 + (sys.encodeConstraints f.n8).length ≤ o1 ∨
      o1 + (sys.encodeHeader f.n8).length ≤ o2)
    (h13 : o3 + sys.encodeLabels.length ≤ o1 ∨
      o1 + (sys.encodeHeader f.n8).length ≤ o3)
    (h23 : o3 + sys.encodeLabels.length ≤ o2 ∨
      o2 + (sys.encodeConstraints f.n8).length ≤ o3)
    (ptr : Int) (g : Globals) (htable : g.CoeffArr = []) :
    ∃ rs c', BuiltFrom sys (placeholderCircuit sys.header rs) c'.st.CoeffArr ∧
      c'.st.CoeffArr = sys.table ∧
      ∀ (CS : Type) (compile : R1CSCircuit Unit → List Nat → Option CS × Option String),
        readBody compile m ⟨data, ptr, g⟩ =
          .ok (⟨(compile (placeholderCircuit sys.header rs) sys.table).1,
            sys.nOutputs, sys.nPubInputs,
            (compile (placeholderCircuit sys.header rs) sys.table).2⟩, c') := by
  -- the header section, in two reads
  obtain ⟨hatP, hatH⟩ := (Slice.At.append_iff data o1 _ _).1 hat1
  obtain ⟨_, _, d1, hrun1, hframe1, rfl, rfl⟩ := readPrime_reads f g data o1 hatP
  have hatH1 := hatH.frame hframe1 (Or.inr (Nat.le_refl _))
  obtain ⟨_, _, d2, hrun2, hframe2, rfl, rfl⟩ :=
    readHeader_reads sys { g with n8 := f.n8 } d1 _ hatH1
  have hframe12 := hframe1.trans hframe2 (by omega) (by omega)
  have hlen1 : o1 + (leBytes 4 f.n8 ++ leBytes f.n8 bn254Prime).length +
      sys.encodeCounts.length = o1 + (sys.encodeHeader f.n8).length := by
    rw [Nat.add_assoc, ← List.length_append, ← R1CSSystem.encodeHeader]
  rw [hlen1] at hframe12 hrun2
  -- the constraints section
  have hatC := hat2.frame hframe12 h12
  obtain ⟨rs, _, d3, hrun3, hframe3, rfl, hden⟩ :=
    readConstraints_reads f { g with
      n8 := f.n8, NumOutput := sys.nOutputs, NumInPublic := sys.nPubInputs }
      rfl htable d2 o2 hatC
  -- the labels section
  have hatL := (hat3.frame hframe12 h13).frame hframe3 h23
  obtain ⟨_, _, d4, hrun4, _, rfl⟩ :=
    readLabels_reads sys (loadedGlobals f g) d3 o3 hatL
  refine ⟨rs, ⟨d4, ((o3 + sys.encodeLabels.length : Nat) : Int),
    { loadedGlobals f g with Labels := sys.labels }⟩,
    placeholderCircuit_built hden, rfl, ?_⟩
  intro CS compile
  have hrun3' : readConstraints sys.header.nConstraints ⟨d2, o2, { g with
      n8 := f.n8, NumOutput := sys.header.nOutputs,
      NumInPublic := sys.header.nPubInputs }⟩ =
      .ok (rs, ⟨d3, ((o2 + (sys.encodeConstraints f.n8).length : Nat) : Int),
        loadedGlobals f g⟩) := hrun3
  have hrun4' : readLabels sys.header.nVars ⟨d3, o3, loadedGlobals f g⟩ =
      .ok ((), ⟨d4, ((o3 + sys.encodeLabels.length : Nat) : Int),
        { loadedGlobals f g with Labels := sys.labels }⟩) := hrun4
  simp only [readBody, readHeaderSection, readRest, sectionOf, hm1, hm2, hm3, Option.getD_some, Scan.bind_apply,
    Scan.setPtr, Scan.getPtr, Scan.getState, Scan.setState, Go.pure_eq, Go.ok_bind,
    hrun1, hrun2, ne_eq, not_true_eq_false, if_false, ← Nat.cast_add, hrun3', hrun4']
  rfl

/-- On the file, `ReadR1CS` compiles `circuit` with the globals `g'` and
returns the given counts, whatever the compiler makes of the circuit. -/
def ReadsAs (file : Slice UInt8) (g : Globals) (circuit : R1CSCircuit Unit)
    (g' : Globals) (nOutputs nPubInputs : Nat) : Prop :=
  ∀ (CS : Type) (compile : R1CSCircuit Unit → List Nat → Option CS × Option String),
    readR1CS compile (.ok file) g =
      .ok (⟨(compile circuit g'.CoeffArr).1, nOutputs, nPubInputs,
        (compile circuit g'.CoeffArr).2⟩, g')

/-- What a file reads as is determined by the file. -/
theorem ReadsAs.unique {file : Slice UInt8} {g g1 g2 : Globals}
    {c1 c2 : R1CSCircuit Unit} {out1 out2 in1 in2 : Nat}
    (h1 : ReadsAs file g c1 g1 out1 in1) (h2 : ReadsAs file g c2 g2 out2 in2) :
    c1 = c2 ∧ g1 = g2 := by
  -- a compiler that keeps the circuit it is given
  have e1 := h1 (R1CSCircuit Unit) (fun c _ => (some c, none))
  have e2 := h2 (R1CSCircuit Unit) (fun c _ => (some c, none))
  have heq := e1.symm.trans e2
  simp only [Except.ok.injEq, Prod.mk.injEq, ReadResult.mk.injEq,
    Option.some.injEq] at heq
  exact ⟨heq.1.1, heq.2⟩

/-- **The reader on the file of a system.**  Whatever was read before, the
compiler is given packed constraints that denote the system, and the counts of
the system are returned. -/
theorem readR1CS_file {file : Slice UInt8} (hfile : file.toList = f.bytes) (g : Globals) :
    ∃ circuit g', BuiltFrom sys circuit g'.CoeffArr ∧
      ReadsAs file g circuit g' sys.nOutputs sys.nPubInputs := by
  have hat := file.at_toList
  rw [hfile, R1CSFile.bytes] at hat
  obtain ⟨hmagic, hat⟩ := (Slice.At.append_iff file _ _ _).1 hat
  obtain ⟨hversion, hat⟩ := (Slice.At.append_iff file _ _ _).1 hat
  obtain ⟨hcount, hat⟩ := (Slice.At.append_iff file _ _ _).1 hat
  obtain ⟨w, hw, hwlist⟩ := hmagic.subslice_ok
  have hsub : file.subslice 0 4 = .ok w := hw
  have h4 : readUint32 file 4 = .ok (f.version, 8) := by
    have h := readUint32_at hversion (length_leBytes 4 _)
    rwa [ofLE_leBytes 4 _ (by have := f.version_lt; omega)] at h
  have h8 : readUint32 file 8 = .ok (f.sections.length, 12) := by
    have h := readUint32_at hcount (length_leBytes 4 _)
    rwa [ofLE_leBytes 4 _ (by have := f.nSections_lt; omega), length_leBytes] at h
  have hsecs : file.At 12 (f.sections.flatMap encodeSection) := by
    simp only [length_leBytes] at hat
    exact hat
  let g0 : Globals := { g with n8 := 0, CoeffArr := [], coefCount := 0, Labels := [] }
  obtain ⟨m, hsections, hmap⟩ :=
    readSections_run f.sections 12 Dict.empty g0 hsecs f.sections_fit
  obtain ⟨rs, c', hbuilt, htable, hbody⟩ := readBody_run f
    ((hmap 1).2 _ f.header_once) ((hmap 2).2 _ f.constraints_once)
    ((hmap 3).2 _ f.labels_once)
    (sectionOffset_at f.sections 12 hsecs f.header_once)
    (sectionOffset_at f.sections 12 hsecs f.constraints_once)
    (sectionOffset_at f.sections 12 hsecs f.labels_once)
    (sectionOffset_disjoint (by decide) f.sections 12 f.constraints_once f.header_once)
    (sectionOffset_disjoint (by decide) f.sections 12 f.labels_once f.header_once)
    (sectionOffset_disjoint (by decide) f.sections 12 f.labels_once f.constraints_once)
    ((12 + (f.sections.flatMap encodeSection).length : Nat) : Int) g0 rfl
  refine ⟨_, c'.st, hbuilt, ?_⟩
  intro CS compile
  have hrun : readFile compile file ⟨file, 0, g0⟩ =
      readBody compile m
        ⟨file, ((12 + (f.sections.flatMap encodeSection).length : Nat) : Int), g0⟩ := by
    simp only [readFile, readToCounts, readBody, Scan.bind_apply, Scan.liftGo, hsub, Go.ok_bind, Go.pure_eq,
      hwlist, ne_eq, not_true_eq_false, if_false, Scan.setPtr, Scan.read, h4, h8]
    exact congrArg (fun x => x >>= _) hsections
  rw [readR1CS, hrun, hbody, htable]
  rfl

end File

end ProverNetwork.Ports.CircomR1CS
