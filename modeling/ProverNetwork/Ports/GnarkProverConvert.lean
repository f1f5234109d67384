import ProverNetwork.Ports.GnarkProver
import ProverNetwork.Verified.GoJson

/-!
# The membership request, from the document to the assignment

`json.Unmarshal` decodes a request into `FancasterAnonymousCircuitRaw` and `Convert` fills
the assignment from that.  The limbs, `RootHash` and `Path` are decoded as integers.  `V`,
`Index` and `ProjectId` go through an empty interface: a number is rounded to a `float64`
and cut to an `int64`, text is handed to `SetString`, whose failure is not looked at, and
whatever else is there, or nothing, goes through.

A request is given as a document; a name that occurs twice counts with its last value.

## Main results

* `decoded` — what a decoded request holds.
* `setString_eq_bigInt_iff` — what `SetString` reads.
* `gives_iff_kept` — which values reach a variable through an empty interface.
* `converts_iff` — which requests are refused or reach the assignment unchanged.
-/

namespace ProverNetwork.Ports.GnarkProver

open ProverNetwork.Verified
open ProverNetwork.Verified.GoJson

/-! ## `json.Unmarshal` -/

def elementFields : List (StructField ElementRaw) :=
  [.value "Limbs" (fun s limbs => { s with Limbs := limbs }) uint64s]

def pointFields : List (StructField AffinePointRaw) :=
  [.struct "X" AffinePointRaw.X (fun s x => { s with X := x }) elementFields,
   .struct "Y" AffinePointRaw.Y (fun s y => { s with Y := y }) elementFields]

def rawFields : List (StructField FancasterAnonymousCircuitRaw) :=
  [.struct "Message" FancasterAnonymousCircuitRaw.Message
     (fun s m => { s with Message := m }) elementFields,
   .value "V" (fun s v => { s with V := v }) interfaceValue,
   .struct "R" FancasterAnonymousCircuitRaw.R (fun s r => { s with R := r }) elementFields,
   .struct "S" FancasterAnonymousCircuitRaw.S (fun s x => { s with S := x }) elementFields,
   .struct "Expected" FancasterAnonymousCircuitRaw.Expected
     (fun s p => { s with Expected := p }) pointFields,
   .value "RootHash" (fun s n => { s with RootHash := n }) bigInt,
   .value "Index" (fun s v => { s with Index := v }) interfaceValue,
   .value "Path" (fun s ns => { s with Path := ns }) bigInts,
   .value "ProjectId" (fun s v => { s with ProjectId := v }) interfaceValue]

/-- `json.Unmarshal` into the request. -/
def unmarshal (doc : Json) : Except UnmarshalError FancasterAnonymousCircuitRaw :=
  decodeStruct rawFields doc emptyRaw

/-! ## `SetString` -/

theorem parseUint_length_iff (s : String) (n : Nat) :
    parseUint (10 ^ s.toList.length) s.toList = .ok n ↔ Notates s n := by
  rw [parseUint_eq_ok_iff]
  exact ⟨And.left, fun h => ⟨h, h.lt.le⟩⟩

theorem setString_plus (s : String) : setString ("+" ++ s) =
    match parseUint (10 ^ s.toList.length) s.toList with
    | .ok n => .bigInt n
    | .error _ => .badBigInt := by
  rw [setString, String.toList_append]
  rfl

theorem setString_minus (s : String) : setString ("-" ++ s) =
    match parseUint (10 ^ s.toList.length) s.toList with
    | .ok n => .bigInt (-(n : Int))
    | .error _ => .badBigInt := by
  rw [setString, String.toList_append]
  rfl

/-- Digits start with no sign. -/
theorem setString_digits {s : String} {n : Nat} (h : Notates s n) : setString s = .bigInt n := by
  have hparse := (parseUint_length_iff s n).2 h
  obtain ⟨ds, hne, hds, hs, -⟩ := h
  obtain ⟨d, rest, rfl⟩ := List.exists_cons_of_ne_nil hne
  have hd : d < 10 := hds d List.mem_cons_self
  have hplus : ∀ d < 10, Nat.digitChar d ≠ '+' := by decide
  have hminus : ∀ d < 10, Nat.digitChar d ≠ '-' := by decide
  unfold setString
  split
  case h_1 cs heq => exact absurd (List.cons.inj (hs.symm.trans heq)).1 (hplus d hd)
  case h_2 cs heq => exact absurd (List.cons.inj (hs.symm.trans heq)).1 (hminus d hd)
  case h_3 => rw [hparse]

theorem parsed_eq_bigInt_iff (cs : List Char) (f : Nat → Int) (n : Int) :
    (match parseUint (10 ^ cs.length) cs with
      | .ok m => Variable.bigInt (f m)
      | .error _ => .badBigInt) = .bigInt n ↔ ∃ m, Notates (String.ofList cs) m ∧ f m = n := by
  have hparse := parseUint_length_iff (String.ofList cs)
  rw [String.toList_ofList] at hparse
  cases hcs : parseUint (10 ^ cs.length) cs with
  | error err =>
      refine iff_of_false (fun h => by cases h) (fun ⟨m, hm, _⟩ => ?_)
      rw [(hparse m).2 hm] at hcs
      cases hcs
  | ok k =>
      constructor
      · intro h
        exact ⟨k, (hparse k).1 hcs, Variable.bigInt.inj h⟩
      · rintro ⟨m, hm, rfl⟩
        rw [(hparse m).2 hm] at hcs
        rw [Except.ok.inj hcs]

/-- **`SetString` reads the decimal numbers.** -/
theorem setString_eq_bigInt_iff (s : String) (n : Int) :
    setString s = .bigInt n ↔ SignedNotates s n := by
  constructor
  · intro h
    unfold setString at h
    split at h
    case h_1 cs heq =>
      obtain ⟨m, hm, rfl⟩ := (parsed_eq_bigInt_iff cs (fun m => m) n).1 h
      have hs : s = "+" ++ String.ofList cs := by simp [← String.toList_inj, heq]
      exact hs ▸ SignedNotates.plus hm
    case h_2 cs heq =>
      obtain ⟨m, hm, rfl⟩ := (parsed_eq_bigInt_iff cs (fun m => -(m : Int)) n).1 h
      have hs : s = "-" ++ String.ofList cs := by simp [← String.toList_inj, heq]
      exact hs ▸ SignedNotates.minus hm
    case h_3 =>
      obtain ⟨m, hm, rfl⟩ := (parsed_eq_bigInt_iff s.toList (fun m => m) n).1 h
      rw [String.ofList_toList] at hm
      exact SignedNotates.unsigned hm
  · intro h
    cases h with
    | unsigned hs => exact setString_digits hs
    | plus hs => rw [setString_plus, (parseUint_length_iff _ _).2 hs]
    | minus hs => rw [setString_minus, (parseUint_length_iff _ _).2 hs]

/-! ## What the request gives -/

/-- The value is this integer, as a number or as decimal text. -/
def Writes : Json → Int → Prop
  | .number x, n => x.value = n
  | .string s, n => SignedNotates s n
  | _, _ => False

/-- A variable that holds this integer; nothing is known of an undefined value. -/
def Variable.Holds : Variable → Int → Prop
  | .int m, n => m = n
  | .uint64 m, n => (m : Int) = n
  | .bigInt m, n => m = n
  | _, _ => False

/-- The value is an integer, and the variable holds it. -/
def Gives (j : Json) (v : Variable) : Prop := ∃ n, Writes j n ∧ v.Holds n

/-- The last value under a path is there and has a property. -/
def LastIs (doc : Json) (path : List String) (p : Json → Prop) : Prop :=
  ∃ j, doc.last? path = some j ∧ p j

/-- An array of `k` integers that the variables hold. -/
def GivesAll (k : Nat) (j : Json) (vs : List Variable) : Prop :=
  ∃ items, j = .array items ∧ items.length = k ∧ List.Forall₂ Gives items vs

/-- **The assignment carries the integers of the request.** -/
structure Carries (doc : Json) (a : FancasterAnonymousCircuit) : Prop where
  Message : LastIs doc ["Message", "Limbs"] (GivesAll 4 · a.Message.Limbs)
  V : LastIs doc ["V"] (Gives · a.V)
  R : LastIs doc ["R", "Limbs"] (GivesAll 4 · a.R.Limbs)
  S : LastIs doc ["S", "Limbs"] (GivesAll 4 · a.S.Limbs)
  ExpectedX : LastIs doc ["Expected", "X", "Limbs"] (GivesAll 4 · a.ExpectedX.Limbs)
  ExpectedY : LastIs doc ["Expected", "Y", "Limbs"] (GivesAll 4 · a.ExpectedY.Limbs)
  RootHash : LastIs doc ["RootHash"] (Gives · a.RootHash)
  Index : LastIs doc ["Index"] (Gives · a.Index)
  Path : LastIs doc ["Path"] (GivesAll MerklePathLength · a.Path)
  ProjectId : LastIs doc ["ProjectId"] (Gives · a.ProjectId)

/-! ## What is kept -/

/-- Decimal text, or a number that is an integer of 53 significant bits and that an `int64`
holds. -/
inductive Kept : Json → Prop
  | text {s : String} {n : Int} (h : SignedNotates s n) : Kept (.string s)
  | number {x : Numeral} {n : Int} (h : x.value = n) (hfits : Binary64.Fits n)
      (hmin : -2 ^ 63 ≤ n) (hmax : n < 2 ^ 63) : Kept (.number x)

/-- An array without nulls. -/
def Full (j : Json) : Prop := ∃ items, j = .array items ∧ Json.null ∉ items

/-- The number of items of the last array under a path. -/
def itemCount (doc : Json) (path : List String) : Nat :=
  match doc.last? path with
  | some (.array items) => items.length
  | _ => 0

def limbPaths : List (List String) :=
  [["Message", "Limbs"], ["R", "Limbs"], ["S", "Limbs"],
   ["Expected", "X", "Limbs"], ["Expected", "Y", "Limbs"]]

/-- Every list has its length. -/
def Counted (doc : Json) : Prop :=
  (∀ path ∈ limbPaths, itemCount doc path = 4) ∧ itemCount doc ["Path"] = MerklePathLength

/-- Every value is one that reaches the assignment as it is. -/
structure Exact (doc : Json) : Prop where
  V : LastIs doc ["V"] Kept
  Index : LastIs doc ["Index"] Kept
  ProjectId : LastIs doc ["ProjectId"] Kept
  RootHash : LastIs doc ["RootHash"] (· ≠ .null)
  limbs : ∀ path ∈ limbPaths, LastIs doc path Full
  Path : LastIs doc ["Path"] Full

/-! ## One value -/

theorem truncate_intCast (n : Int) : truncate n = n := by
  rw [truncate, Rat.num_intCast, Rat.den_intCast]
  exact Int.tdiv_one n

theorem gives_number_iff (x : Numeral) :
    Gives (.number x) (toFrontendVar (.float (Binary64.toNearest x.value))) ↔
      Kept (.number x) := by
  unfold toFrontendVar
  constructor
  · rintro ⟨n, hn, hholds⟩
    have hvalue : x.value = n := hn
    obtain ⟨r, hr⟩ := Binary64.toNearest_intCast n
    simp only [hvalue, hr, truncate_intCast] at hholds
    by_cases hrange : -2 ^ 63 ≤ r ∧ r < 2 ^ 63
    · rw [if_pos hrange] at hholds
      have hkept : r = n := hholds
      rw [hkept] at hr hrange
      exact Kept.number hvalue (Binary64.toNearest_eq_self_iff.1 hr) hrange.1 hrange.2
    · rw [if_neg hrange] at hholds
      exact hholds.elim
  · intro h
    cases h with
    | number hn hfits hmin hmax =>
        refine ⟨_, hn, ?_⟩
        simp only [hn, Binary64.toNearest_of_fits hfits, truncate_intCast]
        rw [if_pos ⟨hmin, hmax⟩]
        rfl

theorem gives_string_iff (s : String) : Gives (.string s) (setString s) ↔ Kept (.string s) := by
  constructor
  · rintro ⟨n, hn, -⟩
    exact Kept.text hn
  · intro h
    cases h with
    | text hs => exact ⟨_, hs, by rw [(setString_eq_bigInt_iff s _).2 hs]; rfl⟩

/-- **A value decoded into an empty interface** reaches the variable where it is kept. -/
theorem gives_iff_kept {j : Json} {v : GoValue} (h : interfaceValue j = .ok v) :
    Gives j (toFrontendVar v) ↔ Kept j := by
  cases j with
  | number x =>
      rw [eq_float_of_number h]
      exact gives_number_iff x
  | string s =>
      rw [interfaceValue_string] at h
      rw [← Except.ok.inj h]
      exact gives_string_iff s
  | null => exact iff_of_false (fun ⟨_, hn, _⟩ => hn) (fun hk => by cases hk)
  | bool b => exact iff_of_false (fun ⟨_, hn, _⟩ => hn) (fun hk => by cases hk)
  | array items => exact iff_of_false (fun ⟨_, hn, _⟩ => hn) (fun hk => by cases hk)
  | object members => exact iff_of_false (fun ⟨_, hn, _⟩ => hn) (fun hk => by cases hk)

theorem gives_uint64 {j : Json} {n : Nat} (h : uint64Item j = .ok n) :
    Gives j (.uint64 n) ↔ j ≠ .null := by
  rcases uint64Item_eq_ok h with rfl | ⟨x, rfl, hx⟩
  · exact iff_of_false (fun ⟨_, hn, _⟩ => hn) (fun hne => hne rfl)
  · exact iff_of_true ⟨n, hx, rfl⟩ (fun heq => by cases heq)

theorem gives_bigInt {j : Json} {n : Option Int} (h : bigInt j = .ok n) :
    Gives j (bigIntVar n) ↔ j ≠ .null := by
  rcases bigInt_eq_ok h with rfl | ⟨x, m, rfl, rfl, hx⟩
  · exact iff_of_false (fun ⟨_, hn, _⟩ => hn) (fun hne => hne rfl)
  · exact iff_of_true ⟨m, hx, rfl⟩ (fun heq => by cases heq)

/-! ## The last value under a path -/

section Last

variable {doc : Json} {path : List String} {A : Type} {item : Json → Except UnmarshalError A}
  {var : A → Variable} {as : List A}

theorem gives_items (hitem : ∀ j a, item j = .ok a → (Gives j (var a) ↔ j ≠ .null))
    {items : List Json} (h : items.mapM item = .ok as) :
    List.Forall₂ Gives items (as.map var) ↔ Json.null ∉ items := by
  have hread := forall₂_of_mapM h
  clear h
  induction hread with
  | nil => simp
  | cons hj _ ih =>
      rw [List.map_cons, List.forall₂_cons, List.mem_cons, not_or]
      exact and_congr ((hitem _ _ hj).trans ne_comm) ih

/-- A value that is there reads as what was decoded. -/
theorem lastIs_iff {read : Json → Except UnmarshalError A} {a old : A} {p : Json → Prop}
    {q : Json → Prop} (h : lastRead read (doc.under path) old = .ok a)
    (hpq : ∀ j, read j = .ok a → (p j ↔ q j)) : LastIs doc path p ↔ LastIs doc path q := by
  have hread : ∀ j, doc.last? path = some j → read j = .ok a := by
    intro j hj
    unfold lastRead at h
    rw [show (doc.under path).getLast? = some j from hj] at h
    exact h
  exact exists_congr fun j => and_congr_right fun hj => hpq j (hread j hj)

theorem itemCount_eq (h : lastRead (slice item) (doc.under path) [] = .ok as) :
    itemCount doc path = as.length := by
  unfold itemCount Json.last?
  unfold lastRead at h
  cases hlast : (doc.under path).getLast? with
  | none =>
      rw [hlast] at h
      rw [← Except.ok.inj h]
      rfl
  | some j =>
      rw [hlast] at h
      cases j with
      | array items => exact (forall₂_of_mapM h).length_eq
      | null =>
          rw [← Except.ok.inj h]
          rfl
      | bool b => cases h
      | number x => cases h
      | string s => cases h
      | object members => cases h

/-- **A list of the right length** reaches the variables where no item is null. -/
theorem lastIs_givesAll_iff (hitem : ∀ j a, item j = .ok a → (Gives j (var a) ↔ j ≠ .null))
    (h : lastRead (slice item) (doc.under path) [] = .ok as) :
    LastIs doc path (GivesAll as.length · (as.map var)) ↔ LastIs doc path Full := by
  refine lastIs_iff h fun j hj => exists_congr fun items => and_congr_right fun hitems => ?_
  rw [hitems] at hj
  have hlength := (forall₂_of_mapM hj).length_eq
  rw [gives_items hitem hj]
  exact and_iff_right hlength

end Last

/-! ## The fields of the request -/

theorem reads_limbs : Reads (decodeStruct elementFields) ElementRaw.Limbs
    (fun j => j.under ["Limbs"]) uint64s :=
  reads_struct rfl (reads_value fun _ _ => rfl) (by simp [elementFields])

theorem reads_X : Reads (decodeStruct pointFields) (ElementRaw.Limbs ∘ AffinePointRaw.X)
    (fun j => j.under ["X", "Limbs"]) uint64s :=
  reads_struct rfl (reads_nested (fun _ _ => rfl) reads_limbs)
    (by simp [pointFields, keeps_nested])

theorem reads_Y : Reads (decodeStruct pointFields) (ElementRaw.Limbs ∘ AffinePointRaw.Y)
    (fun j => j.under ["Y", "Limbs"]) uint64s :=
  reads_struct rfl (reads_nested (fun _ _ => rfl) reads_limbs)
    (by simp [pointFields, keeps_nested])

section Decoded

variable {doc : Json} {raw : FancasterAnonymousCircuitRaw}

theorem decoded_value {A : Type} (name : String) (part : FancasterAnonymousCircuitRaw → A)
    {set : FancasterAnonymousCircuitRaw → A → FancasterAnonymousCircuitRaw}
    {read : Json → Except UnmarshalError A} (h : unmarshal doc = .ok raw)
    (hfind : rawFields.find? (fun g => foldName g.name = foldName name) =
      some (.value name set read))
    (hset : ∀ s a, part (set s a) = a)
    (hothers : ∀ g ∈ rawFields, foldName g.name ≠ foldName name → Keeps g.decode part) :
    lastRead read (doc.under [name]) (part emptyRaw) = .ok (part raw) :=
  reads_struct hfind (reads_value hset) hothers doc emptyRaw raw h

theorem decoded_nested {T : Type} (name : String) (get : FancasterAnonymousCircuitRaw → T)
    {part : T → List Nat} {path : List String}
    {set : FancasterAnonymousCircuitRaw → T → FancasterAnonymousCircuitRaw}
    {fields : List (StructField T)} (h : unmarshal doc = .ok raw)
    (hpart : Reads (decodeStruct fields) part (fun j => j.under path) uint64s)
    (hfind : rawFields.find? (fun g => foldName g.name = foldName name) =
      some (.struct name get set fields))
    (hset : ∀ s t, get (set s t) = t)
    (hothers : ∀ g ∈ rawFields, foldName g.name ≠ foldName name → Keeps g.decode (part ∘ get)) :
    lastRead uint64s (doc.under (name :: path)) (part (get emptyRaw)) = .ok (part (get raw)) :=
  reads_struct hfind (reads_nested hset hpart) hothers doc emptyRaw raw h

/-- What a decoded request holds. -/
structure Decoded (doc : Json) (raw : FancasterAnonymousCircuitRaw) : Prop where
  Message : lastRead uint64s (doc.under ["Message", "Limbs"]) [] = .ok raw.Message.Limbs
  V : lastRead interfaceValue (doc.under ["V"]) .null = .ok raw.V
  R : lastRead uint64s (doc.under ["R", "Limbs"]) [] = .ok raw.R.Limbs
  S : lastRead uint64s (doc.under ["S", "Limbs"]) [] = .ok raw.S.Limbs
  ExpectedX : lastRead uint64s (doc.under ["Expected", "X", "Limbs"]) [] =
    .ok raw.Expected.X.Limbs
  ExpectedY : lastRead uint64s (doc.under ["Expected", "Y", "Limbs"]) [] =
    .ok raw.Expected.Y.Limbs
  RootHash : lastRead bigInt (doc.under ["RootHash"]) none = .ok raw.RootHash
  Index : lastRead interfaceValue (doc.under ["Index"]) .null = .ok raw.Index
  Path : lastRead bigInts (doc.under ["Path"]) [] = .ok raw.Path
  ProjectId : lastRead interfaceValue (doc.under ["ProjectId"]) .null = .ok raw.ProjectId

/-- **Every field is read from the last value under its path.** -/
theorem decoded (h : unmarshal doc = .ok raw) : Decoded doc raw where
  Message := decoded_nested "Message" FancasterAnonymousCircuitRaw.Message h reads_limbs rfl
    (fun _ _ => rfl) (by simp [rawFields, keeps_value, keeps_nested])
  V := decoded_value "V" FancasterAnonymousCircuitRaw.V h rfl (fun _ _ => rfl)
    (by simp [rawFields, keeps_value, keeps_nested])
  R := decoded_nested "R" FancasterAnonymousCircuitRaw.R h reads_limbs rfl (fun _ _ => rfl)
    (by simp [rawFields, keeps_value, keeps_nested])
  S := decoded_nested "S" FancasterAnonymousCircuitRaw.S h reads_limbs rfl (fun _ _ => rfl)
    (by simp [rawFields, keeps_value, keeps_nested])
  ExpectedX := decoded_nested "Expected" FancasterAnonymousCircuitRaw.Expected h reads_X rfl
    (fun _ _ => rfl) (by simp [rawFields, keeps_value, keeps_nested])
  ExpectedY := decoded_nested "Expected" FancasterAnonymousCircuitRaw.Expected h reads_Y rfl
    (fun _ _ => rfl) (by simp [rawFields, keeps_value, keeps_nested])
  RootHash := decoded_value "RootHash" FancasterAnonymousCircuitRaw.RootHash h rfl
    (fun _ _ => rfl) (by simp [rawFields, keeps_value, keeps_nested])
  Index := decoded_value "Index" FancasterAnonymousCircuitRaw.Index h rfl (fun _ _ => rfl)
    (by simp [rawFields, keeps_value, keeps_nested])
  Path := decoded_value "Path" FancasterAnonymousCircuitRaw.Path h rfl (fun _ _ => rfl)
    (by simp [rawFields, keeps_value, keeps_nested])
  ProjectId := decoded_value "ProjectId" FancasterAnonymousCircuitRaw.ProjectId h rfl
    (fun _ _ => rfl) (by simp [rawFields, keeps_value, keeps_nested])

end Decoded

/-! ## `Convert` -/

structure Lengths (raw : FancasterAnonymousCircuitRaw) : Prop where
  Message : raw.Message.Limbs.length = 4
  R : raw.R.Limbs.length = 4
  S : raw.S.Limbs.length = 4
  ExpectedX : raw.Expected.X.Limbs.length = 4
  ExpectedY : raw.Expected.Y.Limbs.length = 4
  Path : raw.Path.length = MerklePathLength

def assignmentOf (raw : FancasterAnonymousCircuitRaw) : FancasterAnonymousCircuit where
  Message := ⟨raw.Message.Limbs.map .uint64⟩
  V := toFrontendVar raw.V
  R := ⟨raw.R.Limbs.map .uint64⟩
  S := ⟨raw.S.Limbs.map .uint64⟩
  ExpectedX := ⟨raw.Expected.X.Limbs.map .uint64⟩
  ExpectedY := ⟨raw.Expected.Y.Limbs.map .uint64⟩
  RootHash := bigIntVar raw.RootHash
  Index := toFrontendVar raw.Index
  Path := raw.Path.map bigIntVar
  ProjectId := toFrontendVar raw.ProjectId

theorem convert_of_lengths {raw : FancasterAnonymousCircuitRaw} (h : Lengths raw) :
    convert raw = .ok (assignmentOf raw) := by
  have helement : ∀ field raw, raw.Limbs.length = 4 →
      toElement field raw = .ok ⟨raw.Limbs.map .uint64⟩ :=
    fun field raw hraw => if_neg (not_not.2 hraw)
  unfold convert toElementFr toElementFp
  rw [helement _ _ h.Message, helement _ _ h.R, helement _ _ h.S, helement _ _ h.ExpectedX,
    helement _ _ h.ExpectedY]
  exact if_neg (not_not.2 h.Path)

theorem toElement_eq_ok {field : String} {raw : ElementRaw} {e : Element}
    (h : toElement field raw = .ok e) : raw.Limbs.length = 4 := by
  by_contra hne
  rw [toElement, if_pos hne] at h
  cases h

theorem lengths_of_convert {raw : FancasterAnonymousCircuitRaw} {a : FancasterAnonymousCircuit}
    (h : convert raw = .ok a) : Lengths raw := by
  obtain ⟨_, hm, h⟩ := bind_eq_ok.1 h
  obtain ⟨_, hr, h⟩ := bind_eq_ok.1 h
  obtain ⟨_, hs, h⟩ := bind_eq_ok.1 h
  obtain ⟨_, hx, h⟩ := bind_eq_ok.1 h
  obtain ⟨_, hy, h⟩ := bind_eq_ok.1 h
  refine ⟨toElement_eq_ok hm, toElement_eq_ok hr, toElement_eq_ok hs, toElement_eq_ok hx,
    toElement_eq_ok hy, ?_⟩
  by_contra hne
  rw [if_pos hne] at h
  cases h

/-- The lists of the request have the lengths that `Convert` looks at. -/
theorem lengths_iff_counted {doc : Json} {raw : FancasterAnonymousCircuitRaw}
    (h : Decoded doc raw) : Lengths raw ↔ Counted doc := by
  unfold Counted limbPaths
  simp only [List.forall_mem_cons, List.not_mem_nil, false_imp_iff, implies_true, and_true]
  rw [itemCount_eq h.Message, itemCount_eq h.R, itemCount_eq h.S, itemCount_eq h.ExpectedX,
    itemCount_eq h.ExpectedY, itemCount_eq h.Path]
  exact ⟨fun ⟨hm, hr, hs, hx, hy, hp⟩ => ⟨⟨hm, hr, hs, hx, hy⟩, hp⟩,
    fun ⟨⟨hm, hr, hs, hx, hy⟩, hp⟩ => ⟨hm, hr, hs, hx, hy, hp⟩⟩

theorem carries_iff_exact {doc : Json} {raw : FancasterAnonymousCircuitRaw}
    (h : Decoded doc raw) (hlengths : Lengths raw) :
    Carries doc (assignmentOf raw) ↔ Exact doc := by
  have hvalue : ∀ {path v}, lastRead interfaceValue (doc.under path) .null = .ok v →
      (LastIs doc path (Gives · (toFrontendVar v)) ↔ LastIs doc path Kept) :=
    fun hread => lastIs_iff hread fun _ => gives_iff_kept
  have hlimbs : ∀ {path ns}, lastRead uint64s (doc.under path) [] = .ok ns → ns.length = 4 →
      (LastIs doc path (GivesAll 4 · (ns.map .uint64)) ↔ LastIs doc path Full) :=
    fun hread hlength => hlength ▸ lastIs_givesAll_iff (fun _ _ => gives_uint64) hread
  have hroot : LastIs doc ["RootHash"] (Gives · (bigIntVar raw.RootHash)) ↔
      LastIs doc ["RootHash"] (· ≠ .null) :=
    lastIs_iff h.RootHash fun _ => gives_bigInt
  have hpath : LastIs doc ["Path"] (GivesAll MerklePathLength · (raw.Path.map bigIntVar)) ↔
      LastIs doc ["Path"] Full :=
    hlengths.Path ▸ lastIs_givesAll_iff (fun _ _ => gives_bigInt) h.Path
  have hall : (∀ path ∈ limbPaths, LastIs doc path Full) ↔
      LastIs doc ["Message", "Limbs"] Full ∧ LastIs doc ["R", "Limbs"] Full ∧
        LastIs doc ["S", "Limbs"] Full ∧ LastIs doc ["Expected", "X", "Limbs"] Full ∧
          LastIs doc ["Expected", "Y", "Limbs"] Full := by
    simp only [limbPaths, List.forall_mem_cons, List.not_mem_nil, false_imp_iff, implies_true,
      and_true]
  constructor
  · intro hc
    refine ⟨(hvalue h.V).1 hc.V, (hvalue h.Index).1 hc.Index, (hvalue h.ProjectId).1 hc.ProjectId,
      hroot.1 hc.RootHash, hall.2 ⟨?_, ?_, ?_, ?_, ?_⟩, hpath.1 hc.Path⟩
    · exact (hlimbs h.Message hlengths.Message).1 hc.Message
    · exact (hlimbs h.R hlengths.R).1 hc.R
    · exact (hlimbs h.S hlengths.S).1 hc.S
    · exact (hlimbs h.ExpectedX hlengths.ExpectedX).1 hc.ExpectedX
    · exact (hlimbs h.ExpectedY hlengths.ExpectedY).1 hc.ExpectedY
  · intro he
    obtain ⟨hm, hr, hs, hx, hy⟩ := hall.1 he.limbs
    exact {
      Message := (hlimbs h.Message hlengths.Message).2 hm
      V := (hvalue h.V).2 he.V
      R := (hlimbs h.R hlengths.R).2 hr
      S := (hlimbs h.S hlengths.S).2 hs
      ExpectedX := (hlimbs h.ExpectedX hlengths.ExpectedX).2 hx
      ExpectedY := (hlimbs h.ExpectedY hlengths.ExpectedY).2 hy
      RootHash := hroot.2 he.RootHash
      Index := (hvalue h.Index).2 he.Index
      Path := hpath.2 he.Path
      ProjectId := (hvalue h.ProjectId).2 he.ProjectId }

/-- `Convert` looks at lengths, and returns what the request carries where it is exact. -/
theorem convert_cases {doc : Json} {raw : FancasterAnonymousCircuitRaw}
    (h : unmarshal doc = .ok raw) :
    (¬Counted doc ∧ ∃ err, convert raw = .error err) ∨
      (Counted doc ∧ convert raw = .ok (assignmentOf raw) ∧
        (Carries doc (assignmentOf raw) ↔ Exact doc)) := by
  have hcounted := lengths_iff_counted (decoded h)
  by_cases hlengths : Lengths raw
  · exact Or.inr ⟨hcounted.1 hlengths, convert_of_lengths hlengths,
      carries_iff_exact (decoded h) hlengths⟩
  · refine Or.inl ⟨fun hc => hlengths (hcounted.2 hc), ?_⟩
    cases hconvert : convert raw with
    | error err => exact ⟨err, rfl⟩
    | ok a => exact absurd (lengths_of_convert hconvert) hlengths

/-- **The integers of the request reach the assignment** where `Convert` refuses a length, or
where each value is one that is kept: everything else is changed without an error. -/
theorem converts_iff {doc : Json} {raw : FancasterAnonymousCircuitRaw}
    (h : unmarshal doc = .ok raw) :
    ((∃ err, convert raw = .error err) ∨ ∃ a, convert raw = .ok a ∧ Carries doc a) ↔
      ¬Counted doc ∨ Exact doc := by
  rcases convert_cases h with ⟨hno, herr⟩ | ⟨hcounted, hconvert, hexact⟩
  · exact iff_of_true (Or.inl herr) (Or.inl hno)
  · rw [hconvert]
    constructor
    · rintro (⟨err, herr⟩ | ⟨a, ha, hcarries⟩)
      · cases herr
      · rw [← Except.ok.inj ha] at hcarries
        exact Or.inr (hexact.1 hcarries)
    · rintro (hno | hyes)
      · exact absurd hcounted hno
      · exact Or.inr ⟨_, rfl, hexact.2 hyes⟩

/-! ## A request -/

def digits (n : Nat) : Json := .number ⟨false, n, [], none⟩

def ones : Json := .object [("Limbs", .array (List.replicate 4 (digits 1)))]

def requestMembers : List (String × Json) :=
  [("Message", ones), ("V", .string "27"), ("R", ones), ("S", ones),
   ("Expected", .object [("X", ones), ("Y", ones)]), ("RootHash", digits 7),
   ("Path", .array (List.replicate 14 (digits 9))), ("ProjectId", .string "10010")]

/-- A request with this index. -/
def request (index : Json) : Json := .object (requestMembers ++ [("Index", index)])

def requestRaw (index : GoValue) : FancasterAnonymousCircuitRaw where
  Message := ⟨[1, 1, 1, 1]⟩
  V := .str "27"
  R := ⟨[1, 1, 1, 1]⟩
  S := ⟨[1, 1, 1, 1]⟩
  Expected := ⟨⟨[1, 1, 1, 1]⟩, ⟨[1, 1, 1, 1]⟩⟩
  RootHash := some 7
  Index := index
  Path := List.replicate 14 (some 9)
  ProjectId := .str "10010"

theorem unmarshal_request {index : Json} {v : GoValue} (h : interfaceValue index = .ok v) :
    unmarshal (request index) = .ok (requestRaw v) := by
  have hmembers : requestMembers.foldlM (decodeMember rawFields) emptyRaw =
      .ok (requestRaw .null) := rfl
  have hfind : rawFields.find? (fun g => foldName g.name = foldName "Index") =
      some (.value "Index" (fun s v => { s with Index := v }) interfaceValue) := rfl
  show (requestMembers ++ [("Index", index)]).foldlM (decodeMember rawFields) emptyRaw = _
  rw [List.foldlM_append, hmembers]
  show decodeMember rawFields (requestRaw .null) ("Index", index) >>= pure = _
  rw [decodeMember, hfind]
  show (interfaceValue index).map requestRaw >>= pure = _
  rw [h]
  rfl

theorem value_digits (n : Nat) : Numeral.value ⟨false, n, [], none⟩ = n := by
  rw [Numeral.value_of_plain ⟨rfl, rfl⟩]
  rfl

theorem full_replicate (k n : Nat) : Full (.array (List.replicate k (digits n))) := by
  refine ⟨_, rfl, fun hnull => ?_⟩
  cases List.eq_of_mem_replicate hnull

theorem requestRaw_lengths (v : GoValue) : Lengths (requestRaw v) := ⟨rfl, rfl, rfl, rfl, rfl, rfl⟩

theorem request_last (index : Json) :
    (request index).last? ["V"] = some (.string "27") ∧
      (request index).last? ["Index"] = some index ∧
      (request index).last? ["ProjectId"] = some (.string "10010") ∧
      (request index).last? ["RootHash"] = some (digits 7) ∧
      (request index).last? ["Path"] = some (.array (List.replicate 14 (digits 9))) ∧
      ∀ path ∈ limbPaths,
        (request index).last? path = some (.array (List.replicate 4 (digits 1))) := by
  simp [limbPaths, request, requestMembers, ones, Json.last?, Json.under, Json.named, foldName,
    foldRune]

theorem request_exact {index : Json} (h : Kept index) : Exact (request index) := by
  obtain ⟨hv, hindex, hprojectId, hroot, hpath, hlimbs⟩ := request_last index
  have h27 : Notates "27" 27 := ⟨[2, 7], by decide, by decide, rfl, rfl⟩
  have h10010 : Notates "10010" 10010 := ⟨[1, 0, 0, 1, 0], by decide, by decide, rfl, rfl⟩
  exact {
    V := ⟨_, hv, Kept.text (.unsigned h27)⟩
    Index := ⟨_, hindex, h⟩
    ProjectId := ⟨_, hprojectId, Kept.text (.unsigned h10010)⟩
    RootHash := ⟨_, hroot, nofun⟩
    limbs := fun path hmem => ⟨_, hlimbs path hmem, full_replicate 4 1⟩
    Path := ⟨_, hpath, full_replicate 14 9⟩ }

/-- The index 5 reaches the assignment. -/
theorem smallIndex_converts :
    (∃ err, convert (requestRaw (.float 5)) = .error err) ∨
      ∃ a, convert (requestRaw (.float 5)) = .ok a ∧ Carries (request (digits 5)) a := by
  have hvalue : interfaceValue (digits 5) = .ok (.float 5) := by
    refine interfaceValue_of_toNearest ?_ (by norm_num)
    rw [value_digits]
    exact_mod_cast Binary64.toNearest_of_lt (n := 5) (by decide)
  refine (converts_iff (unmarshal_request hvalue)).2 (Or.inr (request_exact ?_))
  exact Kept.number (n := 5) (value_digits 5) ⟨5, 0, by decide, rfl⟩ (by decide) (by decide)

/-- **An index past 53 bits is changed**: of 9007199254740993, the assignment gets
9007199254740992, and there is no error. -/
theorem oddIndex_rounded :
    unmarshal (request (digits 9007199254740993)) =
        .ok (requestRaw (.float 9007199254740992)) ∧
      (∃ a, convert (requestRaw (.float 9007199254740992)) = .ok a ∧
        a.Index = .bigInt 9007199254740992) ∧
      ¬((∃ err, convert (requestRaw (.float 9007199254740992)) = .error err) ∨
        ∃ a, convert (requestRaw (.float 9007199254740992)) = .ok a ∧
          Carries (request (digits 9007199254740993)) a) := by
  have hconvert := convert_of_lengths (requestRaw_lengths (.float 9007199254740992))
  have hindex : (assignmentOf (requestRaw (.float 9007199254740992))).Index =
      .bigInt 9007199254740992 := by
    show toFrontendVar (.float 9007199254740992) = _
    rw [toFrontendVar, show truncate 9007199254740992 = 9007199254740992 from
      truncate_intCast 9007199254740992]
    rfl
  refine ⟨unmarshal_request (interfaceValue_of_toNearest ?_ (by norm_num)),
    ⟨_, hconvert, hindex⟩, ?_⟩
  · rw [value_digits]
    decide +kernel
  · rintro (⟨err, herr⟩ | ⟨a, ha, hcarries⟩)
    · rw [hconvert] at herr
      cases herr
    · rw [← Except.ok.inj (hconvert.symm.trans ha)] at hcarries
      obtain ⟨j, hj, n, hn, hholds⟩ := hcarries.Index
      rw [hindex] at hholds
      rw [Option.some.inj (hj.symm.trans (request_last _).2.1)] at hn
      -- written and held are one apart
      have hwritten : (9007199254740993 : ℚ) = n := (value_digits _).symm.trans hn
      have hheld : (9007199254740992 : Int) = n := hholds
      rw [← hheld] at hwritten
      norm_num at hwritten

end ProverNetwork.Ports.GnarkProver
