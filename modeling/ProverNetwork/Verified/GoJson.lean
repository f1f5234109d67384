import ProverNetwork.Verified.Binary64
import ProverNetwork.Verified.GoValue

/-!
# Documents as Go's `encoding/json` decodes them

A document is decoded into an empty interface, where numbers become `float64`, or into the
fields of a struct.  The names of members are compared without regard to case, a member
decoded twice is decided by the last one, and unknown members are skipped.

## Main results

* `reads_struct` — what decoding a struct leaves in a part of it.
-/

namespace ProverNetwork.Verified.GoJson

/-- A numeral by its parts; no fraction stands for no point. -/
structure Numeral where
  negative : Bool
  whole : Nat
  fraction : List (Fin 10)
  exponent : Option Int
  deriving DecidableEq

inductive Json
  | null
  | bool (b : Bool)
  | number (x : Numeral)
  | string (s : String)
  | array (items : List Json)
  | object (members : List (String × Json))

inductive UnmarshalError
  | typeError
  | unmarshaler
  deriving DecidableEq

namespace Numeral

/-- The number that is written. -/
def value (x : Numeral) : ℚ :=
  let digits : ℚ := x.whole + x.fraction.foldr (fun d rest => ((d.val : ℚ) + rest) / 10) 0
  (if x.negative then -digits else digits) * 10 ^ x.exponent.getD 0

/-- The numeral is a sign and digits. -/
def Plain (x : Numeral) : Prop := x.fraction = [] ∧ x.exponent = none

instance (x : Numeral) : Decidable x.Plain := inferInstanceAs (Decidable (_ ∧ _))

/-- The integer of a plain numeral. -/
def integer (x : Numeral) : Int := if x.negative then -(x.whole : Int) else x.whole

theorem value_of_plain {x : Numeral} (h : x.Plain) : x.value = x.integer := by
  rw [value, h.1, h.2, integer]
  cases x.negative <;> simp

end Numeral

/-! ## Values -/

mutual

/-- A value decoded into `interface{}`.  A map keeps the last value of a key. -/
def interfaceValue : Json → Except UnmarshalError GoValue
  | .null => .ok .null
  | .bool b => .ok (.bool b)
  | .number x =>
      match Binary64.parseFloat x.value with
      | some v => .ok (.float v)
      | none => .error .typeError
  | .string s => .ok (.str s)
  | .array items => (interfaceItems items).map .slice
  | .object members => (interfaceMembers members).map .map

def interfaceItems : List Json → Except UnmarshalError (List GoValue)
  | [] => .ok []
  | j :: items => do
      let v ← interfaceValue j
      let vs ← interfaceItems items
      .ok (v :: vs)

def interfaceMembers : List (String × Json) → Except UnmarshalError (List (String × GoValue))
  | [] => .ok []
  | (k, j) :: members => do
      let v ← interfaceValue j
      let entries ← interfaceMembers members
      .ok (if (entries.lookup k).isSome then entries else (k, v) :: entries)

end

/-- An item of `[]uint64`; a null leaves the zero that was appended. -/
def uint64Item : Json → Except UnmarshalError Nat
  | .null => .ok 0
  | .number x =>
      if x.Plain ∧ x.negative = false ∧ x.whole < 2 ^ 64 then .ok x.whole else .error .typeError
  | _ => .error .typeError

/-- A value decoded into a slice. -/
def slice {A : Type} (item : Json → Except UnmarshalError A) :
    Json → Except UnmarshalError (List A)
  | .null => .ok []
  | .array items => items.mapM item
  | _ => .error .typeError

/-- A value decoded into `[]uint64`. -/
def uint64s : Json → Except UnmarshalError (List Nat) := slice uint64Item

/-- A value decoded into `*big.Int`, which reads integers only. -/
def bigInt : Json → Except UnmarshalError (Option Int)
  | .null => .ok none
  | .number x => if x.Plain then .ok (some x.integer) else .error .unmarshaler
  | _ => .error .unmarshaler

/-- A value decoded into `[]*big.Int`. -/
def bigInts : Json → Except UnmarshalError (List (Option Int)) := slice bigInt

/-! ## Structs -/

/-- `foldRune`, as far as names of ASCII letters go. -/
def foldRune (c : Char) : Char :=
  if c = 'ſ' then 'S' else if c = '\u212a' then 'K' else c.toUpper

/-- `foldName`. -/
def foldName (name : String) : List Char := name.toList.map foldRune

/-- A field of a struct, by what decoding a value into it does to the struct. -/
structure StructField (S : Type) where
  name : String
  decode : Json → S → Except UnmarshalError S

section Struct

variable {S A : Type}

def decodeMember (fields : List (StructField S)) (s : S) (member : String × Json) :
    Except UnmarshalError S :=
  match fields.find? (fun f => foldName f.name = foldName member.1) with
  | some f => f.decode member.2 s
  | none => .ok s

/-- A value decoded into a struct. -/
def decodeStruct (fields : List (StructField S)) (j : Json) (s : S) : Except UnmarshalError S :=
  match j with
  | .null => .ok s
  | .object members => members.foldlM (decodeMember fields) s
  | _ => .error .typeError

/-- A field of a type that is read as a whole. -/
def StructField.value (name : String) (set : S → A → S) (read : Json → Except UnmarshalError A) :
    StructField S :=
  ⟨name, fun j s => (read j).map (set s)⟩

/-- A field that is a struct. -/
def StructField.struct {T : Type} (name : String) (get : S → T) (set : S → T → S)
    (fields : List (StructField T)) : StructField S :=
  ⟨name, fun j s => (decodeStruct fields j (get s)).map (set s)⟩

@[simp] theorem StructField.value_name (name : String) (set : S → A → S)
    (read : Json → Except UnmarshalError A) : (StructField.value name set read).name = name := rfl

@[simp] theorem StructField.struct_name {T : Type} (name : String) (get : S → T) (set : S → T → S)
    (fields : List (StructField T)) : (StructField.struct name get set fields).name = name := rfl

end Struct

/-! ## What is decoded -/

/-- The values of the members of a name. -/
def Json.named (name : String) : Json → List Json
  | .object members =>
      (members.filter (fun m => foldName m.1 = foldName name)).map Prod.snd
  | _ => []

/-- The values under a path of names, in order. -/
def Json.under (j : Json) : List String → List Json
  | [] => [j]
  | name :: path => (j.named name).flatMap (fun v => v.under path)

/-- The last value under a path of names. -/
def Json.last? (j : Json) (path : List String) : Option Json := (j.under path).getLast?

/-- The last value is read, or the old one stays. -/
def lastRead {A : Type} (read : Json → Except UnmarshalError A) (values : List Json) (old : A) :
    Except UnmarshalError A :=
  match values.getLast? with
  | some j => read j
  | none => .ok old

section Reads

variable {S T A : Type}

/-- A part becomes what the last of its values reads as. -/
def Reads (decode : Json → S → Except UnmarshalError S) (part : S → A)
    (values : Json → List Json) (read : Json → Except UnmarshalError A) : Prop :=
  ∀ j s s', decode j s = .ok s' → lastRead read (values j) (part s) = .ok (part s')

def Keeps (decode : Json → S → Except UnmarshalError S) (part : S → A) : Prop :=
  ∀ j s s', decode j s = .ok s' → part s' = part s

theorem bind_eq_ok {E : Type} {x : Except E S} {f : S → Except E T} {b : T} :
    x >>= f = .ok b ↔ ∃ a, x = .ok a ∧ f a = .ok b := by
  cases x <;> simp [bind, Except.bind]

theorem map_eq_ok {x : Except UnmarshalError S} {f : S → T} {b : T} :
    x.map f = .ok b ↔ ∃ a, x = .ok a ∧ f a = b := by
  cases x <;> simp [Except.map]

theorem lastRead_append {read : Json → Except UnmarshalError A} {xs ys : List Json} {a b c : A}
    (hxs : lastRead read xs a = .ok b) (hys : lastRead read ys b = .ok c) :
    lastRead read (xs ++ ys) a = .ok c := by
  unfold lastRead at hxs hys ⊢
  rw [List.getLast?_append]
  cases hlast : ys.getLast? with
  | some j =>
      rw [hlast] at hys
      exact hys
  | none =>
      rw [hlast] at hys
      rw [Option.none_or, ← Except.ok.inj hys]
      exact hxs

theorem reads_value {name : String} {set : S → A → S} {read : Json → Except UnmarshalError A}
    {part : S → A} (h : ∀ s a, part (set s a) = a) :
    Reads (StructField.value name set read).decode part (fun j => [j]) read := by
  intro j s s' hs
  obtain ⟨a, ha, rfl⟩ := map_eq_ok.1 hs
  show read j = .ok (part (set s a))
  rw [ha, h]

theorem reads_nested {name : String} {get : S → T} {set : S → T → S}
    {fields : List (StructField T)} {part : T → A} {values : Json → List Json}
    {read : Json → Except UnmarshalError A}
    (h : ∀ s t, get (set s t) = t) (ht : Reads (decodeStruct fields) part values read) :
    Reads (StructField.struct name get set fields).decode (part ∘ get) values read := by
  intro j s s' hs
  obtain ⟨t, hdecode, rfl⟩ := map_eq_ok.1 hs
  rw [Function.comp_apply, Function.comp_apply, h]
  exact ht j (get s) t hdecode

theorem keeps_value {B : Type} {name : String} {set : S → B → S}
    {read : Json → Except UnmarshalError B} {part : S → A} (h : ∀ s b, part (set s b) = part s) :
    Keeps (StructField.value name set read).decode part := by
  intro j s s' hs
  obtain ⟨b, -, rfl⟩ := map_eq_ok.1 hs
  exact h s b

theorem keeps_nested {name : String} {get : S → T} {set : S → T → S}
    {fields : List (StructField T)} {part : S → A} (h : ∀ s t, part (set s t) = part s) :
    Keeps (StructField.struct name get set fields).decode part := by
  intro j s s' hs
  obtain ⟨t, -, rfl⟩ := map_eq_ok.1 hs
  exact h s t

variable {fields : List (StructField S)} {name : String} {f : StructField S} {part : S → A}
  {values : Json → List Json} {read : Json → Except UnmarshalError A}

/-- One member: the name is the field's, another field's, or unknown. -/
theorem reads_member (hfind : fields.find? (fun g => foldName g.name = foldName name) = some f)
    (hf : Reads f.decode part values read)
    (hothers : ∀ g ∈ fields, foldName g.name ≠ foldName name → Keeps g.decode part)
    {s s' : S} {member : String × Json} (h : decodeMember fields s member = .ok s') :
    lastRead read (if foldName member.1 = foldName name then values member.2 else []) (part s) =
      .ok (part s') := by
  unfold decodeMember at h
  by_cases hname : foldName member.1 = foldName name
  · rw [if_pos hname]
    rw [hname, hfind] at h
    exact hf member.2 s s' h
  · rw [if_neg hname]
    show Except.ok (part s) = Except.ok (part s')
    cases hfield : fields.find? (fun g => foldName g.name = foldName member.1) with
    | none =>
        rw [hfield] at h
        rw [Except.ok.inj h]
    | some g =>
        rw [hfield] at h
        have hg : foldName g.name = foldName member.1 := by
          simpa only [decide_eq_true_eq] using List.find?_some hfield
        have hkeep := hothers g (List.mem_of_find?_eq_some hfield) (fun heq => hname (hg ▸ heq))
        rw [hkeep member.2 s s' h]

/-- **What decoding a struct leaves in a part of it**: the last of the values under the name of
its field, over all members of that name. -/
theorem reads_struct (hfind : fields.find? (fun g => foldName g.name = foldName name) = some f)
    (hf : Reads f.decode part values read)
    (hothers : ∀ g ∈ fields, foldName g.name ≠ foldName name → Keeps g.decode part) :
    Reads (decodeStruct fields) part (fun j => (j.named name).flatMap values) read := by
  intro j s s' h
  cases j with
  | null => rw [Except.ok.inj h]; rfl
  | object members =>
      replace h : members.foldlM (decodeMember fields) s = .ok s' := h
      show lastRead read (((members.filter _).map Prod.snd).flatMap values) (part s) = _
      induction members generalizing s with
      | nil => rw [Except.ok.inj h]; rfl
      | cons member members ih =>
          rw [List.foldlM_cons] at h
          obtain ⟨next, hnext, hrest⟩ := bind_eq_ok.1 h
          have hmember := reads_member hfind hf hothers hnext
          have happend := lastRead_append hmember (ih next hrest)
          by_cases hname : foldName member.1 = foldName name
          · rw [if_pos hname] at happend
            rw [List.filter_cons_of_pos (by exact decide_eq_true hname), List.map_cons,
              List.flatMap_cons]
            exact happend
          · rw [if_neg hname] at happend
            rw [List.filter_cons_of_neg (by simpa using hname)]
            exact happend
  | bool b => cases h
  | number x => cases h
  | string t => cases h
  | array items => cases h

/-- Each item is read by itself. -/
theorem forall₂_of_mapM {items : List Json} {as : List A} (h : items.mapM read = .ok as) :
    List.Forall₂ (fun j a => read j = .ok a) items as := by
  induction items generalizing as with
  | nil =>
      have hnil : [] = as := Except.ok.inj h
      exact hnil ▸ List.Forall₂.nil
  | cons j items ih =>
      rw [List.mapM_cons] at h
      obtain ⟨a, ha, h⟩ := bind_eq_ok.1 h
      obtain ⟨rest, hrest, h⟩ := bind_eq_ok.1 h
      rw [← Except.ok.inj h]
      exact List.Forall₂.cons ha (ih hrest)

end Reads

theorem uint64Item_eq_ok {j : Json} {n : Nat} (h : uint64Item j = .ok n) :
    j = .null ∨ ∃ x : Numeral, j = .number x ∧ x.value = (n : Int) := by
  cases j with
  | null => exact Or.inl rfl
  | number x =>
      rw [uint64Item] at h
      by_cases hx : x.Plain ∧ x.negative = false ∧ x.whole < 2 ^ 64
      · rw [if_pos hx] at h
        refine Or.inr ⟨x, rfl, ?_⟩
        rw [Numeral.value_of_plain hx.1, Numeral.integer, hx.2.1, ← Except.ok.inj h]
        rfl
      · rw [if_neg hx] at h
        cases h
  | bool b => cases h
  | string s => cases h
  | array items => cases h
  | object members => cases h

theorem bigInt_eq_ok {j : Json} {n : Option Int} (h : bigInt j = .ok n) :
    j = .null ∨ ∃ (x : Numeral) (m : Int), j = .number x ∧ n = some m ∧ x.value = m := by
  cases j with
  | null => exact Or.inl rfl
  | number x =>
      rw [bigInt] at h
      by_cases hx : x.Plain
      · rw [if_pos hx] at h
        exact Or.inr ⟨x, x.integer, rfl, (Except.ok.inj h).symm, Numeral.value_of_plain hx⟩
      · rw [if_neg hx] at h
        cases h
  | bool b => cases h
  | string s => cases h
  | array items => cases h
  | object members => cases h

theorem interfaceValue_string (s : String) : interfaceValue (.string s) = .ok (.str s) := (rfl)

theorem interfaceValue_number (x : Numeral) : interfaceValue (.number x) =
    match Binary64.parseFloat x.value with
    | some v => .ok (.float v)
    | none => .error .typeError := (rfl)

theorem interfaceValue_of_toNearest {x : Numeral} {r : ℚ} (h : Binary64.toNearest x.value = r)
    (hr : |r| < 2 ^ 64) : interfaceValue (.number x) = .ok (.float r) := by
  rw [interfaceValue_number, Binary64.parseFloat_of_toNearest h hr]

/-- A number that is decoded is rounded. -/
theorem eq_float_of_number {x : Numeral} {v : GoValue} (h : interfaceValue (.number x) = .ok v) :
    v = .float (Binary64.toNearest x.value) := by
  rw [interfaceValue_number, Binary64.parseFloat] at h
  by_cases hrange : |Binary64.toNearest x.value| < 2 ^ 1024
  · rw [if_pos hrange] at h
    exact (Except.ok.inj h).symm
  · rw [if_neg hrange] at h
    cases h

end ProverNetwork.Verified.GoJson
