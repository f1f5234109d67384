import ProverNetwork.Verified.GoSlice

/-!
# Values behind `interface{}`

What `encoding/json` decodes into an empty interface, with the type assertions
a program makes on it.  A checked assertion gives a flag, an unchecked one
panics.
-/

namespace ProverNetwork.Verified

/-- A decoded JSON value.  A number is a `float64`, or a `json.Number` where
the decoder was told to keep the text.  A map lists each key once. -/
inductive GoValue
  | null
  | bool (b : Bool)
  | float (v : Rat)
  | number (text : String)
  | str (s : String)
  | slice (items : List GoValue)
  | map (entries : List (String × GoValue))

namespace GoValue

/-- `m[k]` on a map of values; a missing key reads as nil. -/
def lookup (m : List (String × GoValue)) (k : String) : GoValue :=
  (m.lookup k).getD .null

/-- `v, ok := x.([]interface{})`. -/
def slice? : GoValue → Option (List GoValue)
  | .slice items => some items
  | _ => none

/-- `v, ok := x.(string)`. -/
def str? : GoValue → Option String
  | .str s => some s
  | _ => none

/-- `x.([]interface{})`. -/
def assertSlice (v : GoValue) : Go (List GoValue) :=
  match v.slice? with
  | some items => .ok items
  | none => .error .typeAssertion

/-- `x.(string)`. -/
def assertStr (v : GoValue) : Go String :=
  match v.str? with
  | some s => .ok s
  | none => .error .typeAssertion

theorem assertSlice_ok_iff (v : GoValue) (items : List GoValue) :
    v.assertSlice = .ok items ↔ v.slice? = some items := by
  unfold assertSlice
  cases v.slice? with
  | none => simp
  | some l => simp

theorem assertStr_ok_iff (v : GoValue) (s : String) :
    v.assertStr = .ok s ↔ v.str? = some s := by
  unfold assertStr
  cases v.str? with
  | none => simp
  | some t => simp

/-- `v.(string)` for each item of a slice. -/
def assertStrs : List GoValue → Go (List String)
  | [] => .ok []
  | v :: items => do
      let s ← v.assertStr
      let ss ← assertStrs items
      .ok (s :: ss)

/-- `v.(string)` for each item of `seg.([]interface{})`, for each `seg`. -/
def assertRows : List GoValue → Go (List (List String))
  | [] => .ok []
  | seg :: rest => do
      let items ← seg.assertSlice
      let row ← assertStrs items
      let rows ← assertRows rest
      .ok (row :: rows)

theorem str?_eq_some (v : GoValue) (s : String) : v.str? = some s ↔ v = .str s := by
  cases v <;> simp [str?]

theorem slice?_eq_some (v : GoValue) (items : List GoValue) :
    v.slice? = some items ↔ v = .slice items := by
  cases v <;> simp [slice?]

/-- **No assertion fails exactly on a slice of strings.** -/
theorem assertStrs_ok_iff (items : List GoValue) (ss : List String) :
    assertStrs items = .ok ss ↔ items = ss.map .str := by
  induction items generalizing ss with
  | nil => cases ss <;> simp [assertStrs]
  | cons v items ih =>
      cases ss with
      | nil => simp [assertStrs]
      | cons s ss => simp [assertStrs, assertStr_ok_iff, str?_eq_some, ih, and_comm]

theorem assertRows_ok_iff (segs : List GoValue) (rows : List (List String)) :
    assertRows segs = .ok rows ↔ segs = rows.map (fun row => .slice (row.map .str)) := by
  induction segs generalizing rows with
  | nil => cases rows <;> simp [assertRows]
  | cons seg segs ih =>
      cases rows with
      | nil => simp [assertRows]
      | cons row rows =>
          simp [assertRows, assertSlice_ok_iff, slice?_eq_some, assertStrs_ok_iff, ih,
            and_comm]

theorem assertRows_returns (segs : List GoValue) (Q : List (List String) → Prop) :
    (assertRows segs).Returns Q ↔
      ∃ rows, segs = rows.map (fun row => .slice (row.map .str)) ∧ Q rows := by
  simp only [Go.Returns, assertRows_ok_iff]

end GoValue

end ProverNetwork.Verified
