import Mathlib.Data.Rat.Defs
import ProverNetwork.Verified.Dict

/-!
# Python values handled by the node

What the modelled calls raise, the values `ujson.loads` can return, and the
task statuses kept in the cache.
Only the operations the node applies to them are here: truthiness, comparison
with an integer, comparison with a list of strings, and the lookup of a member
of a decoded object.
-/

namespace ProverNetwork.Ports

open ProverNetwork.Verified

/-- What the modelled calls raise; `other` is an exception of any other class. -/
inductive PyError
  | attributeError
  | typeError
  | valueError
  | keyError
  | indexError
  | clientError (msg : String)
  | notImplemented (msg : String)
  | other (name : String)
  deriving DecidableEq

/-- A decoded JSON value, or a cached status.  A finite float is kept by its
value; `nonFinite` is an infinity or a NaN. -/
inductive PyVal
  | none
  | bool (b : Bool)
  | int (n : Int)
  | float (q : ℚ)
  | nonFinite
  | str (s : String)
  | list (xs : List PyVal)
  | dict (members : List (String × PyVal))

namespace PyVal

/-- `v is None`. -/
def isNone : PyVal → Bool
  | none => true
  | _ => false

/-- `bool(v)`. -/
def truthy : PyVal → Bool
  | none => false
  | bool b => b
  | int n => n ≠ 0
  | float q => q ≠ 0
  | nonFinite => true
  | str s => s ≠ ""
  | list xs => !xs.isEmpty
  | dict members => !members.isEmpty

/-- `v == n` for an integer `n`; booleans and floats compare by value. -/
def eqInt : PyVal → Int → Bool
  | bool b, n => (if b then 1 else 0) = n
  | int m, n => m = n
  | float q, n => q = (n : ℚ)
  | _, _ => false

/-- `xs == ys` for a list `ys` of strings. -/
def eqStrs : List PyVal → List String → Bool
  | [], [] => true
  | str a :: xs, b :: ys => a = b && eqStrs xs ys
  | _, _ => false

/-- `v == ys` for a list `ys` of strings. -/
def eqStrList : PyVal → List String → Bool
  | list xs, ys => eqStrs xs ys
  | _, _ => false

/-- `v[key]`; `none` stands for the exception raised when `v` is not an
object or has no such member. -/
def item? : PyVal → String → Option PyVal
  | dict members, key => Dict.lookup key members
  | _, _ => Option.none

theorem eqStrs_iff (xs : List PyVal) (ys : List String) :
    eqStrs xs ys = true ↔ xs = ys.map str := by
  induction xs generalizing ys with
  | nil => cases ys <;> simp [eqStrs]
  | cons x xs ih =>
      cases ys with
      | nil => cases x <;> simp [eqStrs]
      | cons y ys => cases x <;> simp [eqStrs, ih]

end PyVal

end ProverNetwork.Ports
