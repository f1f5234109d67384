import ProverNetwork.Ports.PyVal
import ProverNetwork.Verified.PyText

/-!
# The project records of the node

A project is found by the last item of a proof or of its witness: five
characters are a key, anything longer or shorter is read as pairs of digits,
each the code of a digit of the key.

The records are what `ujson.load` made of the project file.

## Main results

* `getProject_ok_iff` — when a project is looked up without an exception.
-/

namespace ProverNetwork.Ports.ProjectManager

open ProverNetwork.Verified

/-- The record of an id that no project has. -/
def anonymous : PyVal :=
  .dict [("project_name", .str "Anonymous"), ("verifiers", .list [.str "Unknow"])]

/-- `self.projects.get(key, ..)`. -/
def get (projects : PyVal) (key : String) : Except PyError PyVal :=
  match projects with
  | .dict members => .ok ((Dict.lookup key members).getD anonymous)
  | _ => .error .attributeError

/-- `chr(n)`, except for the surrogates; `int` takes neither those nor `none`. -/
def chr (n : Int) : Option Char :=
  if 0 ≤ n ∧ n.toNat.isValidChar then some (Char.ofNat n.toNat) else none

/-- `str(int(chr(int(chunk))))`; a chunk that raises is skipped. -/
def decodeChunk (chunk : String) : String :=
  match PyText.int chunk with
  | .error _ => ""
  | .ok n =>
      match chr n with
      | none => ""
      | some c =>
          match PyText.int (String.singleton c) with
          | .error _ => ""
          | .ok digit => toString digit

/-- The loop over the pairs. -/
def cleanId : List Char → String
  | a :: b :: rest => decodeChunk (String.ofList [a, b]) ++ cleanId rest
  | _ => ""

/-- `get_project`, on `str(project_id)`. -/
def getProject (projects : PyVal) (project_id : String) : Except PyError PyVal :=
  if project_id.length = 5 then get projects project_id
  else if project_id.length % 2 ≠ 0 then .ok anonymous
  else get projects (cleanId project_id.toList)

example : cleanId "4948484855".toList = "10007" := by decide

/-- The id is looked up among the records. -/
def LooksUp (project_id : String) : Prop :=
  project_id.length = 5 ∨ project_id.length % 2 = 0

/-- **When a project is looked up without an exception.** -/
theorem getProject_ok_iff (projects : PyVal) (project_id : String) :
    (∃ project, getProject projects project_id = .ok project) ↔
      (LooksUp project_id → ∃ members, projects = .dict members) := by
  have hget : ∀ key, (∃ project, get projects key = .ok project) ↔
      ∃ members, projects = .dict members := by
    intro key
    cases projects <;> simp [get]
  unfold getProject LooksUp
  by_cases hfive : project_id.length = 5
  · rw [if_pos hfive, hget]
    simp [hfive]
  · rw [if_neg hfive]
    by_cases heven : project_id.length % 2 = 0
    · rw [if_neg (not_not.2 heven), hget]
      simp [heven]
    · simp [hfive, heven]

end ProverNetwork.Ports.ProjectManager
