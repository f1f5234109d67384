import ProverNetwork.Verified.Dict

/-!
# Files on a shared disk

A disk maps paths to contents.  A write replaces the file at its path, fails
before it has touched it, or fails with something left there.

Two paths with ends of one length are equal only where the ends are: so a file
name with its own ending keeps apart the files of two directories.

## Main results

* `get?_write_of_ne` — a write leaves every other file alone.
* `append_eq_append` — equal paths have equal ends.
-/

namespace ProverNetwork.Verified.FileStore

/-- How a write ends. -/
inductive Written (ν : Type)
  | whole
  | refused
  | torn (left : ν)

section Write

variable {κ ν : Type} [DecidableEq κ]

/-- The disk after a write, and whether it succeeded. -/
def write (files : Dict κ ν) (path : κ) (content : ν) : Written ν → Bool × Dict κ ν
  | .whole => (true, files.set path content)
  | .refused => (false, files)
  | .torn left => (false, files.set path left)

/-- **A write leaves every other file alone.** -/
theorem get?_write_of_ne (files : Dict κ ν) {path other : κ} (h : other ≠ path) (content : ν)
    (written : Written ν) :
    (write files path content written).2.get? other = files.get? other := by
  cases written with
  | whole => exact (Dict.get?_set files path other content).trans (if_neg h)
  | refused => rfl
  | torn left => exact (Dict.get?_set files path other left).trans (if_neg h)

theorem get?_write_self {files : Dict κ ν} {path : κ} {content : ν} {written : Written ν}
    (h : (write files path content written).1 = true) :
    (write files path content written).2.get? path = some content := by
  cases written with
  | whole => exact Dict.get?_set_self files path content
  | refused => cases h
  | torn left => cases h

end Write

/-! ## Paths -/

/-- `filepath.Join` of a clean directory and the name of an entry. -/
def join (dir file : String) : String := dir ++ "/" ++ file

/-- **Equal paths have equal ends**, of one length. -/
theorem append_eq_append {a b s t : String} (hlength : s.length = t.length)
    (h : a ++ s = b ++ t) : a = b ∧ s = t := by
  have hlists : a.toList ++ s.toList = b.toList ++ t.toList := by
    rw [← String.toList_append, ← String.toList_append, h]
  have hsame : s.toList.length = t.toList.length := by
    rw [String.length_toList, String.length_toList, hlength]
  obtain ⟨hstart, hend⟩ := List.append_inj' hlists hsame
  exact ⟨String.toList_inj.1 hstart, String.toList_inj.1 hend⟩

theorem append_ne_append (a b : String) {s t : String} (hlength : s.length = t.length)
    (hne : s ≠ t) : a ++ s ≠ b ++ t :=
  fun h => hne (append_eq_append hlength h).2

end ProverNetwork.Verified.FileStore
