import Mathlib.Data.List.Basic

/-!
# Stamped contents

A content that is overwritten as a whole, each write with a stamp it never had
before, such as a file with its modification time.  A reader takes the stamp
and the content at different times.

Where the stamp was taken first, the pair is right for as long as the stamp is
the current one: a write in between, or at any later time, makes the stamp an
old one for good.

## Main results

* `Fits.of_stamp` — what is read under a stamp taken before.
* `Fits.write` — a write keeps what was read under old stamps harmless.
-/

namespace ProverNetwork.Verified

/-- A content under its stamp, with the stamps it had before. -/
structure Stamped (τ κ : Type*) where
  content : κ
  stamp : τ
  past : List τ
  fresh : stamp ∉ past

namespace Stamped

variable {τ κ : Type*}

/-- The stamps it has or had. -/
def used (f : Stamped τ κ) : List τ := f.stamp :: f.past

/-- Overwrite the content, where the stamp was never used. -/
def write [DecidableEq τ] (f : Stamped τ κ) (stamp : τ) (content : κ) : Option (Stamped τ κ) :=
  if h : stamp ∉ f.used then some ⟨content, stamp, f.used, h⟩ else none

/-- The stamp was used, and while it is current so is the content. -/
structure Fits (f : Stamped τ κ) (stamp : τ) (content : κ) : Prop where
  mem : stamp ∈ f.used
  current : stamp = f.stamp → content = f.content

theorem mem_used (f : Stamped τ κ) : f.stamp ∈ f.used := List.mem_cons_self

/-- What is read under a stamp that was taken before. -/
theorem Fits.of_stamp {f : Stamped τ κ} {stamp : τ} (h : stamp ∈ f.used) :
    f.Fits stamp f.content :=
  ⟨h, fun _ => rfl⟩

section Write

variable [DecidableEq τ] {f g : Stamped τ κ} {stamp m : τ} {content c : κ}

theorem write_eq_some (h : f.write stamp content = some g) :
    stamp ∉ f.used ∧ g.content = content ∧ g.stamp = stamp ∧ g.used = stamp :: f.used := by
  unfold write at h
  split at h
  next hfresh =>
    cases h
    exact ⟨hfresh, rfl, rfl, rfl⟩
  next => cases h

theorem mem_used_write (h : f.write stamp content = some g) (hm : m ∈ f.used) : m ∈ g.used := by
  obtain ⟨-, -, -, hused⟩ := write_eq_some h
  rw [hused]
  exact List.mem_cons_of_mem stamp hm

/-- A write makes every stamp taken before an old one. -/
theorem Fits.write (h : f.write stamp content = some g) (hm : f.Fits m c) : g.Fits m c := by
  obtain ⟨hfresh, -, hstamp, -⟩ := write_eq_some h
  refine ⟨mem_used_write h hm.mem, ?_⟩
  intro heq
  rw [hstamp] at heq
  exact absurd (heq ▸ hm.mem) hfresh

end Write

end Stamped

end ProverNetwork.Verified
