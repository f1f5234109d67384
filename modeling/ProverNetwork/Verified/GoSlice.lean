import Mathlib.Data.List.TakeDrop

/-!
# Go slices and the ways a Go program stops

A slice is a window of a backing array: indexing is checked against the
length, reslicing against the capacity.  `Go α` is a computation that either
returns or stops the process, by a panic that nobody recovers, by `os.Exit`, or
because the runtime finds no memory for what it is asked to make.

`At` says which items stand at an offset and `Frame` that a write stayed
inside a window; decoders that rewrite their input in place are specified with
the two.

## Main results

* `bind_eq_ok` — a sequence returns exactly when both halves do.
* `returns_bind` — what a sequence has to return, from back to front.
* `At.append_iff` — a string at an offset is its parts at theirs.
* `At.frame` — what stands outside a written window still stands.
* `overwrite_frame` — a write through an alias is confined to its window.
-/

namespace ProverNetwork.Verified

/-- What ends a Go process. -/
inductive Halt
  | indexOutOfRange
  | sliceBounds
  | typeAssertion
  | outOfMemory
  | panicked (msg : String)
  | exited (msg : String)
  deriving DecidableEq, Repr

abbrev Go (α : Type) := Except Halt α

namespace Go

variable {α β : Type}

@[simp] theorem bind_eq_ok (x : Go α) (f : α → Go β) (b : β) :
    (x >>= f) = .ok b ↔ ∃ a, x = .ok a ∧ f a = .ok b := by
  cases x with
  | error e => simp [bind, Except.bind]
  | ok a => simp [bind, Except.bind]

@[simp] theorem pure_eq (a : α) : (pure a : Go α) = .ok a := rfl

@[simp] theorem ok_bind (a : α) (f : α → Go β) :
    ((.ok a : Go α) >>= f) = f a := rfl

@[simp] theorem error_bind (e : Halt) (f : α → Go β) :
    ((.error e : Go α) >>= f) = .error e := rfl

/-- The computation returns, with a value that satisfies `Q`. -/
def Returns (x : Go α) (Q : α → Prop) : Prop := ∃ a, x = .ok a ∧ Q a

variable {Q Q' : α → Prop}

@[simp] theorem returns_ok (a : α) : Returns (.ok a) Q ↔ Q a := by
  simp [Returns]

@[simp] theorem returns_error (e : Halt) : ¬Returns (.error e) Q := by
  simp [Returns]

@[simp] theorem returns_bind (x : Go α) (f : α → Go β) (P : β → Prop) :
    Returns (x >>= f) P ↔ Returns x (fun a => Returns (f a) P) := by
  cases x with
  | error e => simp
  | ok a => simp

@[simp] theorem returns_ite (c : Prop) [Decidable c] (x y : Go α) :
    Returns (if c then x else y) Q ↔ c ∧ Returns x Q ∨ ¬c ∧ Returns y Q := by
  by_cases h : c <;> simp [h]

/-- What does not depend on the value can be asked for separately. -/
theorem returns_const (x : Go α) (P : Prop) :
    Returns x (fun _ => P) ↔ Returns x (fun _ => True) ∧ P := by
  cases x with
  | error e => simp
  | ok a => simp

/-- What holds of every value need not be asked for. -/
theorem returns_always {x : Go α} (h : ∀ a, Q a) : Returns x Q ↔ Returns x (fun _ => True) := by
  simp only [Returns, h]

/-- A sequence whose second half returns or not whatever the first half returned. -/
theorem returns_both {x : Go α} {f : α → Go β} {P : Prop}
    (h : ∀ a, (f a).Returns (fun _ => True) ↔ P) :
    (x >>= f).Returns (fun _ => True) ↔ x.Returns (fun _ => True) ∧ P := by
  rw [returns_bind]
  simp only [h]
  exact returns_const x P

/-- A loop returns exactly when every turn does. -/
theorem mapM_returns (f : α → Go β) (l : List α) :
    (l.mapM f).Returns (fun _ => True) ↔ ∀ a ∈ l, (f a).Returns (fun _ => True) := by
  induction l with
  | nil =>
      rw [List.mapM_nil, pure_eq, returns_ok]
      simp
  | cons a l ih =>
      rw [List.mapM_cons, List.forall_mem_cons]
      apply returns_both
      intro b
      rw [returns_bind, ← ih]
      exact returns_always (fun bs => ⟨_, rfl, trivial⟩)

theorem Returns.mono {x : Go α} (hx : Returns x Q) (h : ∀ a, Q a → Q' a) :
    Returns x Q' := by
  obtain ⟨a, rfl, ha⟩ := hx
  exact ⟨a, rfl, h a ha⟩

end Go

/-- A slice: its backing array from its first item on, and its length. -/
structure Slice (α : Type) where
  arr : List α
  len : Nat
  len_le : len ≤ arr.length

namespace Slice

variable {α : Type}

def cap (s : Slice α) : Nat := s.arr.length

def toList (s : Slice α) : List α := s.arr.take s.len

/-- A slice without spare capacity. -/
def ofList (l : List α) : Slice α := ⟨l, l.length, Nat.le_refl _⟩

@[simp] theorem toList_ofList (l : List α) : (ofList l).toList = l := by
  simp [toList, ofList]

@[simp] theorem length_toList (s : Slice α) : s.toList.length = s.len := by
  simp [toList, s.len_le]

/-- `s[i]`. -/
def index (s : Slice α) (i : Int) : Go α :=
  if 0 ≤ i ∧ i < s.len then
    match s.arr[i.toNat]? with
    | some x => .ok x
    | none => .error .indexOutOfRange
  else .error .indexOutOfRange

/-- `s[lo:hi]`; `hi` may exceed the length, up to the capacity. -/
def subslice (s : Slice α) (lo hi : Int) : Go (Slice α) :=
  if h : 0 ≤ lo ∧ lo ≤ hi ∧ hi ≤ s.cap then
    .ok ⟨s.arr.drop lo.toNat, (hi - lo).toNat, by
      simp only [cap] at h
      simp only [List.length_drop]
      omega⟩
  else .error .sliceBounds

/-- Writes `new` over the items from `lo` on, as seen through an alias. -/
def overwrite (s : Slice α) (lo : Nat) (new : List α) : Slice α :=
  let arr := s.arr.take lo ++ (new ++ s.arr.drop (lo + new.length))
  if h : arr.length = s.arr.length then ⟨arr, s.len, h ▸ s.len_le⟩ else s

theorem index_ofList {l : List α} {i : Nat} {x : α} (h : l[i]? = some x) :
    (ofList l).index i = .ok x := by
  have hlt : i < l.length := (List.getElem?_eq_some_iff.1 h).1
  have hcond : (0 : Int) ≤ i ∧ (i : Int) < l.length := by omega
  simp [index, ofList, hcond, h]

theorem index_ofList_eq_ok (l : List α) (i : Nat) (x : α) :
    (ofList l).index i = .ok x ↔ l[i]? = some x := by
  by_cases hi : i < l.length
  · rw [index_ofList (List.getElem?_eq_getElem hi), List.getElem?_eq_getElem hi]
    simp
  · have hout : ¬((0 : Int) ≤ i ∧ (i : Int) < (ofList l).len) := by
      simp only [ofList]
      omega
    rw [index, if_neg hout, List.getElem?_eq_none (by omega)]
    simp

theorem index_ofList_returns (l : List α) (i : Nat) {Q : α → Prop} :
    ((ofList l).index i).Returns Q ↔ ∃ x, l[i]? = some x ∧ Q x := by
  simp only [Go.Returns, index_ofList_eq_ok]

theorem subslice_returns (s : Slice α) (lo hi : Int) :
    (s.subslice lo hi).Returns (fun _ => True) ↔ 0 ≤ lo ∧ lo ≤ hi ∧ hi ≤ s.cap := by
  unfold subslice
  by_cases h : 0 ≤ lo ∧ lo ≤ hi ∧ hi ≤ s.cap
  · rw [dif_pos h]
    simp [h]
  · rw [dif_neg h]
    simp [h]

/-- The window that is cut out. -/
theorem subslice_window {s w : Slice α} {lo hi : Int} (h : s.subslice lo hi = .ok w) :
    w.toList = (s.arr.drop lo.toNat).take (hi - lo).toNat := by
  unfold subslice at h
  split at h
  · cases h
    rfl
  · cases h

/-- A prefix may reach past the length, into the spare capacity. -/
theorem subslice_zero {s w : Slice α} {hi : Int} (h : s.subslice 0 hi = .ok w) :
    w.toList = s.arr.take hi.toNat ∧ w.len = hi.toNat := by
  unfold subslice at h
  split at h
  · cases h
    simp [toList]
  · cases h

theorem subslice_zero_ok {s : Slice α} {hi : Int} (h : 0 ≤ hi ∧ hi ≤ s.cap) :
    ∃ w, s.subslice 0 hi = .ok w ∧ w.toList = s.arr.take hi.toNat := by
  obtain ⟨w, hw, -⟩ := (subslice_returns s 0 hi).2 ⟨Int.le_refl 0, h⟩
  exact ⟨w, hw, (subslice_zero hw).1⟩

/-! ## Slices built by appending -/

/-- How much capacity a slice has after `n` appends of one item to a nil slice.
The language asks for enough only. -/
structure Growth where
  cap : Nat → Nat
  le_cap : ∀ n, n ≤ cap n
  cap_zero : cap 0 = 0

/-- The slice after appending the items of a list, one at a time; the spare
capacity holds zero values. -/
def appended (growth : Growth) (zero : α) (l : List α) : Slice α where
  arr := l ++ List.replicate (growth.cap l.length - l.length) zero
  len := l.length
  len_le := by simp

@[simp] theorem toList_appended (growth : Growth) (zero : α) (l : List α) :
    (appended growth zero l).toList = l := by
  simp [toList, appended]

@[simp] theorem cap_appended (growth : Growth) (zero : α) (l : List α) :
    (appended growth zero l).cap = growth.cap l.length := by
  have hle := growth.le_cap l.length
  simp only [cap, appended, List.length_append, List.length_replicate]
  omega

/-! ## What stands at an offset -/

/-- The items `l` stand in the slice from `off` on. -/
def At (s : Slice α) (off : Nat) (l : List α) : Prop :=
  off + l.length ≤ s.len ∧ ∀ i, i < l.length → s.arr[off + i]? = l[i]?

/-- A slice holds its own items from its start on. -/
theorem at_toList (s : Slice α) : s.At 0 s.toList := by
  refine ⟨by simp, ?_⟩
  intro i hi
  rw [length_toList] at hi
  simp [toList, hi]

theorem At.append_iff (s : Slice α) (off : Nat) (l m : List α) :
    s.At off (l ++ m) ↔ s.At off l ∧ s.At (off + l.length) m := by
  constructor
  · rintro ⟨hlen, hget⟩
    rw [List.length_append] at hlen hget
    refine ⟨⟨by omega, ?_⟩, ⟨by omega, ?_⟩⟩
    · intro i hi
      rw [hget i (by omega), List.getElem?_append_left hi]
    · intro i hi
      rw [Nat.add_assoc, hget (l.length + i) (by omega),
        List.getElem?_append_right (by omega), Nat.add_sub_cancel_left]
  · rintro ⟨⟨_, hl⟩, ⟨hlen, hm⟩⟩
    refine ⟨by rw [List.length_append]; omega, ?_⟩
    intro i hi
    rw [List.length_append] at hi
    by_cases h : i < l.length
    · rw [hl i h, List.getElem?_append_left h]
    · have hidx : off + i = off + l.length + (i - l.length) := by omega
      rw [hidx, hm (i - l.length) (by omega),
        List.getElem?_append_right (by omega)]

theorem At.index_ok {s : Slice α} {off : Nat} {l : List α} (h : s.At off l)
    {i : Nat} {x : α} (hx : l[i]? = some x) :
    s.index ((off + i : Nat) : Int) = .ok x := by
  have hi : i < l.length := (List.getElem?_eq_some_iff.1 hx).1
  have hcond : (0 : Int) ≤ (off + i : Nat) ∧ ((off + i : Nat) : Int) < s.len := by
    have := h.1
    omega
  have hget := h.2 i hi
  rw [hx] at hget
  simp only [index, if_pos hcond, Int.toNat_natCast, hget]

/-- The window that `At` describes, cut out by `subslice`. -/
theorem At.subslice_ok {s : Slice α} {off : Nat} {l : List α} (h : s.At off l) :
    ∃ w, s.subslice off (off + l.length) = .ok w ∧ w.toList = l := by
  have hle : off + l.length ≤ s.arr.length := Nat.le_trans h.1 s.len_le
  have hcond : (0 : Int) ≤ off ∧ (off : Int) ≤ off + l.length ∧
      (off : Int) + l.length ≤ s.cap := by
    simp only [cap]
    omega
  refine ⟨_, dif_pos hcond, ?_⟩
  have hn : ((off : Int) + l.length - off).toNat = l.length := by omega
  apply List.ext_getElem?
  intro i
  simp only [toList, hn, Int.toNat_natCast]
  by_cases hi : i < l.length
  · rw [List.getElem?_take, if_pos hi, List.getElem?_drop, h.2 i hi]
  · rw [List.getElem?_take, if_neg hi, List.getElem?_eq_none (by omega)]

/-! ## Writes confined to a window -/

/-- `t` is `s` with items changed in `[lo, hi)` only. -/
structure Frame (lo hi : Nat) (s t : Slice α) : Prop where
  len_eq : t.len = s.len
  arr_length : t.arr.length = s.arr.length
  outside : ∀ i, i < lo ∨ hi ≤ i → t.arr[i]? = s.arr[i]?

theorem Frame.refl (lo hi : Nat) (s : Slice α) : Frame lo hi s s :=
  ⟨rfl, rfl, fun _ _ => rfl⟩

theorem Frame.trans {lo mid hi : Nat} {s t u : Slice α} (h : Frame lo mid s t)
    (h' : Frame mid hi t u) (hlo : lo ≤ mid) (hhi : mid ≤ hi) :
    Frame lo hi s u := by
  refine ⟨h'.len_eq.trans h.len_eq, h'.arr_length.trans h.arr_length, ?_⟩
  intro i hi
  exact (h'.outside i (by omega)).trans (h.outside i (by omega))

theorem Frame.mono {lo hi lo' hi' : Nat} {s t : Slice α} (h : Frame lo hi s t)
    (hlo : lo' ≤ lo) (hhi : hi ≤ hi') : Frame lo' hi' s t :=
  ⟨h.len_eq, h.arr_length, fun i hi => h.outside i (by omega)⟩

/-- What stands outside a written window still stands. -/
theorem At.frame {s t : Slice α} {lo hi off : Nat} {l : List α}
    (h : s.At off l) (hf : Frame lo hi s t)
    (hdisj : off + l.length ≤ lo ∨ hi ≤ off) : t.At off l := by
  refine ⟨by rw [hf.len_eq]; exact h.1, ?_⟩
  intro i hi
  rw [hf.outside (off + i) (by omega), h.2 i hi]

theorem overwrite_frame {s : Slice α} {lo : Nat} {new : List α}
    (h : lo + new.length ≤ s.cap) :
    Frame lo (lo + new.length) s (s.overwrite lo new) := by
  have hle : lo + new.length ≤ s.arr.length := h
  have hlen : (s.arr.take lo ++ (new ++ s.arr.drop (lo + new.length))).length
      = s.arr.length := by
    simp only [List.length_append, List.length_take, List.length_drop]
    omega
  have htake : (s.arr.take lo).length = lo := by
    rw [List.length_take]
    omega
  have harr : (s.overwrite lo new).arr =
      s.arr.take lo ++ (new ++ s.arr.drop (lo + new.length)) := by
    simp only [overwrite, dif_pos hlen]
  refine ⟨by simp only [overwrite, dif_pos hlen], by rw [harr, hlen], ?_⟩
  intro i hi
  rw [harr]
  by_cases hlo : i < lo
  · rw [List.getElem?_append_left (by omega), List.getElem?_take, if_pos hlo]
  · rw [List.getElem?_append_right (by omega),
      List.getElem?_append_right (by omega), List.getElem?_drop]
    congr 1
    omega

/-! ## Windows of the buffer -/

/-- The `k` items of the backing array from `off` on. -/
def window (s : Slice α) (off k : Nat) : List α := (s.arr.drop off).take k

theorem length_window {s : Slice α} {off k : Nat} (h : off + k ≤ s.cap) :
    (s.window off k).length = k := by
  have hcap : off + k ≤ s.arr.length := h
  rw [window, List.length_take, List.length_drop]
  omega

theorem at_window {s : Slice α} {off k : Nat} (h : off + k ≤ s.len) :
    s.At off (s.window off k) := by
  have hlen : (s.window off k).length = k := length_window (Nat.le_trans h s.len_le)
  refine ⟨by rw [hlen]; exact h, ?_⟩
  intro i hi
  rw [hlen] at hi
  rw [window, List.getElem?_take, if_pos hi, List.getElem?_drop]

/-- A window that was not written to. -/
theorem Frame.window_eq {s t : Slice α} {lo hi off : Nat} (hf : Frame lo hi s t) (h : hi ≤ off)
    (k : Nat) : t.window off k = s.window off k := by
  apply List.ext_getElem?
  intro i
  rw [window, window, List.getElem?_take, List.getElem?_take]
  by_cases hik : i < k
  · rw [if_pos hik, if_pos hik, List.getElem?_drop, List.getElem?_drop,
      hf.outside (off + i) (Or.inr (by omega))]
  · rw [if_neg hik, if_neg hik]

theorem Frame.cap_eq {s t : Slice α} {lo hi : Nat} (hf : Frame lo hi s t) : t.cap = s.cap :=
  hf.arr_length

theorem index_bounds {s : Slice α} {i : Int} {x : α} (h : s.index i = .ok x) :
    0 ≤ i ∧ i < s.len := by
  unfold index at h
  split at h
  next hcond => exact hcond
  next => cases h

end Slice

end ProverNetwork.Verified
