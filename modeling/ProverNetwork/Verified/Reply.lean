import Mathlib.Logic.Unique
import ProverNetwork.Verified.GoSlice

/-!
# Handlers with early answers

A request handler is a sequence of steps, each of which goes on with a value,
answers the request, or stops the process.  `Ends x P Q` asks that `x` does not
stop the process, that it answers with `P` and that it goes on with `Q`.

## Main results

* `bind_eq_next` — a sequence goes on exactly when both halves do.
* `ends_bind` — `Ends` of a sequence, from back to front.
* `refuses_bind` — the early answers of a sequence are those of its halves.
-/

namespace ProverNetwork.Verified

inductive Reply (ρ α : Type)
  | next (a : α)
  | respond (r : ρ)
  | halt (e : Halt)
  deriving DecidableEq

namespace Reply

variable {ρ α β ε : Type}

instance : Monad (Reply ρ) where
  pure := next
  bind x f := match x with
    | next a => f a
    | respond r => respond r
    | halt e => halt e

@[simp] theorem pure_eq (a : α) : (pure a : Reply ρ α) = next a := rfl

@[simp] theorem next_bind (a : α) (f : α → Reply ρ β) : (next a >>= f) = f a := rfl

@[simp] theorem respond_bind (r : ρ) (f : α → Reply ρ β) :
    (respond r >>= f) = respond r := rfl

@[simp] theorem halt_bind (e : Halt) (f : α → Reply ρ β) : (halt e >>= f) = halt e := rfl

@[simp] theorem bind_eq_next (x : Reply ρ α) (f : α → Reply ρ β) (b : β) :
    (x >>= f) = next b ↔ ∃ a, x = next a ∧ f a = next b := by
  cases x <;> simp

/-! ## Steps -/

/-- A step that cannot answer. -/
def ofGo : Go α → Reply ρ α
  | .ok a => next a
  | .error e => halt e

/-- A checked assertion or a lookup, answered with `r` where it fails. -/
def ofOption (r : ρ) : Option α → Reply ρ α
  | some a => next a
  | none => respond r

/-- A call with an error result, answered with `r`. -/
def ofExcept (r : ρ) : Except ε α → Reply ρ α
  | .ok a => next a
  | .error _ => respond r

/-- A condition, answered with `r` where it does not hold. -/
def require (r : ρ) (c : Prop) [Decidable c] : Reply ρ Unit :=
  if c then next () else respond r

@[simp] theorem ofGo_eq_next (x : Go α) (a : α) :
    (ofGo x : Reply ρ α) = next a ↔ x = .ok a := by
  cases x <;> simp [ofGo]

@[simp] theorem ofOption_eq_next (r : ρ) (x : Option α) (a : α) :
    ofOption r x = next a ↔ x = some a := by
  cases x <;> simp [ofOption]

@[simp] theorem ofExcept_eq_next (r : ρ) (x : Except ε α) (a : α) :
    ofExcept r x = next a ↔ x = .ok a := by
  cases x <;> simp [ofExcept]

@[simp] theorem require_eq_next (r : ρ) (c : Prop) [Decidable c] (u : Unit) :
    require r c = next u ↔ c := by
  by_cases h : c <;> simp [require, h]

/-! ## How a handler ends -/

def Ends (x : Reply ρ α) (P : ρ → Prop) (Q : α → Prop) : Prop :=
  match x with
  | next a => Q a
  | respond r => P r
  | halt _ => False

variable {P : ρ → Prop} {Q : α → Prop}

@[simp] theorem ends_next (a : α) : Ends (next a) P Q ↔ Q a := Iff.rfl

@[simp] theorem ends_respond (r : ρ) : Ends (respond r) P Q ↔ P r := Iff.rfl

@[simp] theorem ends_halt (e : Halt) : ¬Ends (halt e) P Q := fun h => h

@[simp] theorem ends_bind (x : Reply ρ α) (f : α → Reply ρ β) (R : β → Prop) :
    Ends (x >>= f) P R ↔ Ends x P (fun a => Ends (f a) P R) := by
  cases x <;> simp

@[simp] theorem ends_ofGo (x : Go α) : Ends (ofGo x) P Q ↔ x.Returns Q := by
  cases x <;> simp [ofGo]

@[simp] theorem ends_ofOption (r : ρ) (x : Option α) :
    Ends (ofOption r x) P Q ↔ (x = none → P r) ∧ ∀ a, x = some a → Q a := by
  cases x <;> simp [ofOption]

@[simp] theorem ends_ofExcept (r : ρ) (x : Except ε α) :
    Ends (ofExcept r x) P Q ↔ (∀ e, x = .error e → P r) ∧ ∀ a, x = .ok a → Q a := by
  cases x <;> simp [ofExcept]

@[simp] theorem ends_require (r : ρ) (c : Prop) [Decidable c] {Q : Unit → Prop} :
    Ends (require r c) P Q ↔ (¬c → P r) ∧ (c → Q ()) := by
  by_cases h : c <;> simp [require, h]

theorem Ends.mono {x : Reply ρ α} {Q' : α → Prop} (h : Ends x P Q) (himp : ∀ a, Q a → Q' a) :
    Ends x P Q' := by
  cases x with
  | next a => exact himp a h
  | respond r => exact h
  | halt e => exact h

/-- How a step ends and what it goes on with can be asked for separately. -/
theorem ends_iff (x : Reply ρ α) :
    Ends x P Q ↔ Ends x P (fun _ => True) ∧ ∀ a, x = next a → Q a := by
  cases x <;> simp

theorem ends_unit_iff (x : Reply ρ Unit) {Q : Unit → Prop} :
    Ends x P Q ↔ Ends x P (fun _ => True) ∧ (x = next () → Q ()) := by
  rw [ends_iff, Unique.forall_iff]

/-! ## Early answers -/

/-- Whatever the step answers, it answers with `P`. -/
def Refuses (x : Reply ρ α) (P : ρ → Prop) : Prop := ∀ r, x = respond r → P r

@[simp] theorem refuses_next (a : α) : Refuses (next a) P := fun _ h => nomatch h

@[simp] theorem refuses_respond (r : ρ) : Refuses (respond r : Reply ρ α) P ↔ P r := by
  simp [Refuses]

@[simp] theorem refuses_halt (e : Halt) : Refuses (halt e : Reply ρ α) P := fun _ h => nomatch h

@[simp] theorem refuses_bind (x : Reply ρ α) (f : α → Reply ρ β) :
    Refuses (x >>= f) P ↔ Refuses x P ∧ ∀ a, x = next a → Refuses (f a) P := by
  cases x <;> simp

@[simp] theorem refuses_ofGo (x : Go α) : Refuses (ofGo x : Reply ρ α) P := by
  cases x <;> simp [ofGo]

@[simp] theorem refuses_ofOption (r : ρ) (x : Option α) :
    Refuses (ofOption r x) P ↔ (x = none → P r) := by
  cases x <;> simp [ofOption]

@[simp] theorem refuses_ofExcept (r : ρ) (x : Except ε α) :
    Refuses (ofExcept r x) P ↔ ∀ e, x = .error e → P r := by
  cases x <;> simp [ofExcept]

@[simp] theorem refuses_require (r : ρ) (c : Prop) [Decidable c] :
    Refuses (require r c) P ↔ (¬c → P r) := by
  by_cases h : c <;> simp [require, h]

end Reply

end ProverNetwork.Verified
