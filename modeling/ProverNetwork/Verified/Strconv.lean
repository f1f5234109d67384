import Mathlib.Algebra.Group.Int.Defs
import Mathlib.Algebra.Group.Nat.Defs
import ProverNetwork.Verified.GoSlice

/-!
# Decimal numbers as Go's `strconv` reads them

`parseUint` scans from the left and stops at the first character that is no
digit or that carries the value past the bound.  `parseInt64` adds the sign
and keeps the clamped value that comes with a range error.

## Main results

* `parseInt64_of_parseUint` — what `ParseUint` accepts for a byte reads the same
  as a signed number.
* `parseUint_eq_ok_iff` — what `ParseUint` accepts.
-/

namespace ProverNetwork.Verified

inductive NumError
  | syntaxError
  | rangeError
  deriving DecidableEq, Repr

/-- The value of an ASCII digit. -/
def digitValue (c : Char) : Option Nat :=
  if 48 ≤ c.toNat ∧ c.toNat ≤ 57 then some (c.toNat - 48) else none

/-- The loop of `ParseUint` in base 10. -/
def parseDigits (maxVal : Nat) : Nat → List Char → Except NumError Nat
  | n, [] => .ok n
  | n, c :: cs =>
      match digitValue c with
      | none => .error .syntaxError
      | some d =>
          if maxVal < n * 10 + d then .error .rangeError
          else parseDigits maxVal (n * 10 + d) cs

/-- `ParseUint(s, 10, bits)` with `maxVal` the largest number of `bits` bits. -/
def parseUint (maxVal : Nat) (cs : List Char) : Except NumError Nat :=
  if cs.isEmpty then .error .syntaxError else parseDigits maxVal 0 cs

/-- The signed value and whether there was no error, from the unsigned one. -/
def signed (neg : Bool) (r : Except NumError Nat) : Int × Bool :=
  match r with
  | .error .syntaxError => (0, false)
  | .error .rangeError => if neg then (-2 ^ 63, false) else (2 ^ 63 - 1, false)
  | .ok n =>
      if neg then if 2 ^ 63 < n then (-2 ^ 63, false) else (-(n : Int), true)
      else if 2 ^ 63 ≤ n then (2 ^ 63 - 1, false) else ((n : Int), true)

/-- `ParseInt(s, 10, 64)`, and `Atoi` on a 64-bit machine. -/
def parseInt64 (s : String) : Int × Bool :=
  match s.toList with
  | '+' :: cs => signed false (parseUint (2 ^ 64 - 1) cs)
  | '-' :: cs => signed true (parseUint (2 ^ 64 - 1) cs)
  | cs => signed false (parseUint (2 ^ 64 - 1) cs)

/-- `byte(v)` of a signed number. -/
def toByte (v : Int) : UInt8 := UInt8.ofNat (v % 256).toNat

theorem parseDigits_mono {maxVal maxVal' : Nat} (h : maxVal ≤ maxVal') :
    ∀ (cs : List Char) (n m : Nat), parseDigits maxVal n cs = .ok m →
      parseDigits maxVal' n cs = .ok m := by
  intro cs
  induction cs with
  | nil => intro n m hm; exact hm
  | cons c cs ih =>
      intro n m hm
      unfold parseDigits at hm ⊢
      cases hd : digitValue c with
      | none => simp [hd] at hm
      | some d =>
          simp only [hd] at hm ⊢
          by_cases hbig : maxVal < n * 10 + d
          · rw [if_pos hbig] at hm
            exact absurd hm (by simp)
          · rw [if_neg hbig] at hm
            rw [if_neg (by omega)]
            exact ih _ _ hm

theorem parseDigits_le {maxVal : Nat} : ∀ (cs : List Char) (n m : Nat), n ≤ maxVal →
    parseDigits maxVal n cs = .ok m → m ≤ maxVal := by
  intro cs
  induction cs with
  | nil =>
      intro n m hn hm
      have heq : n = m := Except.ok.inj hm
      omega
  | cons c cs ih =>
      intro n m hn hm
      unfold parseDigits at hm
      cases hd : digitValue c with
      | none => simp [hd] at hm
      | some d =>
          simp only [hd] at hm
          by_cases hbig : maxVal < n * 10 + d
          · rw [if_pos hbig] at hm
            exact absurd hm (by simp)
          · rw [if_neg hbig] at hm
            exact ih _ _ (by omega) hm

/-- A string that `ParseUint` accepts for a byte is read as the same number by
`Atoi`. -/
theorem parseInt64_of_parseUint {s : String} {n : Nat}
    (h : parseUint 255 s.toList = .ok n) : parseInt64 s = ((n : Int), true) ∧ n ≤ 255 := by
  unfold parseUint at h
  cases hs : s.toList with
  | nil => simp [hs] at h
  | cons c cs =>
      simp only [hs, List.isEmpty_cons, Bool.false_eq_true, if_false] at h
      have hle : n ≤ 255 := parseDigits_le (c :: cs) 0 n (by omega) h
      -- the first character is a digit, so it is no sign
      have hdigit : 48 ≤ c.toNat ∧ c.toNat ≤ 57 := by
        by_contra hno
        simp [parseDigits, digitValue, hno] at h
      have hplus : c ≠ '+' := by
        rintro rfl
        exact absurd hdigit (by decide)
      have hminus : c ≠ '-' := by
        rintro rfl
        exact absurd hdigit (by decide)
      have hwide := parseDigits_mono (by decide : 255 ≤ 2 ^ 64 - 1) (c :: cs) 0 n h
      have hsmall : ¬(2 ^ 63 ≤ n) := by omega
      have hunsigned : parseInt64 s = signed false (parseUint (2 ^ 64 - 1) (c :: cs)) := by
        unfold parseInt64
        rw [hs]
        split
        case h_1 heq => exact absurd (List.cons.inj heq).1 hplus
        case h_2 heq => exact absurd (List.cons.inj heq).1 hminus
        case h_3 => rfl
      refine ⟨?_, hle⟩
      rw [hunsigned, parseUint, List.isEmpty_cons, if_neg Bool.false_ne_true, hwide]
      show (if 2 ^ 63 ≤ n then (2 ^ 63 - 1, false) else ((n : Int), true)) = ((n : Int), true)
      rw [if_neg hsmall]

/-! ## Decimal notation -/

/-- One or more decimal digits, of this value; the first ones may be zeros. -/
def Notates (s : String) (n : Nat) : Prop :=
  ∃ ds : List Nat, ds ≠ [] ∧ (∀ d ∈ ds, d < 10) ∧ s.toList = ds.map Nat.digitChar ∧
    ds.foldl (fun acc d => acc * 10 + d) 0 = n

theorem digitValue_eq_some_iff {c : Char} {d : Nat} :
    digitValue c = some d ↔ d < 10 ∧ c = Nat.digitChar d := by
  constructor
  · intro h
    unfold digitValue at h
    by_cases hc : 48 ≤ c.toNat ∧ c.toNat ≤ 57
    · rw [if_pos hc, Option.some.injEq] at h
      have hchar : ∀ n < 58, 48 ≤ n → Char.ofNat n = Nat.digitChar (n - 48) := by decide
      refine ⟨by omega, ?_⟩
      rw [← h, ← hchar c.toNat (by omega) hc.1, Char.ofNat_toNat]
    · rw [if_neg hc] at h
      cases h
  · rintro ⟨hd, rfl⟩
    have hvalue : ∀ d < 10, digitValue (Nat.digitChar d) = some d := by decide
    exact hvalue d hd

theorem le_foldl_digits (ds : List Nat) :
    ∀ acc, acc ≤ ds.foldl (fun acc d => acc * 10 + d) acc := by
  induction ds with
  | nil => exact fun acc => Nat.le_refl acc
  | cons d ds ih =>
      intro acc
      have hle := ih (acc * 10 + d)
      show acc ≤ ds.foldl (fun acc d => acc * 10 + d) (acc * 10 + d)
      omega

theorem parseDigits_eq_ok_iff {maxVal : Nat} (cs : List Char) :
    ∀ acc m, acc ≤ maxVal → (parseDigits maxVal acc cs = .ok m ↔
      ∃ ds : List Nat, (∀ d ∈ ds, d < 10) ∧ cs = ds.map Nat.digitChar ∧
        ds.foldl (fun acc d => acc * 10 + d) acc = m ∧ m ≤ maxVal) := by
  induction cs with
  | nil =>
      intro acc m hacc
      constructor
      · intro h
        have hm : acc = m := Except.ok.inj h
        exact ⟨[], by simp, rfl, hm, hm ▸ hacc⟩
      · rintro ⟨ds, -, hcs, hm, -⟩
        have hnil : ds = [] := List.map_eq_nil_iff.1 hcs.symm
        rw [hnil] at hm
        exact congrArg Except.ok hm
  | cons c cs ih =>
      intro acc m hacc
      constructor
      · intro h
        unfold parseDigits at h
        cases hd : digitValue c with
        | none => simp [hd] at h
        | some d =>
            simp only [hd] at h
            by_cases hbig : maxVal < acc * 10 + d
            · rw [if_pos hbig] at h
              cases h
            · rw [if_neg hbig] at h
              obtain ⟨ds, hds, hcs, hm, hle⟩ := (ih _ m (by omega)).1 h
              obtain ⟨hlt, hc⟩ := digitValue_eq_some_iff.1 hd
              refine ⟨d :: ds, ?_, by rw [List.map_cons, ← hc, ← hcs], hm, hle⟩
              exact List.forall_mem_cons.2 ⟨hlt, hds⟩
      · rintro ⟨ds, hds, hcs, hm, hle⟩
        cases ds with
        | nil => cases hcs
        | cons d ds =>
            obtain ⟨hc, hrest⟩ := List.cons.inj hcs
            obtain ⟨hlt, hds⟩ := List.forall_mem_cons.1 hds
            have hd := digitValue_eq_some_iff.2 ⟨hlt, hc⟩
            have hstart : acc * 10 + d ≤ m := hm ▸ le_foldl_digits ds (acc * 10 + d)
            unfold parseDigits
            simp only [hd]
            rw [if_neg (by omega)]
            exact (ih _ m (by omega)).2 ⟨ds, hds, hrest, hm, hle⟩

theorem foldl_digits_lt (ds : List Nat) (hds : ∀ d ∈ ds, d < 10) :
    ∀ acc, ds.foldl (fun acc d => acc * 10 + d) acc < (acc + 1) * 10 ^ ds.length := by
  induction ds with
  | nil => exact fun acc => by simp
  | cons d ds ih =>
      intro acc
      obtain ⟨hd, hds⟩ := List.forall_mem_cons.1 hds
      calc ds.foldl (fun acc d => acc * 10 + d) (acc * 10 + d)
          < (acc * 10 + d + 1) * 10 ^ ds.length := ih hds (acc * 10 + d)
        _ ≤ ((acc + 1) * 10) * 10 ^ ds.length := Nat.mul_le_mul_right _ (by omega)
        _ = (acc + 1) * 10 ^ (d :: ds).length := by
            rw [List.length_cons, Nat.pow_succ', Nat.mul_assoc]

theorem Notates.lt {s : String} {n : Nat} (h : Notates s n) : n < 10 ^ s.toList.length := by
  obtain ⟨ds, -, hds, hs, hn⟩ := h
  have hlt := foldl_digits_lt ds hds 0
  rw [hs, List.length_map, ← hn]
  rwa [Nat.zero_add, Nat.one_mul] at hlt

/-- A decimal number with or without a sign. -/
inductive SignedNotates : String → Int → Prop
  | unsigned {s : String} {n : Nat} (h : Notates s n) : SignedNotates s n
  | plus {s : String} {n : Nat} (h : Notates s n) : SignedNotates ("+" ++ s) n
  | minus {s : String} {n : Nat} (h : Notates s n) : SignedNotates ("-" ++ s) (-n)

/-- **What `ParseUint` accepts**: the notation of a number that is not too large. -/
theorem parseUint_eq_ok_iff {maxVal : Nat} (s : String) (n : Nat) :
    parseUint maxVal s.toList = .ok n ↔ Notates s n ∧ n ≤ maxVal := by
  unfold parseUint
  by_cases hempty : s.toList.isEmpty = true
  · rw [if_pos hempty]
    constructor
    · intro h
      cases h
    · rintro ⟨⟨ds, hne, -, hs, -⟩, -⟩
      rw [hs, List.isEmpty_iff, List.map_eq_nil_iff] at hempty
      exact absurd hempty hne
  · rw [if_neg hempty, parseDigits_eq_ok_iff s.toList 0 n (Nat.zero_le maxVal)]
    constructor
    · rintro ⟨ds, hds, hs, hn, hle⟩
      refine ⟨⟨ds, ?_, hds, hs, hn⟩, hle⟩
      rintro rfl
      exact hempty (List.isEmpty_iff.2 hs)
    · rintro ⟨⟨ds, -, hds, hs, hn⟩, hle⟩
      exact ⟨ds, hds, hs, hn, hle⟩

end ProverNetwork.Verified
