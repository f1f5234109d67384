import ProverNetwork.Verified.PyText

/-!
# The texts `int` reads

`int` reads white space, an optional sign, decimal digits of any script with single
underscores between them, and white space again.  The scanner of `PyText` is compared
here with that grammar.

## Main results

* `scanDigits_numeral` — the scanner takes a numeral whole.
* `int_eq_ok_iff` — what `int` accepts, and with which value.
-/

namespace ProverNetwork.Verified.PyText

/-- Decimal digits with single underscores between them, and the values of the
digits. -/
inductive Numeral : List Char → List Nat → Prop
  | last {c : Char} {d : Nat} : decimalValue? c = some d → Numeral [c] [d]
  | digit {c : Char} {d : Nat} {cs : List Char} {ds : List Nat} :
      decimalValue? c = some d → Numeral cs ds → Numeral (c :: cs) (d :: ds)
  | underscore {c : Char} {d : Nat} {cs : List Char} {ds : List Nat} :
      decimalValue? c = some d → Numeral cs ds → Numeral (c :: '_' :: cs) (d :: ds)

/-- The number the digits denote. -/
def value (ds : List Nat) : Nat := ds.foldl (fun acc d => acc * 10 + d) 0

/-- A text `int` reads as `n`. -/
def IntText (s : String) (n : Int) : Prop :=
  ∃ before sign digits after ds, s.toList = before ++ (sign ++ (digits ++ after)) ∧
    before.all isIntSpace = true ∧ after.all isIntSpace = true ∧ Numeral digits ds ∧
    ds.length ≤ 4300 ∧
    ((sign = [] ∨ sign = ['+']) ∧ n = value ds ∨ sign = ['-'] ∧ n = -(value ds : Int))

/-! ## Characters -/

/-- The code points of white space. -/
def spaceCodes : List Nat :=
  [9, 10, 11, 12, 13, 28, 29, 30, 31, 32, 0x85, 0xa0, 0x1680, 0x2000, 0x2001, 0x2002, 0x2003,
    0x2004, 0x2005, 0x2006, 0x2007, 0x2008, 0x2009, 0x200a, 0x2028, 0x2029, 0x202f, 0x205f,
    0x3000]

theorem mem_spaceCodes {c : Char} (h : isSpace c = true) : c.toNat ∈ spaceCodes := by
  simp only [isSpace, Bool.or_eq_true, Bool.and_eq_true, decide_eq_true_eq] at h
  simp only [spaceCodes, List.mem_cons, List.not_mem_nil]
  omega

theorem isSpace_of_isIntSpace {c : Char} (h : isIntSpace c = true) : isSpace c = true := by
  unfold isIntSpace at h
  split at h
  · rcases Bool.or_eq_true_iff.1 h with hrange | hblank
    · simp only [isSpace, Bool.or_eq_true, Bool.and_eq_true, decide_eq_true_eq] at hrange ⊢
      omega
    · rw [of_decide_eq_true hblank]
      decide
  · exact h

/-- White space is no digit. -/
theorem decimalValue?_of_isIntSpace {c : Char} (h : isIntSpace c = true) :
    decimalValue? c = none := by
  have hall : spaceCodes.all
      (fun n => (zeros.find? (fun z => z ≤ n && n < z + 10)).isNone) = true := by
    decide +kernel
  have hnone := List.all_eq_true.1 hall c.toNat (mem_spaceCodes (isSpace_of_isIntSpace h))
  rw [decimalValue?, Option.isNone_iff_eq_none.1 hnone]
  rfl

theorem ne_of_decimalValue? {c c' : Char} {d : Nat} (h : decimalValue? c = some d)
    (h' : decimalValue? c' = none) : c ≠ c' := by
  intro heq
  rw [heq, h'] at h
  cases h

theorem Numeral.exists_cons {cs : List Char} {ds : List Nat} (h : Numeral cs ds) :
    ∃ c d rest, cs = c :: rest ∧ decimalValue? c = some d := by
  induction h with
  | last hc => exact ⟨_, _, [], rfl, hc⟩
  | digit hc _ _ => exact ⟨_, _, _, rfl, hc⟩
  | underscore hc _ _ => exact ⟨_, _, _, rfl, hc⟩

/-! ## The scanner -/

/-- What the scanner takes is a numeral; after a digit it may take nothing, or an
underscore first. -/
theorem scanDigits_eq_some {afterDigit : Bool} {cs rest : List Char} {ds : List Nat}
    (h : scanDigits afterDigit cs = some (ds, rest)) :
    (∃ digits, cs = digits ++ rest ∧ Numeral digits ds) ∨
      (afterDigit = true ∧
        (ds = [] ∧ rest = cs ∨ ∃ digits, cs = '_' :: (digits ++ rest) ∧ Numeral digits ds)) := by
  induction cs generalizing afterDigit ds with
  | nil =>
      unfold scanDigits at h
      split at h
      next hafter =>
        simp only [Option.some.injEq, Prod.mk.injEq] at h
        exact Or.inr ⟨hafter, Or.inl ⟨h.1.symm, h.2.symm⟩⟩
      next => cases h
  | cons c cs ih =>
      unfold scanDigits at h
      split at h
      next hunder =>
        split at h
        next hafter =>
          rcases ih h with ⟨digits, hcs, hnumeral⟩ | ⟨hfalse, -⟩
          · exact Or.inr ⟨hafter, Or.inr ⟨digits, by rw [hunder, hcs], hnumeral⟩⟩
          · cases hfalse
        next => cases h
      next =>
        split at h
        next d hd =>
          obtain ⟨⟨ds', rest'⟩, hscan, hpair⟩ := Option.map_eq_some_iff.1 h
          simp only [Prod.mk.injEq] at hpair
          obtain ⟨rfl, rfl⟩ := hpair
          rcases ih hscan with ⟨digits, hcs, hnumeral⟩ | ⟨-, ⟨hds, hrest⟩ | ⟨digits, hcs, hnumeral⟩⟩
          · exact Or.inl ⟨c :: digits, by rw [hcs]; rfl, .digit hd hnumeral⟩
          · exact Or.inl ⟨[c], by rw [hrest]; rfl, hds ▸ .last hd⟩
          · exact Or.inl ⟨c :: '_' :: digits, by rw [hcs]; rfl, .underscore hd hnumeral⟩
        next =>
          split at h
          next hafter =>
            simp only [Option.some.injEq, Prod.mk.injEq] at h
            exact Or.inr ⟨hafter, Or.inl ⟨h.1.symm, h.2.symm⟩⟩
          next => cases h

theorem scanDigits_digit {c : Char} {d : Nat} (h : decimalValue? c = some d)
    (afterDigit : Bool) (cs : List Char) :
    scanDigits afterDigit (c :: cs) =
      (scanDigits true cs).map (fun (ds, rest) => (d :: ds, rest)) := by
  have hunder : c ≠ '_' := ne_of_decimalValue? h (by decide)
  rw [scanDigits, if_neg hunder, h]

/-- The scanner stops at white space. -/
theorem scanDigits_stop {rest : List Char} (h : rest.all isIntSpace = true) :
    scanDigits true rest = some ([], rest) := by
  cases rest with
  | nil => rfl
  | cons c rest =>
      have hc : isIntSpace c = true := List.all_eq_true.1 h c List.mem_cons_self
      have hunder : c ≠ '_' := by
        intro heq
        rw [heq] at hc
        exact absurd hc (by decide)
      rw [scanDigits, if_neg hunder, decimalValue?_of_isIntSpace hc]
      rfl

/-- **The scanner takes a numeral whole.** -/
theorem scanDigits_numeral {digits rest : List Char} {ds : List Nat} (h : Numeral digits ds)
    (hrest : rest.all isIntSpace = true) (afterDigit : Bool) :
    scanDigits afterDigit (digits ++ rest) = some (ds, rest) := by
  induction h generalizing afterDigit with
  | last hc =>
      rw [List.singleton_append, scanDigits_digit hc, scanDigits_stop hrest]
      rfl
  | digit hc _ ih =>
      rw [List.cons_append, scanDigits_digit hc, ih true]
      rfl
  | underscore hc _ ih =>
      rw [List.cons_append, scanDigits_digit hc, List.cons_append, scanDigits, if_pos rfl,
        if_pos rfl, ih false]
      rfl

/-! ## The sign -/

theorem takeSign_split (cs : List Char) :
    ∃ sign, cs = sign ++ (takeSign cs).2 ∧
      ((sign = [] ∨ sign = ['+']) ∧ (takeSign cs).1 = false ∨
        sign = ['-'] ∧ (takeSign cs).1 = true) := by
  unfold takeSign
  split
  next => exact ⟨['+'], rfl, Or.inl ⟨Or.inr rfl, rfl⟩⟩
  next => exact ⟨['-'], rfl, Or.inr ⟨rfl, rfl⟩⟩
  next => exact ⟨[], rfl, Or.inl ⟨Or.inl rfl, rfl⟩⟩

theorem takeSign_of_digit {c : Char} {d : Nat} (h : decimalValue? c = some d)
    (rest : List Char) : takeSign (c :: rest) = (false, c :: rest) := by
  have hplus : c ≠ '+' := ne_of_decimalValue? h (by decide)
  have hminus : c ≠ '-' := ne_of_decimalValue? h (by decide)
  unfold takeSign
  split
  next heq => exact absurd (List.cons.inj heq).1 hplus
  next heq => exact absurd (List.cons.inj heq).1 hminus
  next => rfl

theorem dropWhile_space {before cs : List Char} {c : Char}
    (hbefore : before.all isIntSpace = true) (hc : isIntSpace c = false) :
    (before ++ c :: cs).dropWhile isIntSpace = c :: cs := by
  rw [List.dropWhile_append_of_pos (fun x hx => List.all_eq_true.1 hbefore x hx)]
  exact List.dropWhile_cons_of_neg (by simp [hc])

theorem isIntSpace_of_digit {c : Char} {d : Nat} (h : decimalValue? c = some d) :
    isIntSpace c = false := by
  cases hspace : isIntSpace c with
  | false => rfl
  | true =>
      rw [decimalValue?_of_isIntSpace hspace] at h
      cases h

/-- What `int` accepts is a signed numeral in white space. -/
theorem intText_of_int {s : String} {n : Int} (h : int s = .ok n) : IntText s n := by
  obtain ⟨sign, hsign, hkind⟩ := takeSign_split (s.toList.dropWhile isIntSpace)
  have hwhole : s.toList =
      s.toList.takeWhile isIntSpace ++ (sign ++ (takeSign (s.toList.dropWhile isIntSpace)).2) := by
    rw [← hsign, List.takeWhile_append_dropWhile]
  unfold int at h
  dsimp only at h
  split at h
  next => cases h
  next ds after hscan =>
    split at h
    next => cases h
    next hlimit =>
      split at h
      next hafter =>
        rcases scanDigits_eq_some hscan with ⟨digits, hdigits, hnumeral⟩ | ⟨hfalse, -⟩
        · refine ⟨s.toList.takeWhile isIntSpace, sign, digits, after, ds,
            hdigits ▸ hwhole, List.all_takeWhile, hafter, hnumeral, Nat.le_of_not_lt hlimit, ?_⟩
          have hn := Except.ok.inj h
          rcases hkind with ⟨hplus, hneg⟩ | ⟨hminus, hneg⟩
          · rw [hneg] at hn
            exact Or.inl ⟨hplus, hn.symm⟩
          · rw [hneg] at hn
            exact Or.inr ⟨hminus, hn.symm⟩
        · cases hfalse
      next => cases h

theorem int_of_intText {s : String} {n : Int} (h : IntText s n) : int s = .ok n := by
  obtain ⟨before, sign, digits, after, ds, hwhole, hbefore, hafter, hnumeral, hlimit, hkind⟩ := h
  obtain ⟨c, d, rest, hdigits, hc⟩ := hnumeral.exists_cons
  have hscan := scanDigits_numeral hnumeral hafter false
  have hspace := isIntSpace_of_digit hc
  have hsigned : ∃ negative, takeSign (s.toList.dropWhile isIntSpace) =
      (negative, digits ++ after) ∧ n = if negative then -(value ds : Int) else value ds := by
    rcases hkind with ⟨hempty | hplus, hn⟩ | ⟨hminus, hn⟩
    · refine ⟨false, ?_, hn⟩
      rw [hwhole, hempty, hdigits]
      rw [List.nil_append, List.cons_append, dropWhile_space hbefore hspace]
      exact takeSign_of_digit hc (rest ++ after)
    · refine ⟨false, ?_, hn⟩
      rw [hwhole, hplus, List.singleton_append, dropWhile_space hbefore (by decide)]
      rfl
    · refine ⟨true, ?_, hn⟩
      rw [hwhole, hminus, List.singleton_append, dropWhile_space hbefore (by decide)]
      rfl
  obtain ⟨negative, htake, hn⟩ := hsigned
  unfold int
  rw [htake]
  dsimp only
  rw [hscan]
  dsimp only
  rw [if_neg (Nat.not_lt.2 hlimit), if_pos hafter, hn]
  rfl

/-- **What `int` accepts.** -/
theorem int_eq_ok_iff {s : String} {n : Int} : int s = .ok n ↔ IntText s n :=
  ⟨intText_of_int, int_of_intText⟩

end ProverNetwork.Verified.PyText
