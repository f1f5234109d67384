import Mathlib.Data.List.Basic

/-!
# Text operations of Python

UTF-8, and `strip`, `rpartition` and `int` by the character tables of Unicode 14.
`int` takes white space around the number, a sign, decimal digits of any script
and single underscores between digits, and refuses more than 4300 digits.

## Main results

* `utf8?_utf8` — encoding and decoding.
* `partition_eq_some` — the first separator splits.
* `rpartition_eq_some` — the last separator splits.
* `stripWhile_eq_iff` — what is left between the two ends.
-/

namespace ProverNetwork.Verified.PyText

/-- `s.encode()`. -/
def utf8 (s : String) : List UInt8 := s.toUTF8.data.toList

/-- `bs.decode()`; `none` stands for `UnicodeDecodeError`. -/
def utf8? (bs : List UInt8) : Option String := String.fromUTF8? ⟨bs.toArray⟩

/-- `str.isspace` of a character. -/
def isSpace (c : Char) : Bool :=
  let n := c.toNat
  (9 ≤ n && n ≤ 13) || (28 ≤ n && n ≤ 32) || n = 0x85 || n = 0xa0 || n = 0x1680 ||
    (0x2000 ≤ n && n ≤ 0x200a) || n = 0x2028 || n = 0x2029 || n = 0x202f || n = 0x205f ||
    n = 0x3000

/-- Drop from both ends while `p` holds. -/
def stripWhile (p : Char → Bool) (cs : List Char) : List Char :=
  ((cs.dropWhile p).reverse.dropWhile p).reverse

/-- `s.strip()`. -/
def strip (s : String) : String := String.ofList (stripWhile isSpace s.toList)

/-- `s.rstrip(c)` for one character. -/
def rstrip (c : Char) (s : String) : String :=
  String.ofList (s.toList.reverse.dropWhile (· = c)).reverse

/-- `s.partition(sep)` for a separator of one character; `none` where there is
none. -/
def partition (sep : Char) (cs : List Char) : Option (List Char × List Char) :=
  match cs.dropWhile (· ≠ sep) with
  | [] => none
  | _ :: back => some (cs.takeWhile (· ≠ sep), back)

/-- `s.rpartition(sep)`, likewise. -/
def rpartition (sep : Char) (cs : List Char) : Option (List Char × List Char) :=
  (partition sep cs.reverse).map (fun (back, front) => (front.reverse, back.reverse))

/-! ## `int` -/

/-- The zero of each run of ten decimal digits. -/
def zeros : List Nat :=
  [0x30, 0x660, 0x6f0, 0x7c0, 0x966, 0x9e6, 0xa66, 0xae6, 0xb66, 0xbe6, 0xc66, 0xce6, 0xd66,
    0xde6, 0xe50, 0xed0, 0xf20, 0x1040, 0x1090, 0x17e0, 0x1810, 0x1946, 0x19d0, 0x1a80, 0x1a90,
    0x1b50, 0x1bb0, 0x1c40, 0x1c50, 0xa620, 0xa8d0, 0xa900, 0xa9d0, 0xa9f0, 0xaa50, 0xabf0,
    0xff10, 0x104a0, 0x10d30, 0x11066, 0x110f0, 0x11136, 0x111d0, 0x112f0, 0x11450, 0x114d0,
    0x11650, 0x116c0, 0x11730, 0x118e0, 0x11950, 0x11c50, 0x11d50, 0x11da0, 0x16a60, 0x16ac0,
    0x16b50, 0x1d7ce, 0x1d7d8, 0x1d7e2, 0x1d7ec, 0x1d7f6, 0x1e140, 0x1e2f0, 0x1e950, 0x1fbf0]

def decimalValue? (c : Char) : Option Nat :=
  (zeros.find? (fun z => z ≤ c.toNat && c.toNat < z + 10)).map (fun z => c.toNat - z)

/-- White space that `int` takes; of the ASCII characters, those of C. -/
def isIntSpace (c : Char) : Bool :=
  if c.toNat < 127 then (9 ≤ c.toNat && c.toNat ≤ 13) || c = ' ' else isSpace c

/-- The digits up to the first other character, and the rest; `none` where an
underscore is not between two digits. -/
def scanDigits (afterDigit : Bool) : List Char → Option (List Nat × List Char)
  | [] => if afterDigit then some ([], []) else none
  | c :: rest =>
      if c = '_' then if afterDigit then scanDigits false rest else none
      else
        match decimalValue? c with
        | some d => (scanDigits true rest).map (fun (ds, rest) => (d :: ds, rest))
        | none => if afterDigit then some ([], c :: rest) else none

inductive IntError
  | invalid
  | limit (digits : Nat)
  deriving DecidableEq

/-- The sign and what follows it. -/
def takeSign : List Char → Bool × List Char
  | '+' :: rest => (false, rest)
  | '-' :: rest => (true, rest)
  | cs => (false, cs)

/-- `int(s)`. -/
def int (s : String) : Except IntError Int :=
  let (negative, cs) := takeSign (s.toList.dropWhile isIntSpace)
  match scanDigits false cs with
  | none => .error .invalid
  | some (ds, rest) =>
      if 4300 < ds.length then .error (.limit ds.length)
      else if rest.all isIntSpace then
        let n : Nat := ds.foldl (fun acc d => acc * 10 + d) 0
        .ok (if negative then -(n : Int) else n)
      else .error .invalid

/-- The text of the exception; `repr` writes a string as a literal. -/
def IntError.text (repr : String → String) (s : String) : IntError → String
  | .invalid => "invalid literal for int() with base 10: " ++ repr s
  | .limit digits =>
      "Exceeds the limit (4300 digits) for integer string conversion: value has " ++
        toString digits ++ " digits; use sys.set_int_max_str_digits() to increase the limit"

example : int " 50_051 " = .ok 50051 := by decide

example : int "+٣" = .ok 3 := by decide

example : int "1__0" = .error .invalid := by decide

/-! ## UTF-8 -/

theorem utf8?_utf8 (s : String) : utf8? (utf8 s) = some s := by
  have h : s.toUTF8.IsValidUTF8 := s.isValidUTF8
  rw [utf8?, utf8, Array.toArray_toList]
  exact dif_pos h

/-! ## Separators -/

/-- **The first separator splits.** -/
theorem partition_eq_some {sep : Char} {cs front back : List Char}
    (h : partition sep cs = some (front, back)) :
    cs = front ++ sep :: back ∧ sep ∉ front := by
  unfold partition at h
  cases hdrop : cs.dropWhile (· ≠ sep) with
  | nil =>
      rw [hdrop] at h
      cases h
  | cons c rest =>
      rw [hdrop] at h
      cases h
      have hc : c = sep := by
        have hhead := List.head?_dropWhile_not (· ≠ sep) cs
        rw [hdrop] at hhead
        simpa using hhead
      subst hc
      refine ⟨?_, ?_⟩
      · rw [← hdrop, List.takeWhile_append_dropWhile]
      · intro hmem
        have hall := List.all_eq_true.1 List.all_takeWhile c hmem
        simp at hall

/-- **The last separator splits.** -/
theorem rpartition_eq_some {sep : Char} {cs front back : List Char}
    (h : rpartition sep cs = some (front, back)) :
    cs = front ++ sep :: back ∧ sep ∉ back := by
  obtain ⟨⟨last, first⟩, hpartition, hpair⟩ := Option.map_eq_some_iff.1 h
  cases hpair
  obtain ⟨hsplit, hmem⟩ := partition_eq_some hpartition
  refine ⟨?_, by simpa using hmem⟩
  have hrev := congrArg List.reverse hsplit
  rw [List.reverse_reverse] at hrev
  simp [hrev]

theorem partition_append {sep : Char} {front : List Char} (h : sep ∉ front)
    (back : List Char) : partition sep (front ++ sep :: back) = some (front, back) := by
  have hfront : ∀ c ∈ front, decide (c ≠ sep) = true := by
    intro c hc
    apply decide_eq_true
    intro heq
    exact h (heq ▸ hc)
  rw [partition, List.dropWhile_append_of_pos hfront, List.takeWhile_append_of_pos hfront]
  simp

theorem rpartition_append {sep : Char} {back : List Char} (h : sep ∉ back)
    (front : List Char) : rpartition sep (front ++ sep :: back) = some (front, back) := by
  have hrev : (front ++ sep :: back).reverse = back.reverse ++ sep :: front.reverse := by simp
  have hmem : sep ∉ back.reverse := by simpa using h
  rw [rpartition, hrev, partition_append hmem]
  simp

theorem partition_eq_none {sep : Char} {cs : List Char} :
    partition sep cs = none ↔ sep ∉ cs := by
  constructor
  · intro h hmem
    obtain ⟨front, back, rfl, hfront⟩ := List.eq_append_cons_of_mem hmem
    rw [partition_append hfront] at h
    cases h
  · intro h
    cases hsplit : partition sep cs with
    | none => rfl
    | some pair =>
        obtain ⟨heq, -⟩ := partition_eq_some hsplit
        exact absurd (heq ▸ List.mem_append_right _ List.mem_cons_self) h

/-! ## Trimming -/

/-- Neither end of the text is dropped. -/
def Trimmed (p : Char → Bool) (text : List Char) : Prop :=
  (∀ c, text.head? = some c → p c = false) ∧ ∀ c, text.getLast? = some c → p c = false

/-- What is dropped at the front. -/
def leading (p : Char → Bool) (cs : List Char) : List Char := cs.takeWhile p

/-- What is dropped at the back. -/
def trailing (p : Char → Bool) (cs : List Char) : List Char :=
  ((cs.dropWhile p).reverse.takeWhile p).reverse

theorem leading_strip_trailing (p : Char → Bool) (cs : List Char) :
    leading p cs ++ stripWhile p cs ++ trailing p cs = cs := by
  rw [List.append_assoc, leading, stripWhile, trailing, ← List.reverse_append,
    List.takeWhile_append_dropWhile, List.reverse_reverse, List.takeWhile_append_dropWhile]

/-- What is left of a text is of the text. -/
theorem mem_of_mem_strip {s : String} {ch : Char} (h : ch ∈ (strip s).toList) : ch ∈ s.toList := by
  rw [strip, String.toList_ofList] at h
  rw [← leading_strip_trailing isSpace s.toList]
  exact List.mem_append_left _ (List.mem_append_right _ h)

theorem leading_forall {p : Char → Bool} {cs : List Char} : ∀ c ∈ leading p cs, p c = true :=
  List.all_eq_true.1 List.all_takeWhile

theorem trailing_forall {p : Char → Bool} {cs : List Char} : ∀ c ∈ trailing p cs, p c = true := by
  intro c hc
  exact List.all_eq_true.1 List.all_takeWhile c (List.mem_reverse.1 hc)

theorem dropWhile_eq_self {p : Char → Bool} {cs : List Char}
    (h : ∀ c, cs.head? = some c → p c = false) : cs.dropWhile p = cs := by
  cases cs with
  | nil => rfl
  | cons c cs => exact List.dropWhile_cons_of_neg (by simp [h c rfl])

theorem head?_dropWhile {p : Char → Bool} {cs : List Char} {c : Char}
    (h : (cs.dropWhile p).head? = some c) : p c = false := by
  have hhead := List.head?_dropWhile_not p cs
  rw [h] at hhead
  simpa using hhead

/-- **What is left between the two ends.** -/
theorem stripWhile_eq_iff {p : Char → Bool} {cs text : List Char} :
    stripWhile p cs = text ↔
      ∃ before after, cs = before ++ text ++ after ∧ before.all p = true ∧
        after.all p = true ∧ Trimmed p text := by
  constructor
  · intro h
    have hback : cs.dropWhile p = text ++ trailing p cs := by
      rw [← h, stripWhile, trailing, ← List.reverse_append, List.takeWhile_append_dropWhile,
        List.reverse_reverse]
    refine ⟨leading p cs, trailing p cs, ?_, List.all_eq_true.2 leading_forall,
      List.all_eq_true.2 trailing_forall, ?_, ?_⟩
    · rw [← h, leading_strip_trailing]
    · intro c hc
      apply (head?_dropWhile : (cs.dropWhile p).head? = some c → p c = false)
      rw [hback, List.head?_append, hc]
      rfl
    · intro c hc
      apply (head?_dropWhile : ((cs.dropWhile p).reverse.dropWhile p).head? = some c → p c = false)
      rw [← h, stripWhile, List.getLast?_reverse] at hc
      exact hc
  · rintro ⟨before, after, rfl, hbefore, hafter, hhead, hlast⟩
    have hback : (text ++ after).reverse.dropWhile p = text.reverse := by
      rw [List.reverse_append, List.dropWhile_append_of_pos]
      · apply dropWhile_eq_self
        intro c hc
        rw [List.head?_reverse] at hc
        exact hlast c hc
      · intro c hc
        exact List.all_eq_true.1 hafter c (List.mem_reverse.1 hc)
    rw [stripWhile, List.append_assoc,
      List.dropWhile_append_of_pos (fun c hc => List.all_eq_true.1 hbefore c hc)]
    cases text with
    | nil =>
        have hnone : (after ++ []).dropWhile p = [] :=
          List.dropWhile_append_of_pos (fun c hc => List.all_eq_true.1 hafter c hc)
        rw [List.append_nil] at hnone
        rw [List.nil_append, hnone]
        rfl
    | cons c text =>
        have hc : (c :: text ++ after).dropWhile p = c :: text ++ after := by
          apply dropWhile_eq_self
          intro c' hc'
          exact hhead c' hc'
        rw [hc, hback, List.reverse_reverse]

end ProverNetwork.Verified.PyText
