import Mathlib.Data.List.Basic

/-!
# JSON text in ASCII

A string is written between quotes, with short escapes for the quote, the
backslash and five control characters, and the UTF-16 units of every other
character that is not printable ASCII.

## Main results

* `quote_inj` — a string is determined by its literal, whatever follows.
-/

namespace ProverNetwork.Verified.JsonText

def hexDigit (d : Nat) : Char := "0123456789abcdef".toList.getD d '0'

/-- A UTF-16 unit. -/
def unit (n : Nat) : List Char :=
  ['\\', 'u', hexDigit (n / 4096 % 16), hexDigit (n / 256 % 16), hexDigit (n / 16 % 16),
    hexDigit (n % 16)]

/-- The letter of a short escape. -/
def shortEscape (c : Char) : Option Char :=
  if c = '"' then some '"'
  else if c = '\\' then some '\\'
  else if c.toNat = 10 then some 'n'
  else if c.toNat = 13 then some 'r'
  else if c.toNat = 9 then some 't'
  else if c.toNat = 12 then some 'f'
  else if c.toNat = 8 then some 'b'
  else none

def escape (c : Char) : List Char :=
  let n := c.toNat
  match shortEscape c with
  | some e => ['\\', e]
  | none =>
      if 32 ≤ n ∧ n ≤ 126 then [c]
      else if n < 0x10000 then unit n
      else unit (0xd800 + (n - 0x10000) / 1024) ++ unit (0xdc00 + (n - 0x10000) % 1024)

/-- A string literal. -/
def quote (s : String) : String :=
  String.ofList ('"' :: s.toList.flatMap escape ++ ['"'])

/-- An object, from the texts of its members. -/
def object (members : List (String × String)) : String :=
  "\x7b" ++ ", ".intercalate (members.map (fun m => quote m.1 ++ ": " ++ m.2)) ++ "\x7d"

example : object [("grpc_info", quote "a\"é𝄞"), ("timestamp", "7")] =
    "\x7b\"grpc_info\": \"a\\\"\\u00e9\\ud834\\udd1e\", \"timestamp\": 7\x7d" := by
  rfl

/-! ## Reading back -/

theorem hexDigit_inj : ∀ d < 16, ∀ e < 16, hexDigit d = hexDigit e → d = e := by decide

/-- A unit is determined by its text. -/
theorem unit_inj {m n : Nat} (hm : m < 0x10000) (hn : n < 0x10000) {x y : List Char}
    (h : unit m ++ x = unit n ++ y) : m = n ∧ x = y := by
  simp only [unit, List.cons_append, List.nil_append, List.cons.injEq, true_and] at h
  obtain ⟨h3, h2, h1, h0, hrest⟩ := h
  have e3 := hexDigit_inj _ (Nat.mod_lt _ (by decide)) _ (Nat.mod_lt _ (by decide)) h3
  have e2 := hexDigit_inj _ (Nat.mod_lt _ (by decide)) _ (Nat.mod_lt _ (by decide)) h2
  have e1 := hexDigit_inj _ (Nat.mod_lt _ (by decide)) _ (Nat.mod_lt _ (by decide)) h1
  have e0 := hexDigit_inj _ (Nat.mod_lt _ (by decide)) _ (Nat.mod_lt _ (by decide)) h0
  exact ⟨by omega, hrest⟩

/-- The character that a letter stands for. -/
def longOf (e : Char) : Char :=
  if e = 'n' then '\n' else if e = 'r' then '\r' else if e = 't' then '\t'
  else if e = 'f' then '\x0c' else if e = 'b' then '\x08' else e

theorem shortEscape_eq_some {c e : Char} (h : shortEscape c = some e) :
    c = longOf e ∧ e ≠ 'u' := by
  have hcode : ∀ d : Char, c.toNat = d.toNat → c = d := fun d => Char.toNat_inj.1
  unfold shortEscape at h
  split_ifs at h with h1 h2 h3 h4 h5 h6 h7 <;> cases h
  · exact ⟨h1, by decide⟩
  · exact ⟨h2, by decide⟩
  · exact ⟨hcode '\n' h3, by decide⟩
  · exact ⟨hcode '\r' h4, by decide⟩
  · exact ⟨hcode '\t' h5, by decide⟩
  · exact ⟨hcode '\x0c' h6, by decide⟩
  · exact ⟨hcode '\x08' h7, by decide⟩

/-- How a character is written. -/
inductive Written (c : Char) : List Char → Prop
  | short (e : Char) : shortEscape c = some e → Written c ['\\', e]
  | plain : c ≠ '"' → c ≠ '\\' → Written c [c]
  | one : c.toNat < 0x10000 → Written c (unit c.toNat)
  | two : 0x10000 ≤ c.toNat →
      Written c (unit (0xd800 + (c.toNat - 0x10000) / 1024) ++
        unit (0xdc00 + (c.toNat - 0x10000) % 1024))

theorem written (c : Char) : Written c (escape c) := by
  unfold escape
  dsimp only
  split
  next e hshort => exact .short e hshort
  next hshort =>
    split
    next =>
      refine .plain ?_ ?_
      · rintro rfl
        cases hshort
      · rintro rfl
        cases hshort
    next =>
      split
      next hlt => exact .one hlt
      next hge => exact .two (Nat.not_lt.1 hge)

theorem unit_append (n : Nat) (x : List Char) :
    unit n ++ x = '\\' :: 'u' :: hexDigit (n / 4096 % 16) :: hexDigit (n / 256 % 16) ::
      hexDigit (n / 16 % 16) :: hexDigit (n % 16) :: x := rfl

/-- A character is no UTF-16 surrogate, and Unicode ends below `0x110000`. -/
theorem toNat_cases (c : Char) : c.toNat < 0xd800 ∨ 0xdfff < c.toNat ∧ c.toNat < 0x110000 := by
  exact c.valid

/-- **A character is determined by its text**, whatever follows. -/
theorem Written.inj {c d : Char} {l m x y : List Char} (hc : Written c l) (hd : Written d m)
    (h : l ++ x = m ++ y) : c = d ∧ x = y := by
  have hcvalid := toNat_cases c
  have hdvalid := toNat_cases d
  cases hc with
  | short e he =>
      cases hd with
      | short e' he' =>
          simp only [List.cons_append, List.nil_append, List.cons.injEq, true_and] at h
          obtain ⟨rfl, rfl⟩ := h
          have hc := (shortEscape_eq_some he).1
          have hd := (shortEscape_eq_some he').1
          exact ⟨hc.trans hd.symm, rfl⟩
      | plain _ hne =>
          simp only [List.cons_append, List.cons.injEq] at h
          exact absurd h.1.symm hne
      | one _ =>
          simp only [List.cons_append, List.nil_append, unit_append, List.cons.injEq] at h
          exact absurd h.2.1 (shortEscape_eq_some he).2
      | two _ =>
          simp only [List.cons_append, List.nil_append, unit_append, List.cons.injEq] at h
          exact absurd h.2.1 (shortEscape_eq_some he).2
  | plain _ hne =>
      cases hd with
      | plain _ _ => simpa using h
      | _ =>
          simp only [List.cons_append, List.nil_append, unit_append, List.cons.injEq] at h
          exact absurd h.1 hne
  | one hlt =>
      cases hd with
      | short e' he' =>
          simp only [List.cons_append, List.nil_append, unit_append, List.cons.injEq] at h
          exact absurd h.2.1.symm (shortEscape_eq_some he').2
      | plain _ hne =>
          simp only [List.cons_append, List.nil_append, unit_append, List.cons.injEq] at h
          exact absurd h.1.symm hne
      | one hlt' =>
          obtain ⟨hcode, hrest⟩ := unit_inj hlt hlt' h
          exact ⟨Char.toNat_inj.1 hcode, hrest⟩
      | two hge =>
          rw [List.append_assoc] at h
          have hcode := (unit_inj hlt (by omega) h).1
          omega
  | two hge =>
      cases hd with
      | short e' he' =>
          simp only [List.cons_append, List.nil_append, unit_append, List.cons.injEq] at h
          exact absurd h.2.1.symm (shortEscape_eq_some he').2
      | plain _ hne =>
          simp only [List.cons_append, List.nil_append, unit_append, List.cons.injEq] at h
          exact absurd h.1.symm hne
      | one hlt =>
          rw [List.append_assoc] at h
          have hcode := (unit_inj (by omega) hlt h).1
          omega
      | two hge' =>
          rw [List.append_assoc, List.append_assoc] at h
          obtain ⟨hhigh, hrest⟩ := unit_inj (by omega) (by omega) h
          obtain ⟨hlow, hrest⟩ := unit_inj (by omega) (by omega) hrest
          exact ⟨Char.toNat_inj.1 (by omega), hrest⟩

/-- The text of a character does not begin with a quote. -/
theorem Written.head {c : Char} {l : List Char} (h : Written c l) :
    ∃ e rest, l = e :: rest ∧ e ≠ '"' := by
  cases h with
  | short e _ => exact ⟨'\\', [e], rfl, by decide⟩
  | plain hquote _ => exact ⟨c, [], rfl, hquote⟩
  | one _ => exact ⟨'\\', _, rfl, by decide⟩
  | two _ => exact ⟨'\\', _, rfl, by decide⟩

theorem flatMap_escape_inj {cs ds x y : List Char}
    (h : cs.flatMap escape ++ '"' :: x = ds.flatMap escape ++ '"' :: y) : cs = ds ∧ x = y := by
  induction cs generalizing ds with
  | nil =>
      cases ds with
      | nil => simpa using h
      | cons d ds =>
          obtain ⟨e, rest, hd, hquote⟩ := (written d).head
          rw [List.flatMap_cons, hd] at h
          cases h
          exact absurd rfl hquote
  | cons c cs ih =>
      cases ds with
      | nil =>
          obtain ⟨e, rest, hc, hquote⟩ := (written c).head
          rw [List.flatMap_cons, hc] at h
          cases h
          exact absurd rfl hquote
      | cons d ds =>
          simp only [List.flatMap_cons, List.append_assoc] at h
          obtain ⟨rfl, hrest⟩ := (written c).inj (written d) h
          obtain ⟨rfl, hxy⟩ := ih hrest
          exact ⟨rfl, hxy⟩

/-- **A string is determined by its literal**, whatever follows. -/
theorem quote_inj {s t : String} {x y : List Char}
    (h : (quote s).toList ++ x = (quote t).toList ++ y) : s = t ∧ x = y := by
  simp only [quote, String.toList_ofList, List.cons_append, List.append_assoc,
    List.nil_append, List.cons.injEq, true_and] at h
  obtain ⟨hchars, hxy⟩ := flatMap_escape_inj h
  exact ⟨String.toList_inj.1 hchars, hxy⟩

end ProverNetwork.Verified.JsonText
