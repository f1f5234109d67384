import Mathlib.Algebra.Group.Int.Defs
import Mathlib.Algebra.Group.Nat.Defs
import ProverNetwork.Ports.ProjectManager
import ProverNetwork.Verified.Decimal

/-!
# Which ids name a project

A key of the project file is five digits.  An id names a project by its key, or
by the codes of the digits of the key, two digits each.  A pair that is not the
code of a digit is skipped, wherever it stands.

## Main results

* `spells_enc` — the encoding of a key spells it.
* `cleanId_eq_iff` — the pairs of an id spell what the loop over them collects.
* `getProject_enc` — a project is found by the codes of its digits.
* `getProjectById_spec` — the ids under which each project is found.
-/

namespace ProverNetwork.Ports.ProjectManager

open ProverNetwork.Verified

/-- An id, as the prove service passes it on. -/
inductive ProjectId
  | int (n : Int)
  | str (s : String)

/-- The decimal notation of an integer, or the text itself. -/
def ProjectId.text : ProjectId → String
  | int n => toString n
  | str s => s

/-- The digits that `str` writes of an integer. -/
def maxStrDigits : Nat := 4300

/-- `str(project_id)`; a longer integer raises. -/
def str : ProjectId → Except PyError String
  | .int n => if 10 ^ maxStrDigits ≤ n.natAbs then .error .valueError else .ok (toString n)
  | .str s => .ok s

/-- `get_project`. -/
def getProjectById (projects : PyVal) (project_id : ProjectId) : Except PyError PyVal := do
  getProject projects (← str project_id)

/-- An integer, or a text of digits. -/
def ProjectId.Digital : ProjectId → Prop
  | int _ => True
  | str s => ∀ c ∈ s.toList, c.isDigit = true

/-- A project file whose keys are five digits. -/
def FiveDigitKeys (members : List (String × PyVal)) : Prop :=
  ∀ key record, Dict.lookup key members = some record →
    key.length = 5 ∧ ∀ c ∈ key.toList, c.isDigit = true

/-! ## Codes -/

def digits : List Char := ['0', '1', '2', '3', '4', '5', '6', '7', '8', '9']

/-- The code of a character, in decimal. -/
def code (c : Char) : List Char := (Nat.repr c.toNat).toList

/-- The codes of the digits of a key. -/
def enc (key : String) : String := String.ofList (key.toList.flatMap code)

/-- The pairs of `cs` that are codes of digits spell `key`. -/
inductive Spells : List Char → List Char → Prop
  | nil : Spells [] []
  | code {c : Char} {key cs : List Char} : c ∈ digits → Spells key cs →
      Spells (c :: key) (code c ++ cs)
  | skip {a b : Char} {key cs : List Char} : [a, b] ∉ digits.map code → Spells key cs →
      Spells key (a :: b :: cs)

theorem mem_digits {c : Char} (hc : c.isDigit = true) : c ∈ digits := by
  have hrange := Bool.and_eq_true_iff.1 hc
  have hlow : 48 ≤ c.toNat := UInt32.le_iff_toNat_le.1 (of_decide_eq_true hrange.1)
  have hhigh : c.toNat ≤ 57 := UInt32.le_iff_toNat_le.1 (of_decide_eq_true hrange.2)
  have hall : ∀ n < 58, 48 ≤ n → Char.ofNat n ∈ digits := by decide
  rw [← Char.ofNat_toNat c]
  exact hall c.toNat (Nat.lt_succ_of_le hhigh) hlow

/-- The codes of the digits of a key spell it. -/
theorem spells_codes {key : List Char} (hkey : ∀ c ∈ key, c.isDigit = true) :
    Spells key (key.flatMap code) := by
  induction key with
  | nil => exact .nil
  | cons c cs ih =>
      rw [List.flatMap_cons]
      exact .code (mem_digits (hkey c List.mem_cons_self))
        (ih (fun d hd => hkey d (List.mem_cons_of_mem c hd)))

/-- **The encoding of a key spells it.** -/
theorem spells_enc {key : String} (hkey : ∀ c ∈ key.toList, c.isDigit = true) :
    Spells key.toList (enc key).toList := by
  rw [enc, String.toList_ofList]
  exact spells_codes hkey

theorem code_pair : ∀ c ∈ digits, ∃ a b, code c = [a, b] := by
  have hpairs : digits.all (fun c => (code c).length == 2) = true := by decide
  intro c hc
  obtain ⟨a, b, hab⟩ := List.length_eq_two.1 (eq_of_beq (List.all_eq_true.1 hpairs c hc))
  exact ⟨a, b, hab⟩

/-- A code is of digits itself. -/
theorem mem_digits_of_mem_code {c d : Char} (hc : c ∈ digits) (hd : d ∈ code c) :
    d ∈ digits := by
  have hall : digits.all (fun c => (code c).all (fun d => digits.contains d)) = true := by
    decide
  exact List.contains_iff_mem.1 (List.all_eq_true.1 (List.all_eq_true.1 hall c hc) d hd)

/-- What is spelled comes in pairs. -/
theorem Spells.even {key cs : List Char} (h : Spells key cs) : cs.length % 2 = 0 := by
  induction h with
  | nil => rfl
  | @code c key cs hc h ih =>
      obtain ⟨a, b, hab⟩ := code_pair c hc
      rw [hab, List.length_append, List.length_cons, List.length_cons, List.length_nil]
      omega
  | @skip a b key cs hab h ih =>
      rw [List.length_cons, List.length_cons]
      omega

/-! ## The loop over the pairs -/

/-- Digits, after a sign where there is one. -/
def Signed (cs : List Char) : Prop :=
  (∀ c ∈ cs.head?, c ∈ '-' :: digits) ∧ ∀ c ∈ cs.tail, c ∈ digits

theorem Signed.of_digits {cs : List Char} (h : ∀ c ∈ cs, c ∈ digits) : Signed cs :=
  ⟨fun c hc => List.mem_cons_of_mem _ (h c (List.mem_of_mem_head? hc)),
    fun c hc => h c (List.mem_of_mem_tail hc)⟩

theorem Signed.drop_pair {a b : Char} {cs : List Char} (h : Signed (a :: b :: cs)) :
    a ∈ '-' :: digits ∧ b ∈ digits ∧ Signed cs :=
  ⟨h.1 a rfl, h.2 b List.mem_cons_self,
    .of_digits (fun c hc => h.2 c (List.mem_cons_of_mem b hc))⟩

/-- The code of a digit is decoded. -/
theorem decodeChunk_code {c : Char} (hc : c ∈ digits) :
    (decodeChunk (String.ofList (code c))).toList = [c] := by
  have hall : digits.all (fun c =>
      (decodeChunk (String.ofList (code c))).toList == [c]) = true := by decide +kernel
  exact eq_of_beq (List.all_eq_true.1 hall c hc)

/-- Every other pair is skipped. -/
theorem decodeChunk_skip {a b : Char} (ha : a ∈ '-' :: digits) (hb : b ∈ digits)
    (hab : [a, b] ∉ digits.map code) : (decodeChunk (String.ofList [a, b])).toList = [] := by
  have hall : ('-' :: digits).all (fun a => digits.all (fun b =>
      (digits.map code).contains [a, b] ||
        (decodeChunk (String.ofList [a, b])).toList == [])) = true := by decide +kernel
  have hpair := List.all_eq_true.1 (List.all_eq_true.1 hall a ha) b hb
  rcases Bool.or_eq_true_iff.1 hpair with hcode | hskip
  · exact absurd (List.contains_iff_mem.1 hcode) hab
  · exact eq_of_beq hskip

theorem spells_cleanId {cs : List Char} (hcs : Signed cs) (heven : cs.length % 2 = 0) :
    Spells (cleanId cs).toList cs := by
  induction cs using cleanId.induct with
  | case1 a b rest ih =>
      obtain ⟨ha, hb, hrest⟩ := hcs.drop_pair
      have hspells := ih hrest (by
        rw [List.length_cons, List.length_cons] at heven
        omega)
      rw [cleanId, String.toList_append]
      by_cases hcode : [a, b] ∈ digits.map code
      · obtain ⟨c, hc, hab⟩ := List.mem_map.1 hcode
        rw [← hab, decodeChunk_code hc]
        show Spells (c :: (cleanId rest).toList) ([a, b] ++ rest)
        rw [← hab]
        exact .code hc hspells
      · rw [decodeChunk_skip ha hb hcode]
        exact .skip hcode hspells
  | case2 cs hshort =>
      cases cs with
      | nil => exact .nil
      | cons a cs =>
          cases cs with
          | nil => cases heven
          | cons b rest => exact absurd rfl (hshort a b rest)

theorem cleanId_of_spells {key cs : List Char} (h : Spells key cs) (hcs : Signed cs) :
    (cleanId cs).toList = key := by
  induction h with
  | nil => rfl
  | @code c key cs hc h ih =>
      obtain ⟨a, b, hab⟩ := code_pair c hc
      rw [hab] at hcs ⊢
      show (cleanId (a :: b :: cs)).toList = c :: key
      rw [cleanId, String.toList_append, ih hcs.drop_pair.2.2, ← hab, decodeChunk_code hc]
      rfl
  | @skip a b key cs hab h ih =>
      obtain ⟨ha, hb, hrest⟩ := hcs.drop_pair
      rw [cleanId, String.toList_append, ih hrest, decodeChunk_skip ha hb hab]
      rfl

/-- **The loop collects what the pairs spell.** -/
theorem cleanId_eq_iff {key : String} {cs : List Char} (hcs : Signed cs)
    (heven : cs.length % 2 = 0) : cleanId cs = key ↔ Spells key.toList cs := by
  constructor
  · rintro rfl
    exact spells_cleanId hcs heven
  · intro h
    exact String.toList_injective (cleanId_of_spells h hcs)

/-! ## The ids of a project -/

theorem signed_text {id : ProjectId} (hid : id.Digital) : Signed id.text.toList := by
  cases id with
  | str s => exact .of_digits (fun c hc => mem_digits (hid c hc))
  | int n =>
      have hnumeral : ∀ m : Nat, ∀ c ∈ (Nat.repr m).toList, c ∈ digits := by
        intro m c hc
        rw [Nat.toList_repr] at hc
        exact mem_digits (Nat.isDigit_of_mem_toDigits (by decide) (by decide) hc)
      rw [ProjectId.text, toList_toString]
      cases n with
      | ofNat m => exact .of_digits (hnumeral m)
      | negSucc m =>
          refine ⟨?_, hnumeral (m + 1)⟩
          rintro c ⟨⟩
          exact List.mem_cons_self

theorem text_eq {id : ProjectId} {s : String} (hstr : str id = .ok s) : id.text = s := by
  cases id with
  | str t => exact Except.ok.inj hstr
  | int n =>
      rw [str] at hstr
      by_cases hlong : 10 ^ maxStrDigits ≤ n.natAbs
      · rw [if_pos hlong] at hstr
        cases hstr
      · rw [if_neg hlong] at hstr
        exact Except.ok.inj hstr

/-- The id names a project by its key, or by pairs that spell the key. -/
def Names (s key : String) : Prop := s = key ∨ Spells key.toList s.toList

/-- A project is found by what names it. -/
theorem getProject_of_names {members : List (String × PyVal)} (hkeys : FiveDigitKeys members)
    {s key : String} (hsigned : Signed s.toList) {record : PyVal}
    (hkey : Dict.lookup key members = some record) (hnames : Names s key) :
    getProject (.dict members) s = .ok record := by
  unfold getProject
  rcases hnames with rfl | hspells
  · rw [if_pos (hkeys s record hkey).1, get, hkey]
    rfl
  · have heven : s.length % 2 = 0 := hspells.even
    have hfive : ¬s.length = 5 := by omega
    rw [if_neg hfive, if_neg (not_not.2 heven), get,
      (cleanId_eq_iff hsigned heven).2 hspells, hkey]
    rfl

/-- **Every project is found by the codes of its digits.** -/
theorem getProject_enc {members : List (String × PyVal)} (hkeys : FiveDigitKeys members)
    {key : String} {record : PyVal} (hkey : Dict.lookup key members = some record) :
    getProject (.dict members) (enc key) = .ok record := by
  have hdigits := (hkeys key record hkey).2
  refine getProject_of_names hkeys (.of_digits ?_) hkey (Or.inr (spells_enc hdigits))
  intro c hc
  rw [enc, String.toList_ofList] at hc
  obtain ⟨d, hd, hcode⟩ := List.mem_flatMap.1 hc
  exact mem_digits_of_mem_code (mem_digits (hdigits d hd)) hcode

/-- **Which ids name a project**, for the ids that have a text. -/
theorem getProjectById_spec {members : List (String × PyVal)} (hkeys : FiveDigitKeys members)
    {id : ProjectId} (hid : id.Digital) {s : String} (hstr : str id = .ok s) :
    (∀ key record, Dict.lookup key members = some record → Names s key →
      getProjectById (.dict members) id = .ok record) ∧
    ((∀ key record, Dict.lookup key members = some record → ¬Names s key) →
      getProjectById (.dict members) id = .ok anonymous) := by
  have hsigned : Signed s.toList := text_eq hstr ▸ signed_text hid
  have hget : getProjectById (.dict members) id = getProject (.dict members) s := by
    rw [getProjectById, hstr]
    rfl
  rw [hget]
  refine ⟨fun key record => getProject_of_names hkeys hsigned, ?_⟩
  intro hnone
  unfold getProject
  by_cases hfive : s.length = 5
  · rw [if_pos hfive, get]
    cases hkey : Dict.lookup s members with
    | none => rfl
    | some record => exact absurd (Or.inl rfl) (hnone s record hkey)
  · rw [if_neg hfive]
    by_cases heven : s.length % 2 = 0
    · rw [if_neg (not_not.2 heven), get]
      cases hkey : Dict.lookup (cleanId s.toList) members with
      | none => rfl
      | some record =>
          exact absurd (Or.inr (spells_cleanId hsigned heven)) (hnone _ record hkey)
    · rw [if_pos heven]

/-! ### Two ids of one project -/

def takoRecord : PyVal := .dict [("project_name", .str "Tako"), ("verifiers", .list [])]

/-- A project file with one project. -/
def oneProject : List (String × PyVal) := [("10007", takoRecord)]

theorem lookup_oneProject {key : String} {record : PyVal}
    (h : Dict.lookup key oneProject = some record) : key = "10007" ∧ record = takoRecord := by
  rw [oneProject, Dict.lookup] at h
  by_cases hkey : key = "10007"
  · rw [if_pos hkey, Option.some.injEq] at h
    exact ⟨hkey, h.symm⟩
  · rw [if_neg hkey] at h
    cases h

theorem oneProject_fiveDigitKeys : FiveDigitKeys oneProject := by
  intro key record h
  have hdigits : "10007".toList.all Char.isDigit = true := by decide
  rw [(lookup_oneProject h).1]
  exact ⟨by decide, List.all_eq_true.1 hdigits⟩

/-- The pair at the end is skipped. -/
theorem spells_skipped : Spells "10007".toList "494848485500".toList := by
  have hdigits : "494848485500".toList.all Char.isDigit = true := by decide
  have hsigned : Signed "494848485500".toList :=
    .of_digits (fun c hc => mem_digits (List.all_eq_true.1 hdigits c hc))
  have hclean : cleanId "494848485500".toList = "10007" := by decide +kernel
  exact (cleanId_eq_iff hsigned rfl).1 hclean

/-- The integer is found as the project. -/
theorem getProjectById_oneProject :
    getProjectById (.dict oneProject) (.int 494848485500) = .ok takoRecord := by
  have hshort : ¬10 ^ maxStrDigits ≤ (494848485500 : Int).natAbs := by decide +kernel
  have hstr : str (.int 494848485500) = .ok "494848485500" := by
    rw [str, if_neg hshort]
    rfl
  have hdigital : (ProjectId.int 494848485500).Digital := trivial
  exact (getProjectById_spec oneProject_fiveDigitKeys hdigital hstr).1 "10007" takoRecord rfl
    (Or.inr spells_skipped)

/-- What an id names is found, and nothing else, where an id is a key or its
encoding. -/
structure DecodesExactly (members : List (String × PyVal)) (id : ProjectId) : Prop where
  named : ∀ key record, Dict.lookup key members = some record →
    id.text = key ∨ id.text = enc key → getProjectById (.dict members) id = .ok record
  other : (∀ key record, Dict.lookup key members = some record →
    id.text ≠ key ∧ id.text ≠ enc key) → getProjectById (.dict members) id = .ok anonymous

theorem str_long {n : Int} (hn : 10 ^ maxStrDigits ≤ n.natAbs) :
    str (.int n) = .error .valueError := by
  rw [str, if_pos hn]

/-- **Ids are not decoded exactly**: an id with a pair too many is found, and an
integer that is too long raises. -/
theorem ids_not_exact : FiveDigitKeys oneProject ∧
    ¬DecodesExactly oneProject (.str "494848485500") ∧
    ¬DecodesExactly oneProject (.int (10 ^ maxStrDigits)) := by
  refine ⟨oneProject_fiveDigitKeys, fun hexact => ?_, fun hexact => ?_⟩
  · have hanonymous := hexact.other (by
      intro key record h
      rw [(lookup_oneProject h).1]
      exact ⟨by decide, by decide +kernel⟩)
    have hfound : cleanId "494848485500".toList = "10007" := by decide +kernel
    have hrecord : getProjectById (.dict oneProject) (.str "494848485500") = .ok takoRecord := by
      show get (.dict oneProject) (cleanId "494848485500".toList) = .ok takoRecord
      rw [hfound]
      rfl
    rw [hrecord] at hanonymous
    have hsame : takoRecord = anonymous := Except.ok.inj hanonymous
    simp [takoRecord, anonymous] at hsame
  · have hanonymous := hexact.other (by
      intro key record h
      rw [(lookup_oneProject h).1]
      have hkey : (10 ^ maxStrDigits : Int) ≠ 10007 := by decide +kernel
      have hcode : (10 ^ maxStrDigits : Int) ≠ 4948484855 := by decide +kernel
      have henc : enc "10007" = toString (4948484855 : Int) := by decide +kernel
      refine ⟨fun hsame => hkey ?_, fun hsame => hcode ?_⟩
      · exact toString_inj (congrArg String.toList hsame)
      · exact toString_inj (congrArg String.toList (hsame.trans henc)))
    have hpow : ∀ k, 10 ^ k ≤ (10 ^ k : Int).natAbs := fun k => (Int.natAbs_pow 10 k).ge
    rw [getProjectById, str_long (hpow maxStrDigits)] at hanonymous
    cases hanonymous

end ProverNetwork.Ports.ProjectManager
