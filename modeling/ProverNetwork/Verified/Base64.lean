import Mathlib.Algebra.Group.Nat.Defs
import Mathlib.Data.List.DropRight
import Mathlib.Data.Nat.Size
import ProverNetwork.Verified.LittleEndian

/-!
# Base 64 with the URL-safe alphabet

Three bytes are written as four six-bit digits, a short last group is filled up
with `=`.  The decoder takes one character at a time; it skips what is no digit
of either alphabet, and stops at the padding that completes a group.

## Main results

* `rstrip_encode` — stripping the padding leaves the digits.
* `decode_digits` — the digits are read back where at least the missing
  padding follows, whatever the length modulo three.
* `ofBytes_toBytes` — the fewest big-endian bytes of a number stand for it.
-/

namespace ProverNetwork.Verified.Base64

inductive DecodeError
  | notAscii
  | extraCharacter
  | incorrectPadding
  deriving DecidableEq

def alphabet : List Char :=
  "ABCDEFGHIJKLMNOPQRSTUVWXYZabcdefghijklmnopqrstuvwxyz0123456789-_".toList

def digitChar (d : Nat) : Char := alphabet.getD d '_'

/-- The digit of a character, in either alphabet. -/
def digitValue (c : Char) : Option Nat :=
  if c = '+' then some 62 else if c = '/' then some 63 else alphabet.idxOf? c

/-- The digits of a byte string, a short last group filled up with zero bits. -/
def digits : List UInt8 → List Char
  | b0 :: b1 :: b2 :: rest =>
      digitChar (b0.toNat / 4) :: digitChar (b0.toNat % 4 * 16 + b1.toNat / 16) ::
        digitChar (b1.toNat % 16 * 4 + b2.toNat / 64) :: digitChar (b2.toNat % 64) :: digits rest
  | [b0, b1] =>
      [digitChar (b0.toNat / 4), digitChar (b0.toNat % 4 * 16 + b1.toNat / 16),
        digitChar (b1.toNat % 16 * 4)]
  | [b0] => [digitChar (b0.toNat / 4), digitChar (b0.toNat % 4 * 16)]
  | [] => []

/-- `urlsafe_b64encode`. -/
def encode (bs : List UInt8) : List Char :=
  digits bs ++ List.replicate ((3 - bs.length % 3) % 3) '='

/-- `text.rstrip("=")`. -/
def rstrip (cs : List Char) : List Char := cs.rdropWhile (fun c => c = '=')

/-- The loop of `a2b_base64`: the number of digits of the group so far, the bits
of the last one that are still to be written, and the padding since. -/
def scan (quadPos leftchar pads : Nat) : List Char → Except DecodeError (List UInt8)
  | [] =>
      if quadPos = 0 then .ok []
      else if quadPos = 1 then .error .extraCharacter
      else .error .incorrectPadding
  | c :: cs =>
      if c = '=' then
        if 2 ≤ quadPos then
          if 4 ≤ quadPos + (pads + 1) then .ok [] else scan quadPos leftchar (pads + 1) cs
        else scan quadPos leftchar pads cs
      else
        match digitValue c with
        | none => scan quadPos leftchar pads cs
        | some d =>
            if quadPos = 0 then scan 1 d 0 cs
            else if quadPos = 1 then
              (scan 2 (d % 16) 0 cs).map (UInt8.ofNat (leftchar * 4 + d / 16) :: ·)
            else if quadPos = 2 then
              (scan 3 (d % 4) 0 cs).map (UInt8.ofNat (leftchar * 16 + d / 4) :: ·)
            else (scan 0 0 0 cs).map (UInt8.ofNat (leftchar * 64 + d) :: ·)

/-- `urlsafe_b64decode` of a `str`. -/
def decode (cs : List Char) : Except DecodeError (List UInt8) :=
  if cs.all (fun c => c.toNat < 128) then scan 0 0 0 cs else .error .notAscii

/-! ## Digits -/

theorem digit_cases : ∀ d < 64, digitValue (digitChar d) = some d ∧ digitChar d ≠ '=' ∧
    (digitChar d).toNat < 128 := by
  decide +kernel

/-- A digit in the scan. -/
theorem scan_digit (quadPos leftchar pads : Nat) {d : Nat} (hd : d < 64) (cs : List Char) :
    scan quadPos leftchar pads (digitChar d :: cs) =
      if quadPos = 0 then scan 1 d 0 cs
      else if quadPos = 1 then
        (scan 2 (d % 16) 0 cs).map (UInt8.ofNat (leftchar * 4 + d / 16) :: ·)
      else if quadPos = 2 then
        (scan 3 (d % 4) 0 cs).map (UInt8.ofNat (leftchar * 16 + d / 4) :: ·)
      else (scan 0 0 0 cs).map (UInt8.ofNat (leftchar * 64 + d) :: ·) := by
  obtain ⟨hvalue, hpad, -⟩ := digit_cases d hd
  rw [scan, if_neg hpad, hvalue]

theorem ofNat_toNat_of_eq {n : Nat} {b : UInt8} (h : n = b.toNat) : UInt8.ofNat n = b := by
  rw [h, UInt8.ofNat_toNat]

/-- A byte after its first digit. -/
theorem scan_first (leftchar pads : Nat) (b : UInt8) {v : Nat} (hv : v < 16) (cs : List Char) :
    scan 0 leftchar pads (digitChar (b.toNat / 4) :: digitChar (b.toNat % 4 * 16 + v) :: cs) =
      (scan 2 v 0 cs).map (b :: ·) := by
  have hb : b.toNat < 256 := b.toNat_lt
  have hbyte : b.toNat / 4 * 4 + (b.toNat % 4 * 16 + v) / 16 = b.toNat := by omega
  have hleft : (b.toNat % 4 * 16 + v) % 16 = v := by omega
  rw [scan_digit _ _ _ (by omega), if_pos rfl, scan_digit _ _ _ (by omega), if_neg (by decide),
    if_pos rfl, hleft, ofNat_toNat_of_eq hbyte]

theorem scan_second (b : UInt8) {v : Nat} (hv : v < 4) (cs : List Char) :
    scan 2 (b.toNat / 16) 0 (digitChar (b.toNat % 16 * 4 + v) :: cs) =
      (scan 3 v 0 cs).map (b :: ·) := by
  have hb : b.toNat < 256 := b.toNat_lt
  have hbyte : b.toNat / 16 * 16 + (b.toNat % 16 * 4 + v) / 4 = b.toNat := by omega
  have hleft : (b.toNat % 16 * 4 + v) % 4 = v := by omega
  rw [scan_digit _ _ _ (by omega), if_neg (by decide), if_neg (by decide), if_pos rfl, hleft,
    ofNat_toNat_of_eq hbyte]

theorem scan_third (b : UInt8) (cs : List Char) :
    scan 3 (b.toNat / 64) 0 (digitChar (b.toNat % 64) :: cs) = (scan 0 0 0 cs).map (b :: ·) := by
  have hb : b.toNat < 256 := b.toNat_lt
  have hbyte : b.toNat / 64 * 64 + b.toNat % 64 = b.toNat := by omega
  rw [scan_digit _ _ _ (by omega), if_neg (by decide), if_neg (by decide), if_neg (by decide),
    ofNat_toNat_of_eq hbyte]

/-- Between groups padding is skipped. -/
theorem scan_replicate_pad (leftchar pads k : Nat) :
    scan 0 leftchar pads (List.replicate k '=') = .ok [] := by
  induction k with
  | zero => rfl
  | succ k ih => exact ih

/-- **The digits are read back**, where two padding characters or more follow. -/
theorem scan_digits (bs : List UInt8) (k : Nat) :
    scan 0 0 0 (digits bs ++ List.replicate (k + 2) '=') = .ok bs := by
  induction bs using digits.induct with
  | case1 b0 b1 b2 rest ih =>
      have h1 : b1.toNat / 16 < 16 := by have := b1.toNat_lt; omega
      have h2 : b2.toNat / 64 < 4 := by have := b2.toNat_lt; omega
      simp only [digits, List.cons_append]
      rw [scan_first _ _ b0 h1, scan_second b1 h2, scan_third b2, ih]
      rfl
  | case2 b0 b1 =>
      have h1 : b1.toNat / 16 < 16 := by have := b1.toNat_lt; omega
      simp only [digits, List.cons_append]
      rw [scan_first _ _ b0 h1]
      exact congrArg (Except.map (b0 :: ·)) (scan_second b1 (Nat.zero_lt_succ 3) _)
  | case3 b0 => exact scan_first 0 0 b0 (Nat.zero_lt_succ 15) _
  | case4 => exact scan_replicate_pad 0 0 (k + 2)

theorem digits_forall {p : Char → Prop} (hp : ∀ d < 64, p (digitChar d)) (bs : List UInt8) :
    ∀ c ∈ digits bs, p c := by
  induction bs using digits.induct with
  | case1 b0 b1 b2 rest ih =>
      have h0 := b0.toNat_lt
      have h1 := b1.toNat_lt
      have h2 := b2.toNat_lt
      simp only [digits, List.forall_mem_cons]
      exact ⟨hp _ (by omega), hp _ (by omega), hp _ (by omega), hp _ (by omega), ih⟩
  | case2 b0 b1 =>
      have h0 := b0.toNat_lt
      have h1 := b1.toNat_lt
      simp only [digits, List.forall_mem_cons]
      exact ⟨hp _ (by omega), hp _ (by omega), hp _ (by omega), List.forall_mem_nil _⟩
  | case3 b0 =>
      have h0 := b0.toNat_lt
      simp only [digits, List.forall_mem_cons]
      exact ⟨hp _ (by omega), hp _ (by omega), List.forall_mem_nil _⟩
  | case4 => exact List.forall_mem_nil _

/-- **Stripping the padding leaves the digits.** -/
theorem rstrip_encode (bs : List UInt8) : rstrip (encode bs) = digits bs := by
  have hpads : ∀ k, rstrip (digits bs ++ List.replicate k '=') = rstrip (digits bs) := by
    intro k
    induction k with
    | zero => rw [List.replicate_zero, List.append_nil]
    | succ k ih =>
        rw [List.replicate_succ', ← List.append_assoc]
        exact (List.rdropWhile_concat_pos _ _ _ (by decide)).trans ih
  rw [encode, hpads, rstrip, List.rdropWhile_eq_self_iff]
  intro hne hpad
  have hdigit : ∀ c ∈ digits bs, c ≠ '=' := digits_forall (fun d hd => (digit_cases d hd).2.1) bs
  exact hdigit _ (List.getLast_mem hne) (by simpa using hpad)

/-- **Decoding stripped digits with two padding characters added.** -/
theorem decode_digits (bs : List UInt8) : decode (digits bs ++ ['=', '=']) = .ok bs := by
  have hdigits : ∀ c ∈ digits bs, c.toNat < 128 :=
    digits_forall (fun d hd => (digit_cases d hd).2.2) bs
  have hascii : (digits bs ++ ['=', '=']).all (fun c => c.toNat < 128) = true := by
    rw [List.all_append, Bool.and_eq_true, List.all_eq_true]
    exact ⟨fun c hc => decide_eq_true (hdigits c hc), by decide⟩
  rw [decode, if_pos hascii]
  exact scan_digits bs 0

/-! ## Numbers -/

/-- `num.to_bytes((num.bit_length() + 7) // 8, 'big')`. -/
def toBytes (num : Nat) : List UInt8 := beBytes ((num.size + 7) / 8) num

/-- `int.from_bytes(bs, byteorder='big')`. -/
def ofBytes (bs : List UInt8) : Nat := setBytes bs

/-- **The fewest bytes that hold a number stand for it.** -/
theorem ofBytes_toBytes (num : Nat) : ofBytes (toBytes num) = num := by
  have hpow : (256 : Nat) ^ ((num.size + 7) / 8) = 2 ^ (8 * ((num.size + 7) / 8)) := by
    rw [Nat.pow_mul]
  have hle : num.size ≤ 8 * ((num.size + 7) / 8) := by omega
  refine setBytes_beBytes ?_
  rw [hpow]
  exact Nat.lt_of_lt_of_le (Nat.lt_size_self num) (Nat.pow_le_pow_right (by decide) hle)

end ProverNetwork.Verified.Base64
