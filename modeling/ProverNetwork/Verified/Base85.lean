import Mathlib.Algebra.Group.Nat.Defs
import ProverNetwork.Verified.LittleEndian

/-!
# Base 85

Four bytes are written as the five base-85 digits of the number they stand for,
most significant first.  A short last group is padded with zero bytes and gives
one character more than it has bytes.  `decode` reads the characters back,
padding a short last group with the highest digit, and refuses characters that
are no digits and groups that stand for `2 ^ 32` or more.

## Main results

* `decode_encode` — every byte string is read back.
-/

namespace ProverNetwork.Verified.Base85

def alphabet : List Char :=
  "0123456789ABCDEFGHIJKLMNOPQRSTUVWXYZabcdefghijklmnopqrstuvwxyz!#$%&()*+-;<=>?@^_`\x7b|\x7d~".toList

def digitChar (d : Nat) : Char := alphabet.getD d '~'

def digitValue (c : Char) : Option Nat := alphabet.idxOf? c

/-- Two digits. -/
def pair (x : Nat) : List Char := [digitChar (x / 85), digitChar (x % 85)]

/-- The five digits of a word. -/
def encodeWord (w : Nat) : List Char :=
  pair (w / 614125) ++ pair (w / 85 % 7225) ++ [digitChar (w % 85)]

/-- The last group, of fewer than four bytes. -/
def encodeTail (bs : List UInt8) : List Char :=
  (encodeWord (setBytes bs * 256 ^ (4 - bs.length))).take (bs.length + 1)

def encode : List UInt8 → List Char
  | b0 :: b1 :: b2 :: b3 :: rest => encodeWord (setBytes [b0, b1, b2, b3]) ++ encode rest
  | [] => []
  | b0 :: rest => encodeTail (b0 :: rest)

/-- The number that a group of digits stands for. -/
def decodeWord (cs : List Char) : Option Nat :=
  (cs.mapM digitValue).bind (fun ds =>
    let acc := ds.foldl (fun acc d => acc * 85 + d) 0
    if acc < 2 ^ 32 then some acc else none)

/-- The last group, of fewer than five characters. -/
def decodeTail (cs : List Char) : Option (List UInt8) :=
  (decodeWord (cs ++ List.replicate (5 - cs.length) '~')).map (fun acc =>
    (beBytes 4 acc).take (cs.length - 1))

/-- `none` stands for `ValueError`. -/
def decode : List Char → Option (List UInt8)
  | c0 :: c1 :: c2 :: c3 :: c4 :: rest =>
      (decodeWord [c0, c1, c2, c3, c4]).bind (fun acc =>
        (decode rest).map (fun bs => beBytes 4 acc ++ bs))
  | [] => some []
  | c0 :: rest => decodeTail (c0 :: rest)

/-! ## Digits -/

theorem digitValue_digitChar {d : Nat} (h : d < 85) : digitValue (digitChar d) = some d := by
  revert d
  decide +kernel

theorem mapM_digitValue {ds : List Nat} (h : ∀ d ∈ ds, d < 85) :
    (ds.map digitChar).mapM digitValue = some ds := by
  induction ds with
  | nil => rfl
  | cons d ds ih =>
      rw [List.map_cons, List.mapM_cons, digitValue_digitChar (h d List.mem_cons_self),
        ih (fun e he => h e (List.mem_cons_of_mem d he))]
      rfl

/-- The digits of a word, most significant first. -/
def digits (w : Nat) : List Nat :=
  [w / 614125 / 85, w / 614125 % 85, w / 85 % 7225 / 85, w / 85 % 7225 % 85, w % 85]

theorem encodeWord_eq (w : Nat) : encodeWord w = (digits w).map digitChar := rfl

theorem digits_lt {w : Nat} (h : w < 2 ^ 32) : ∀ d ∈ digits w, d < 85 := by
  simp only [digits, List.mem_cons, List.not_mem_nil, or_false]
  omega

/-- The number that a list of digits stands for, most significant first. -/
def value (ds : List Nat) : Nat := ds.foldl (fun acc d => acc * 85 + d) 0

theorem decodeWord_map {ds : List Nat} (h : ∀ d ∈ ds, d < 85) (hvalue : value ds < 2 ^ 32) :
    decodeWord (ds.map digitChar) = some (value ds) := by
  rw [decodeWord, mapM_digitValue h]
  exact if_pos hvalue

theorem value_digits (w : Nat) : value (digits w) = w := by
  simp only [value, digits, List.foldl_cons, List.foldl_nil]
  omega

theorem decodeWord_encodeWord {w : Nat} (h : w < 2 ^ 32) : decodeWord (encodeWord w) = some w := by
  have hvalue := value_digits w
  rw [encodeWord_eq, decodeWord_map (digits_lt h) (by omega), hvalue]

/-! ## Groups -/

theorem beBytes_setBytes {k : Nat} {bs : List UInt8} (h : bs.length = k) :
    beBytes k (setBytes bs) = bs := by
  have hlt := setBytes_lt bs
  refine setBytes_inj ((length_beBytes _ _).trans h.symm) ?_
  rw [beBytes, setBytes_reverse, ofLE_leBytes]
  rwa [h] at hlt

theorem drop_leBytes (p k n : Nat) : (leBytes (p + k) n).drop p = leBytes k (n / 256 ^ p) := by
  induction p generalizing n with
  | zero => simp
  | succ p ih =>
      rw [Nat.add_right_comm, leBytes, List.drop_succ_cons, ih, Nat.div_div_eq_div_mul, Nat.pow_succ,
        Nat.mul_comm 256]

/-- The first bytes are those of the number without its last bytes. -/
theorem take_beBytes {p k m : Nat} (h : p + k = m) (n : Nat) :
    (beBytes m n).take k = beBytes k (n / 256 ^ p) := by
  subst h
  rw [beBytes, List.take_reverse, length_leBytes, Nat.add_sub_cancel, drop_leBytes, beBytes]

/-- The first digits stand for the number without its last digits. -/
theorem value_take {n w : Nat} (hpos : 1 ≤ n) (hn : n ≤ 3) :
    value ((digits w).take (n + 1)) = w / 85 ^ (4 - n) := by
  have hdiv : w / 614125 = w / 85 / 7225 := by rw [Nat.div_div_eq_div_mul]
  have hdiv' : w / 7225 = w / 85 / 85 := by rw [Nat.div_div_eq_div_mul]
  obtain rfl | rfl | rfl : n = 1 ∨ n = 2 ∨ n = 3 := by omega
  · simp [value, digits]
    omega
  · simp [value, digits, hdiv, hdiv']
    omega
  · simp [value, digits, hdiv]
    omega

/-- The padding of a short group keeps its bytes: the number read back exceeds
the one written by less than the weight of the last byte. -/
theorem value_padded {n v : Nat} (hpos : 1 ≤ n) (hn : n ≤ 3) (hv : v < 256 ^ n) :
    value ((digits (v * 256 ^ (4 - n))).take (n + 1) ++ List.replicate (4 - n) 84) < 2 ^ 32 ∧
      value ((digits (v * 256 ^ (4 - n))).take (n + 1) ++ List.replicate (4 - n) 84) /
        256 ^ (4 - n) = v := by
  have htake := value_take (w := v * 256 ^ (4 - n)) hpos hn
  rw [value, List.foldl_append]
  change List.foldl _ (value _) _ < _ ∧ List.foldl _ (value _) _ / _ = _
  rw [htake]
  obtain rfl | rfl | rfl : n = 1 ∨ n = 2 ∨ n = 3 := by omega
  · simp only [List.replicate, List.foldl_cons, List.foldl_nil]
    omega
  · simp only [List.replicate, List.foldl_cons, List.foldl_nil]
    omega
  · simp only [List.replicate, List.foldl_cons, List.foldl_nil]
    omega

theorem decodeTail_encodeTail {bs : List UInt8} (hpos : 1 ≤ bs.length) (hlen : bs.length ≤ 3) :
    decodeTail (encodeTail bs) = some bs := by
  have hv := setBytes_lt bs
  obtain ⟨hlt, hdiv⟩ := value_padded hpos hlen hv
  have hword : setBytes bs * 256 ^ (4 - bs.length) < 2 ^ 32 := by
    calc setBytes bs * 256 ^ (4 - bs.length)
        < 256 ^ bs.length * 256 ^ (4 - bs.length) :=
          Nat.mul_lt_mul_of_pos_right hv (Nat.pow_pos (by decide))
      _ = 2 ^ 32 := by
          rw [← Nat.pow_add, Nat.add_sub_cancel' (by omega)]
          norm_num
  have hlength : (encodeTail bs).length = bs.length + 1 := by
    rw [encodeTail, List.length_take]
    exact Nat.min_eq_left (by simp [encodeWord, pair]; omega)
  have hchars : encodeTail bs ++ List.replicate (5 - (encodeTail bs).length) '~' =
      ((digits (setBytes bs * 256 ^ (4 - bs.length))).take (bs.length + 1) ++
        List.replicate (4 - bs.length) 84).map digitChar := by
    have hpad : 5 - (bs.length + 1) = 4 - bs.length := by omega
    rw [hlength, hpad, encodeTail, encodeWord_eq, List.map_append, List.map_take,
      List.map_replicate]
    rfl
  have hdigits : ∀ d ∈ (digits (setBytes bs * 256 ^ (4 - bs.length))).take (bs.length + 1) ++
      List.replicate (4 - bs.length) 84, d < 85 := by
    intro d hd
    rcases List.mem_append.1 hd with hd | hd
    · exact digits_lt hword d (List.mem_of_mem_take hd)
    · rw [List.eq_of_mem_replicate hd]
      decide
  rw [decodeTail, hchars, decodeWord_map hdigits hlt, Option.map_some, hlength,
    Nat.add_sub_cancel, take_beBytes (Nat.sub_add_cancel (by omega)), hdiv, beBytes_setBytes rfl]

/-- A group of five characters and one of four bytes. -/
theorem decode_encodeWord {w : Nat} (h : w < 2 ^ 32) (cs : List Char) :
    decode (encodeWord w ++ cs) = (decode cs).map (fun bs => beBytes 4 w ++ bs) := by
  change (decodeWord (encodeWord w)).bind _ = _
  rw [decodeWord_encodeWord h]
  rfl

/-- **Round trip.** -/
theorem decode_encode (bs : List UInt8) : decode (encode bs) = some bs := by
  induction bs using encode.induct with
  | case1 b0 b1 b2 b3 rest ih =>
      have hlt := setBytes_lt [b0, b1, b2, b3]
      have hgroup : beBytes 4 (setBytes [b0, b1, b2, b3]) = [b0, b1, b2, b3] :=
        beBytes_setBytes rfl
      rw [encode, decode_encodeWord (by simpa using hlt), ih, Option.map_some, hgroup]
      rfl
  | case2 => rfl
  | case3 b0 rest hshort =>
      -- A last group of four bytes would be a whole word.
      rcases rest with _ | ⟨b1, _ | ⟨b2, _ | ⟨b3, rest⟩⟩⟩
      · exact decodeTail_encodeTail (by simp) (by simp)
      · exact decodeTail_encodeTail (by simp) (by simp)
      · exact decodeTail_encodeTail (by simp) (by simp)
      · exact absurd rfl (hshort b1 b2 b3 rest)

end ProverNetwork.Verified.Base85
