import ProverNetwork.Verified.JsonText

/-!
# Hexadecimal texts of byte strings

Two lower-case digits a byte; the decoder takes digits of both cases.

## Main results

* `decode_encode` — every byte string is read back.
-/

namespace ProverNetwork.Verified.Hex

open JsonText (hexDigit)

inductive DecodeError
  | invalidByte
  | oddLength
  deriving DecidableEq

/-- `hex.EncodeToString`. -/
def encode (bs : List UInt8) : List Char :=
  bs.flatMap (fun b => [hexDigit (b.toNat / 16), hexDigit (b.toNat % 16)])

def hexValue (c : Char) : Option Nat :=
  let n := c.toNat
  if 48 ≤ n ∧ n ≤ 57 then some (n - 48)
  else if 97 ≤ n ∧ n ≤ 102 then some (n - 87)
  else if 65 ≤ n ∧ n ≤ 70 then some (n - 55)
  else none

/-- `hex.DecodeString`. -/
def decode : List Char → Except DecodeError (List UInt8)
  | [] => .ok []
  | [c] => if (hexValue c).isNone then .error .invalidByte else .error .oddLength
  | a :: b :: rest =>
      match hexValue a, hexValue b with
      | some hi, some lo => (decode rest).map (UInt8.ofNat (hi * 16 + lo) :: ·)
      | _, _ => .error .invalidByte

theorem hexValue_hexDigit : ∀ d < 16, hexValue (hexDigit d) = some d := by decide

/-- **Every byte string is read back.** -/
theorem decode_encode (bs : List UInt8) : decode (encode bs) = .ok bs := by
  induction bs with
  | nil => rfl
  | cons b bs ih =>
      have hb : b.toNat < 256 := b.toNat_lt
      have hbyte : b.toNat / 16 * 16 + b.toNat % 16 = b.toNat := by omega
      show decode (hexDigit (b.toNat / 16) :: hexDigit (b.toNat % 16) :: encode bs) = _
      rw [decode, hexValue_hexDigit _ (by omega), hexValue_hexDigit _ (Nat.mod_lt _ (by decide)),
        ih]
      show Except.ok (UInt8.ofNat (b.toNat / 16 * 16 + b.toNat % 16) :: bs) = _
      rw [hbyte, UInt8.ofNat_toNat]

end ProverNetwork.Verified.Hex
