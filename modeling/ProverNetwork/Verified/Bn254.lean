import Mathlib.Data.ZMod.Basic

/-!
# The scalar field of BN254

The field over which the circuits of both provers are built, as a residue
ring; nothing here needs the modulus to be prime.
-/

namespace ProverNetwork.Verified

/-- The order of the scalar field. -/
def bn254Prime : Nat :=
  21888242871839275222246405745257275088548364400416034343698204186575808495617

instance : NeZero bn254Prime := ⟨by decide⟩

abbrev Fr := ZMod bn254Prime

/-- Numbers below the modulus are told apart by the field. -/
theorem natCast_inj {a b : Nat} (ha : a < bn254Prime) (hb : b < bn254Prime)
    (h : (a : Fr) = (b : Fr)) : a = b := by
  have hmod := (ZMod.natCast_eq_natCast_iff' a b bn254Prime).1 h
  rwa [Nat.mod_eq_of_lt ha, Nat.mod_eq_of_lt hb] at hmod

end ProverNetwork.Verified
