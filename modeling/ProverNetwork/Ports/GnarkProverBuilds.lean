import Mathlib.Tactic.Linarith
import ProverNetwork.Ports.GnarkProver

/-!
# The Binance assignment in the two builds

The loop over the coin positions is written twice.  Both builds log a leverage
that does not parse; the CPU build then goes on to the next position, while the
GPU build stays on this one, with the number that `ParseInt` returned beside
its error.

The arithmetic is arbitrary, and so is the reading of the numbers in the data
file, except that the multiplier keeps the sign.

## Main results

* `addPosition_eq_of_parsed` — a position that parses is added alike.
* `builds_agree_iff` — which data files the builds agree on.
-/

namespace ProverNetwork.Ports.GnarkProver

open ProverNetwork.Verified

/-- The multiplier is positive, so a product has the sign of its factor. -/
def Float64.KeepsSign {R : Type} (ops : Float64 R) : Prop :=
  ∀ x, ops.pos (ops.mul x (ops.ofNat SatoshiMultiplier)) = ops.pos x

section Read

variable {N R : Type} (value : N → R)

def FuturesCoinPosition.read (v : FuturesCoinPosition N) : FuturesCoinPosition R :=
  ⟨v.Symbol, value v.NotionalValue, v.Leverage⟩

def FuturesCoinAsset.read (v : FuturesCoinAsset N) : FuturesCoinAsset R :=
  ⟨v.Symbol, value v.WalletBalance, value v.MarginBalance⟩

/-- The data file, with the value of each number. -/
def DataFile.read (data : DataFile N) : DataFile R where
  FuturesCoinPositions := data.FuturesCoinPositions.map (·.read value)
  FuturesCoinAssets := data.FuturesCoinAssets.map (·.read value)

end Read

/-- Every position of the asset has a leverage that parses. -/
def LeveragesParse {N : Type} (asset : String) (data : DataFile N) : Prop :=
  ∀ v ∈ data.FuturesCoinPositions, v.Symbol = assetCoinSymbol asset →
    (parseInt64 v.Leverage).2 = true

section Agree

variable {R : Type} {ops : Float64 R}

/-- Where the leverage parses, one turn of the loop is the same in both builds. -/
theorem addPosition_eq_of_parsed (hsign : ops.KeepsSign) {symbol : String}
    {v : FuturesCoinPosition R} (hparse : v.Symbol = symbol → (parseInt64 v.Leverage).2 = true)
    (s : PerpSums R) : addPosition ops .cpu symbol s v = addPosition ops .gpu symbol s v := by
  unfold addPosition
  by_cases hsymbol : v.Symbol = symbol
  · have hparsed := hparse hsymbol
    simp only [hsymbol, hparsed, hsign v.NotionalValue, ne_eq, not_true_eq_false, if_false,
      Bool.not_true, Bool.false_and, Bool.false_eq_true]
  · simp only [hsymbol, ne_eq, not_false_eq_true, if_true]

theorem foldl_addPosition_eq (hsign : ops.KeepsSign) {symbol : String}
    {positions : List (FuturesCoinPosition R)}
    (hparse : ∀ v ∈ positions, v.Symbol = symbol → (parseInt64 v.Leverage).2 = true)
    (s : PerpSums R) :
    positions.foldl (addPosition ops .cpu symbol) s =
      positions.foldl (addPosition ops .gpu symbol) s := by
  induction positions generalizing s with
  | nil => rfl
  | cons v rest ih =>
      rw [List.foldl_cons, List.foldl_cons,
        addPosition_eq_of_parsed hsign (hparse v List.mem_cons_self),
        ih (fun u hu => hparse u (List.mem_cons_of_mem v hu))]

theorem binanceAssignment_eq (hsign : ops.KeepsSign) {asset : String} {data : DataFile R}
    (hparse : LeveragesParse asset data) :
    binanceAssignment ops .cpu asset data = binanceAssignment ops .gpu asset data := by
  unfold binanceAssignment
  rw [foldl_addPosition_eq hsign hparse]

end Agree

/-! ## A position that does not parse shows -/

/-- Exact arithmetic on whole numbers. -/
def wholeOps : Float64 Int := ⟨fun n => n, (· + ·), (· * ·), fun v => 0 < v, id⟩

theorem wholeOps_keepsSign : wholeOps.KeepsSign := by
  intro x
  show decide (0 < x * 100000000) = decide (0 < x)
  exact decide_eq_decide.2 (by omega)

/-- The position counts in the build. -/
def counted (build : Build) (symbol : String) (v : FuturesCoinPosition Int) : Bool :=
  v.Symbol = symbol && ((parseInt64 v.Leverage).2 || build = .gpu)

/-- A position with notional value 1 adds the multiplier where it counts. -/
theorem addPosition_perpLong (build : Build) (symbol : String) (s : PerpSums Int)
    {v : FuturesCoinPosition Int} (hone : v.NotionalValue = 1) :
    (addPosition wholeOps build symbol s v).perpLong =
      s.perpLong + if counted build symbol v then 100000000 else 0 := by
  have hmul : wholeOps.mul v.NotionalValue (wholeOps.ofNat SatoshiMultiplier) = 100000000 := by
    rw [hone]
    rfl
  have hvalue : wholeOps.pos 100000000 = true := rfl
  have hnotional : wholeOps.pos v.NotionalValue = true := by
    rw [hone]
    rfl
  have hadd : wholeOps.add s.perpLong 100000000 = s.perpLong + 100000000 := rfl
  unfold addPosition counted
  by_cases hsymbol : v.Symbol = symbol
  · cases hparse : (parseInt64 v.Leverage).2 with
    | true => cases build <;> simp [hsymbol, hparse, hmul, hvalue, hnotional, hadd]
    | false => cases build <;> simp [hsymbol, hparse, hmul, hnotional, hadd]
  · simp [hsymbol]

theorem foldl_addPosition_perpLong (build : Build) (symbol : String) (s : PerpSums Int)
    {positions : List (FuturesCoinPosition Int)} (hone : ∀ v ∈ positions, v.NotionalValue = 1) :
    (positions.foldl (addPosition wholeOps build symbol) s).perpLong =
      s.perpLong + 100000000 * (positions.countP (counted build symbol) : Int) := by
  induction positions generalizing s with
  | nil => simp
  | cons v rest ih =>
      rw [List.foldl_cons, ih _ (fun u hu => hone u (List.mem_cons_of_mem v hu)),
        addPosition_perpLong build symbol s (hone v List.mem_cons_self), List.countP_cons]
      split <;> push_cast <;> ring

/-- Where both builds count equally many, all positions of the asset parse. -/
theorem parsed_of_countP_eq {symbol : String} {positions : List (FuturesCoinPosition Int)}
    (hcount : positions.countP (counted .cpu symbol) = positions.countP (counted .gpu symbol)) :
    ∀ v ∈ positions, v.Symbol = symbol → (parseInt64 v.Leverage).2 = true := by
  have himp : ∀ v, counted .cpu symbol v = true → counted .gpu symbol v = true := by
    intro v hv
    simp only [counted, Bool.and_eq_true] at hv ⊢
    exact ⟨hv.1, by simp⟩
  induction positions with
  | nil => simp
  | cons u rest ih =>
      have hle : rest.countP (counted .cpu symbol) ≤ rest.countP (counted .gpu symbol) :=
        List.countP_mono_left (fun v _ => himp v)
      rw [List.countP_cons, List.countP_cons] at hcount
      have hu : counted .gpu symbol u = true → counted .cpu symbol u = true := by
        intro hgpu
        by_contra hcpu
        rw [if_pos hgpu, if_neg hcpu] at hcount
        omega
      have hrest : rest.countP (counted .cpu symbol) = rest.countP (counted .gpu symbol) := by
        have hone := himp u
        split_ifs at hcount <;> simp_all
      intro v hv hsymbol
      rcases List.mem_cons.1 hv with rfl | hv
      · have hcpu := hu (by simp [counted, hsymbol])
        simpa [counted, hsymbol] using hcpu
      · exact ih hrest v hv hsymbol

theorem leveragesParse_read {N R : Type} {value : N → R} {asset : String} {data : DataFile N} :
    LeveragesParse asset (data.read value) ↔ LeveragesParse asset data := by
  unfold LeveragesParse
  exact List.forall_mem_map

/-- **The builds agree on a data file, whatever its numbers are and however they
are added and multiplied, if and only if the leverage of every position of the
asset parses.** -/
theorem builds_agree_iff {N : Type} (data : DataFile N) (asset : String) :
    (∀ (R : Type) (ops : Float64 R) (value : N → R), ops.KeepsSign →
      binanceAssignment ops .cpu asset (data.read value) =
        binanceAssignment ops .gpu asset (data.read value)) ↔
    LeveragesParse asset data := by
  constructor
  · intro hagree
    have heq := hagree Int wholeOps (fun _ => 1) wholeOps_keepsSign
    have hlong := Variable.bigInt.inj (congrArg ZbFrCircuit.DeltaPerpLong heq)
    have hone : ∀ v ∈ (data.read (fun _ => (1 : Int))).FuturesCoinPositions,
        v.NotionalValue = 1 := by
      intro v hv
      obtain ⟨u, -, rfl⟩ := List.mem_map.1 hv
      rfl
    have hsum := fun build =>
      foldl_addPosition_perpLong build (assetCoinSymbol asset) ⟨1, 0, 0⟩ hone
    have hcount := (hsum .cpu).symm.trans (Eq.trans hlong (hsum .gpu))
    have hparse : LeveragesParse asset (data.read (fun _ => (1 : Int))) :=
      parsed_of_countP_eq (by omega)
    exact leveragesParse_read.1 hparse
  · intro hparse R ops value hsign
    exact binanceAssignment_eq hsign (leveragesParse_read.2 hparse)

/-- A position of Bitcoin whose leverage is empty. -/
def emptyLeverage : DataFile Int := ⟨[⟨"BTCUSD_PERP", 1, ""⟩], []⟩

/-- **An empty leverage**: the GPU build adds up a position that the CPU build
leaves out. -/
theorem emptyLeverage_differs :
    (binanceAssignment wholeOps .cpu "BTC" emptyLeverage).DeltaPerpLong = .bigInt 0 ∧
      (binanceAssignment wholeOps .gpu "BTC" emptyLeverage).DeltaPerpLong = .bigInt 100000000 ∧
      binanceAssignment wholeOps .cpu "BTC" emptyLeverage ≠
        binanceAssignment wholeOps .gpu "BTC" emptyLeverage := by
  have hcpu : (binanceAssignment wholeOps .cpu "BTC" emptyLeverage).DeltaPerpLong =
      .bigInt 0 := by rfl
  have hgpu : (binanceAssignment wholeOps .gpu "BTC" emptyLeverage).DeltaPerpLong =
      .bigInt 100000000 := by rfl
  refine ⟨hcpu, hgpu, fun heq => ?_⟩
  have hlong := congrArg ZbFrCircuit.DeltaPerpLong heq
  rw [hcpu, hgpu] at hlong
  exact absurd (Variable.bigInt.inj hlong) (by decide)

end ProverNetwork.Ports.GnarkProver
