import Soqucoin.Primitives

/-! # Retarget — the next proof-of-work target

`CalculateSoqucoinNextWorkRequired` of `soqucoin.cpp`.  A timespan is a signed 64-bit word, a
target an `arith_uint256`: multiplying one by a timespan takes the overload for `uint32_t`, so
only the low 32 bits of the timespan count, and dividing by zero throws. -/

namespace Soqucoin.Retarget

open SignedWord

/-- The parameters that retargeting reads. -/
structure PowParams where
  powLimit : Nat
  nPowTargetTimespan : Int
  fDigishieldDifficultyCalculation : Bool

variable (params : PowParams)

/-- The least and the greatest timespan that counts. -/
def timespanLimits (nHeight : Int) : Int × Int :=
  let retargetTimespan := params.nPowTargetTimespan
  if params.fDigishieldDifficultyCalculation then
    (wrap64 (retargetTimespan - retargetTimespan.tdiv 4),
      wrap64 (retargetTimespan + retargetTimespan.tdiv 2))
  else if nHeight > 10000 then (retargetTimespan.tdiv 4, wrap64 (retargetTimespan * 4))
  else if nHeight > 5000 then (retargetTimespan.tdiv 8, wrap64 (retargetTimespan * 4))
  else (retargetTimespan.tdiv 16, wrap64 (retargetTimespan * 4))

/-- The timespan that counts: damped, then within the limits. -/
def modulatedTimespan (nHeight nActualTimespan : Int) : Int :=
  let retargetTimespan := params.nPowTargetTimespan
  let nModulatedTimespan :=
    if params.fDigishieldDifficultyCalculation then
      wrap64 (retargetTimespan + (wrap64 (nActualTimespan - retargetTimespan)).tdiv 8)
    else nActualTimespan
  let limits := timespanLimits params nHeight
  if nModulatedTimespan < limits.1 then limits.1
  else if nModulatedTimespan > limits.2 then limits.2
  else nModulatedTimespan

/-- `operator*=(uint32_t)`, on the low bits of a timespan. -/
def mulTimespan (bn : Nat) (timespan : Int) : Nat := bn * (timespan % 2 ^ 32).toNat % 2 ^ 256

/-- `operator/=`; the divisor goes through `uint64_t`. -/
def divTimespan (bn : Nat) (timespan : Int) : Option Nat :=
  if timespan % 2 ^ 64 = 0 then none else some (bn / (timespan % 2 ^ 64).toNat)

/-- `CalculateSoqucoinNextWorkRequired`, from the decoded old target to the new one before it is
    encoded; the new block is at `nHeight`. -/
def nextTarget (nHeight : Int) (bnOld : Nat) (nLastBlockTime nFirstBlockTime : Int) : Option Nat :=
  let nModulatedTimespan := modulatedTimespan params nHeight (nLastBlockTime - nFirstBlockTime)
  (divTimespan (mulTimespan bnOld nModulatedTimespan) params.nPowTargetTimespan).map fun bnNew =>
    if bnNew > params.powLimit then params.powLimit else bnNew

/-! ## What the target can be -/

theorem wrap64_of_small {x : Int} (hlow : -2 ^ 63 ≤ x) (hhigh : x < 2 ^ 63) : wrap64 x = x :=
  wrap_of_fits ⟨by omega, by omega⟩

section

variable {params} (nHeight : Int) {a b : Int} (hpos : 0 < params.nPowTargetTimespan)
  (hsmall : params.nPowTargetTimespan < 2 ^ 32)
include hpos hsmall

/-- The limits are around the timespan. -/
theorem timespanLimits_around : 0 ≤ (timespanLimits params nHeight).1 ∧
    (timespanLimits params nHeight).1 ≤ params.nPowTargetTimespan ∧
    params.nPowTargetTimespan ≤ (timespanLimits params nHeight).2 := by
  have hquot : ∀ k : Int, 0 < k → 0 ≤ params.nPowTargetTimespan.tdiv k ∧
      params.nPowTargetTimespan.tdiv k ≤ params.nPowTargetTimespan := by
    intro k hk
    rw [Int.tdiv_eq_ediv_of_nonneg hpos.le]
    exact ⟨Int.ediv_nonneg hpos.le hk.le, Int.ediv_le_self _ hpos.le⟩
  have h2 := hquot 2 (by decide)
  have h4 := hquot 4 (by decide)
  have h8 := hquot 8 (by decide)
  have h16 := hquot 16 (by decide)
  have hfour := @wrap64_of_small (params.nPowTargetTimespan * 4) (by omega) (by omega)
  rw [timespanLimits, hfour, wrap64_of_small (by omega) (by omega),
    wrap64_of_small (by omega) (by omega)]
  split
  · dsimp only
    omega
  · split
    · dsimp only
      omega
    · split
      all_goals
        dsimp only
        omega

theorem modulatedTimespan_within (a : Int) :
    (timespanLimits params nHeight).1 ≤ modulatedTimespan params nHeight a ∧
      modulatedTimespan params nHeight a ≤ (timespanLimits params nHeight).2 := by
  have hlimits := timespanLimits_around nHeight hpos hsmall
  rw [modulatedTimespan]
  grind

/-- A longer timespan counts for no less. -/
theorem modulatedTimespan_mono (ha : -2 ^ 32 < a) (hb : b < 2 ^ 32) (hab : a ≤ b) :
    modulatedTimespan params nHeight a ≤ modulatedTimespan params nHeight b := by
  have hlimits := timespanLimits_around nHeight hpos hsmall
  have hdamped : ∀ x : Int, -2 ^ 32 < x → x < 2 ^ 32 →
      wrap64 (params.nPowTargetTimespan + (wrap64 (x - params.nPowTargetTimespan)).tdiv 8) =
        params.nPowTargetTimespan + (x - params.nPowTargetTimespan).tdiv 8 := by
    intro x hlow hhigh
    have hdiff := @wrap64_of_small (x - params.nPowTargetTimespan) (by omega) (by omega)
    rw [hdiff, wrap64_of_small (by grind) (by grind)]
  have hquot : (a - params.nPowTargetTimespan).tdiv 8 ≤ (b - params.nPowTargetTimespan).tdiv 8 :=
    Int.tdiv_le_tdiv (by decide) (by omega)
  rw [modulatedTimespan, modulatedTimespan, hdamped a ha (by omega), hdamped b (by omega) hb]
  grind

/-- The next target, without a word that is cut off. -/
theorem nextTarget_eq (last first : Int) {bnOld : Nat}
    (hmax : (timespanLimits params nHeight).2 < 2 ^ 32)
    (hroom : params.powLimit * (timespanLimits params nHeight).2 < 2 ^ 256)
    (hold : bnOld ≤ params.powLimit) :
    bnOld * modulatedTimespan params nHeight (last - first) < 2 ^ 256 ∧
      ∃ target : Nat, nextTarget params nHeight bnOld last first = some target ∧
        (target : Int) = min (params.powLimit : Int)
          (bnOld * modulatedTimespan params nHeight (last - first) /
            params.nPowTargetTimespan) := by
  obtain ⟨hlow, hhigh⟩ := modulatedTimespan_within nHeight hpos hsmall (last - first)
  have hlimits := timespanLimits_around nHeight hpos hsmall
  rw [nextTarget]
  generalize modulatedTimespan params nHeight (last - first) = m at hlow hhigh ⊢
  have hover : bnOld * m < 2 ^ 256 := by
    calc bnOld * m ≤ params.powLimit * (timespanLimits params nHeight).2 := by
          gcongr
          omega
      _ < 2 ^ 256 := hroom
  obtain ⟨k, rfl⟩ := Int.eq_ofNat_of_zero_le (a := m) (by omega)
  obtain ⟨span, hspan⟩ := Int.eq_ofNat_of_zero_le hpos.le
  -- neither the 32-bit factor nor the 256-bit product is cut
  have hmul : mulTimespan bnOld k = bnOld * k := by
    rw [mulTimespan, Int.emod_eq_of_lt (by omega) (by omega), Int.toNat_natCast, Nat.mod_eq_of_lt]
    exact_mod_cast hover
  rw [hmul, divTimespan, Int.emod_eq_of_lt (by omega) (by omega), if_neg (by omega), hspan,
    Int.toNat_natCast]
  refine ⟨hover, _, rfl, ?_⟩
  push_cast
  grind

end

/-- **Retargeting is exact.**  With a positive timespan whose upper limit fits in 32 bits and does
    not take the limit of the targets past 256 bits, the new target is computed without overflow,
    stays below that limit and within the ratios of the timespans, and grows with the time that
    the blocks took. -/
theorem retarget_exact (params : PowParams) (nHeight : Int) (bnOld : Nat)
    (hpos : 0 < params.nPowTargetTimespan) (hsmall : params.nPowTargetTimespan < 2 ^ 32)
    (hmax : (timespanLimits params nHeight).2 < 2 ^ 32)
    (hroom : params.powLimit * (timespanLimits params nHeight).2 < 2 ^ 256)
    (hold : 1 ≤ bnOld ∧ bnOld ≤ params.powLimit) (last first : UInt32) :
    bnOld * modulatedTimespan params nHeight (last.toNat - first.toNat) < 2 ^ 256 ∧
      ∃ target : Nat, nextTarget params nHeight bnOld last.toNat first.toNat = some target ∧
        target ≤ params.powLimit ∧
        bnOld * (timespanLimits params nHeight).1 / params.nPowTargetTimespan ≤ target ∧
        target ≤ bnOld * (timespanLimits params nHeight).2 / params.nPowTargetTimespan ∧
        ∀ last' first' : UInt32, (last.toNat - first.toNat : Int) ≤ last'.toNat - first'.toNat →
          ∃ target', nextTarget params nHeight bnOld last'.toNat first'.toNat = some target' ∧
            target ≤ target' := by
  obtain ⟨hover, target, heq, htarget⟩ := nextTarget_eq nHeight hpos hsmall last.toNat
    first.toNat hmax hroom hold.2
  obtain ⟨hlow, hhigh⟩ := modulatedTimespan_within nHeight hpos hsmall
    (last.toNat - first.toNat)
  have hratio : ∀ {x y : Int}, x ≤ y →
      bnOld * x / params.nPowTargetTimespan ≤ bnOld * y / params.nPowTargetTimespan := by
    intro x y hxy
    exact Int.ediv_le_ediv hpos (Int.mul_le_mul_of_nonneg_left hxy (Int.natCast_nonneg _))
  have hlimits := timespanLimits_around nHeight hpos hsmall
  -- the old target keeps the lower ratio below the limit, whatever the cap does
  have hcap : bnOld * (timespanLimits params nHeight).1 / params.nPowTargetTimespan ≤
      params.powLimit := by
    have hself := hratio hlimits.2.1
    rw [Int.mul_ediv_cancel _ hpos.ne'] at hself
    omega
  have hmin := hratio hlow
  have hmaxr := hratio hhigh
  refine ⟨hover, target, heq, by omega, by omega, by omega, fun last' first' hle => ?_⟩
  obtain ⟨-, target', heq', htarget'⟩ := nextTarget_eq nHeight hpos hsmall last'.toNat
    first'.toNat hmax hroom hold.2
  have hmono := hratio (modulatedTimespan_mono nHeight hpos hsmall
    (by have := first.toNat_lt; omega) (by have := last'.toNat_lt; omega) hle)
  exact ⟨target', heq', by omega⟩

/-- The limit of mainnet and its timespan of four hours, before Digishield. -/
def Sample.mainnet : PowParams := ⟨2 ^ 236 - 1, 14400, false⟩

open Retarget.Sample in
/-- A target of 2^200 after four hours. -/
theorem retarget_exact_mainnet : (timespanLimits mainnet 20000).2 = 57600 ∧
    ∃ target : Nat, nextTarget mainnet 20000 (2 ^ 200) 1700014400 1700000000 = some target ∧
      target ≤ 2 ^ 236 - 1 := by
  refine ⟨by decide +kernel, ?_⟩
  obtain ⟨-, target, heq, hle, -⟩ := retarget_exact mainnet 20000 (2 ^ 200) (by decide) (by decide)
    (by decide +kernel) (by decide +kernel) (by decide +kernel) 1700014400 1700000000
  exact ⟨target, heq, hle⟩

/-- A timespan above 32 bits is cut off before it scales the target, which falls below three
    quarters of the old one; a timespan of zero is divided by. -/
theorem long_timespan_cut_off :
    let long : PowParams := ⟨2 ^ 220, 2 ^ 33, true⟩
    long.powLimit * (timespanLimits long 20000).2 < 2 ^ 256 ∧
      nextTarget long 20000 (2 ^ 220) 0 0 = some (3 * 2 ^ 217) ∧
      (2 ^ 220 : Int) * (timespanLimits long 20000).1 / 2 ^ 33 = 3 * 2 ^ 218 ∧
      nextTarget ⟨2 ^ 220, 0, true⟩ 20000 (2 ^ 220) 0 0 = none := by
  decide +kernel

end Soqucoin.Retarget
