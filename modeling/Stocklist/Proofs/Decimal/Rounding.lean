/-
  Stocklist/Proofs/Decimal/Rounding.lean
  ======================================
  **A decimal is rounded as the quotient that it is.**

  The exponents that `Decimal.round` settles without powers of ten make no exception
  (`round_eq_ofRatio`).  So a decimal is rounded by its value alone (`round_congr`), to a
  magnitude at most half the width of the grid away (`two_mul_abs_sub_units_le`), and to any
  magnitude that is nearer than that (`round_of_near`).
-/
import Mathlib.Tactic
import Stocklist.Decimal.Basic
import Stocklist.Proofs.Binary64.Rounding

namespace Stocklist

open Magnitude

namespace Decimal

variable {d e : Decimal} {m : Magnitude}

/-! ### The value of a decimal -/

/-- The value of a decimal in units. -/
def units (d : Decimal) : ℚ :=
  d.coefficient * 10 ^ d.exponent * unitsOfOne

theorem ten_zpow_mul_pow (e : ℤ) : (10 : ℚ) ^ e * 10 ^ (-e).toNat = 10 ^ e.toNat := by
  rw [← zpow_natCast, ← zpow_natCast, ← zpow_add₀ (by norm_num)]
  congr 1
  omega

theorem units_eq_unitsOfRatio (d : Decimal) :
    d.units = unitsOfRatio (d.coefficient * 10 ^ d.exponent.toNat) (10 ^ (-d.exponent).toNat) := by
  have hpos : (0 : ℚ) < 10 ^ (-d.exponent).toNat := by positivity
  have hpow := ten_zpow_mul_pow d.exponent
  rw [units, unitsOfRatio]
  push_cast
  rw [← hpow, ← mul_assoc, mul_div_assoc, div_self hpos.ne', mul_one]

theorem units_nonneg (d : Decimal) : 0 ≤ d.units := by
  rw [units_eq_unitsOfRatio]
  exact unitsOfRatio_nonneg _ _

/-! ### Rounding

Decimals with an extreme exponent are rounded without the powers of ten.  The outcome is the
same as with them. -/

theorem two_pow_le_ten_pow_mul : 2 ^ (53 + greatestScale) ≤ 10 ^ 309 * unitsOfOne := by
  rw [greatestScale]
  decide +kernel

theorem four_mul_unitsOfOne_lt : 4 * unitsOfOne < 10 ^ 401 := by
  decide +kernel

theorem le_units_of_large (hc : d.coefficient ≠ 0) (h : 308 < d.exponent) :
    2 ^ (53 + greatestScale) ≤ d.units := by
  have hone : (1 : ℚ) ≤ d.coefficient := by exact_mod_cast Nat.one_le_iff_ne_zero.mpr hc
  have hpow : (10 : ℚ) ^ 309 ≤ 10 ^ d.exponent := by
    rw [← zpow_natCast]
    exact zpow_le_zpow_right₀ (by norm_num) h
  have hgreat : (2 : ℚ) ^ (53 + greatestScale) ≤ 10 ^ 309 * unitsOfOne := by
    exact_mod_cast two_pow_le_ten_pow_mul
  calc (2 : ℚ) ^ (53 + greatestScale) ≤ 10 ^ 309 * unitsOfOne := hgreat
    _ ≤ 10 ^ d.exponent * unitsOfOne := by gcongr
    _ ≤ d.coefficient * 10 ^ d.exponent * unitsOfOne := by
      gcongr
      exact le_mul_of_one_le_left (by positivity) hone

theorem two_mul_units_lt_one (h : d.exponent + d.coefficient.log2 < -400) : 2 * d.units < 1 := by
  generalize hl : d.coefficient.log2 = l at h
  have hcoefficient : (d.coefficient : ℚ) ≤ 2 * 2 ^ l := by
    have hlt : d.coefficient < 2 ^ (l + 1) := hl ▸ Nat.lt_log2_self
    rw [pow_succ'] at hlt
    exact_mod_cast hlt.le
  have hpow : (10 : ℚ) ^ d.exponent ≤ (10 ^ 401 * 10 ^ l)⁻¹ := by
    rw [← pow_add, ← zpow_natCast, ← zpow_neg]
    exact zpow_le_zpow_right₀ (by norm_num) (by push_cast; omega)
  have hsmall : ((4 * unitsOfOne : ℕ) : ℚ) < (10 ^ 401 : ℕ) :=
    Nat.cast_lt.mpr four_mul_unitsOfOne_lt
  rw [Nat.cast_mul, Nat.cast_pow, Nat.cast_ofNat, Nat.cast_ofNat] at hsmall
  have hbase : (2 : ℚ) ^ l ≤ 10 ^ l := pow_le_pow_left₀ (by norm_num) (by norm_num) l
  have hpos : (0 : ℚ) < 10 ^ 401 := by positivity
  generalize (10 : ℚ) ^ 401 = p at hpow hsmall hpos
  calc 2 * d.units ≤ 2 * (2 * 2 ^ l * (p * 10 ^ l)⁻¹ * unitsOfOne) := by
        rw [units]
        gcongr
    _ = 4 * unitsOfOne * 2 ^ l / (p * 10 ^ l) := by ring
    _ < 1 := by
      rw [div_lt_one (by positivity)]
      exact mul_lt_mul hsmall hbase (by positivity) (by positivity)

theorem gridOf_eq_zero {x : ℚ} (h : x < 1) : gridOf x = 0 := by
  apply Nat.le_zero.mp
  apply gridOf_le
  norm_num
  linarith

theorem round_eq_ofRatio (d : Decimal) :
    d.round = ofRatio (d.coefficient * 10 ^ d.exponent.toNat) (10 ^ (-d.exponent).toNat) := by
  have hden : 0 < 10 ^ (-d.exponent).toNat := by positivity
  rw [round]
  split_ifs with hzero hlarge hsmall
  · symm
    apply ofRatio_of_near hden
    rw [← units_eq_unitsOfRatio, units, hzero]
    simp [Magnitude.zero, Magnitude.units]
  · symm
    rw [Option.eq_none_iff_forall_ne_some]
    intro m hm
    have hlt := units_lt_of_ofRatio hm
    rw [← units_eq_unitsOfRatio] at hlt
    exact absurd (le_units_of_large hzero (by omega)) (not_le.mpr hlt)
  · symm
    have hlt := two_mul_units_lt_one hsmall
    have hnonneg := units_nonneg d
    apply ofRatio_of_near hden
    rw [← units_eq_unitsOfRatio, gridOf_eq_zero (by linarith)]
    simpa [Magnitude.zero, Magnitude.units, abs_of_nonneg hnonneg] using hlt
  · rfl

theorem round_of_near (h : 2 * |d.units - m.units| < 2 ^ gridOf d.units) : d.round = some m := by
  rw [round_eq_ofRatio]
  apply ofRatio_of_near (by positivity)
  rwa [← units_eq_unitsOfRatio]

/-- Two and a half is a magnitude. -/
example : (⟨25, -1⟩ : Decimal).round.map Magnitude.units = some (5 * 2 ^ 1073) := by
  decide +kernel

theorem two_mul_abs_sub_units_le (h : d.round = some m) :
    2 * |d.units - m.units| ≤ 2 ^ gridOf d.units := by
  rw [round_eq_ofRatio] at h
  rw [units_eq_unitsOfRatio]
  exact Magnitude.two_mul_abs_sub_units_le (by positivity) h

theorem gridOf_units_le_scale (h : d.round = some m) : gridOf d.units ≤ m.scale := by
  rw [round_eq_ofRatio] at h
  rw [units_eq_unitsOfRatio]
  exact gridOf_le_scale h

/-- Decimals of one value are rounded alike. -/
theorem round_congr (h : d.units = e.units) : d.round = e.round := by
  have hpos : (0 : ℚ) < unitsOfOne := by exact_mod_cast unitsOfOne_pos
  rw [units_eq_unitsOfRatio, units_eq_unitsOfRatio, unitsOfRatio, unitsOfRatio] at h
  have hratio := mul_right_cancel₀ hpos.ne' h
  rw [div_eq_div_iff (by positivity) (by positivity)] at hratio
  rw [round_eq_ofRatio, round_eq_ofRatio]
  exact ofRatio_congr (by positivity) (by positivity) (by exact_mod_cast hratio)

end Decimal

end Stocklist
