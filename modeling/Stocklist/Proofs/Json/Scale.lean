/-
  Stocklist/Proofs/Json/Scale.lean
  ================================
  **How far a scaled significand is from its decimal.**

  `scale` rounds the significand, the power of ten and their product or quotient, and once
  more where the power is beyond the greatest one.  Each step but the last is off by one
  part in `2 ^ 53`, so what the last step rounds is within `17/4` such parts of the decimal
  (`scale_eq_ofRatio`).  It follows that reading a decimal of a magnitude gives a magnitude
  less than six of its last places away (`exists_scale_near`).  Where significand and power
  of ten have 53 bits, only the last step rounds, and the outcome is the nearest magnitude
  (`scale_eq_round`).
-/
import Mathlib.Tactic
import Stocklist.Json.Number
import Stocklist.Proofs.Decimal.Rounding

namespace Stocklist

open Magnitude

namespace Json

/-! ### Parts of a value -/

/-- `x` is `y` up to `a` parts in `2 ^ 53`. -/
def Within (a x y : ℚ) : Prop :=
  (1 - a / 2 ^ 53) * y ≤ x ∧ x ≤ (1 + a / 2 ^ 53) * y

section Within

variable {a b c x y z u v w : ℚ}

theorem Within.refl (ha : 0 ≤ a) (hx : 0 ≤ x) : Within a x x := by
  have hpart : 0 ≤ a / 2 ^ 53 * x := by positivity
  constructor
  · linarith
  · linarith

theorem within_one_of_abs (h : 2 ^ 53 * |y - x| ≤ y) : Within 1 x y := by
  have habove := neg_abs_le (y - x)
  have hbelow := le_abs_self (y - x)
  constructor
  · linarith
  · linarith

theorem Within.two_pow_mul_abs_sub_le (h : Within a x y) : 2 ^ 53 * |x - y| ≤ a * y := by
  obtain ⟨hlow, hhigh⟩ := h
  have hle : |x - y| ≤ a / 2 ^ 53 * y := by
    rw [abs_le]
    constructor
    · linarith
    · linarith
  linarith

/-- Products of values near to others, as long as the parts are few. -/
theorem Within.mul (hx : Within a x y) (hu : Within b u v) (hy : 0 ≤ y) (hv : 0 ≤ v)
    (ha : a ≤ 2 ^ 53) (hb : b ≤ 2 ^ 53)
    (hlow : 1 - c / 2 ^ 53 ≤ (1 - a / 2 ^ 53) * (1 - b / 2 ^ 53))
    (hhigh : (1 + a / 2 ^ 53) * (1 + b / 2 ^ 53) ≤ 1 + c / 2 ^ 53) :
    Within c (x * u) (y * v) := by
  have hfirst : 0 ≤ 1 - a / 2 ^ 53 := by linarith
  have hsecond : 0 ≤ 1 - b / 2 ^ 53 := by linarith
  have hx0 : 0 ≤ x := (mul_nonneg hfirst hy).trans hx.1
  have hu0 : 0 ≤ u := (mul_nonneg hsecond hv).trans hu.1
  constructor
  · calc (1 - c / 2 ^ 53) * (y * v)
        ≤ (1 - a / 2 ^ 53) * (1 - b / 2 ^ 53) * (y * v) := by gcongr
      _ = (1 - a / 2 ^ 53) * y * ((1 - b / 2 ^ 53) * v) := by ring
      _ ≤ x * u := mul_le_mul hx.1 hu.1 (mul_nonneg hsecond hv) hx0
  · calc x * u ≤ (1 + a / 2 ^ 53) * y * ((1 + b / 2 ^ 53) * v) :=
          mul_le_mul hx.2 hu.2 hu0 (hx0.trans hx.2)
      _ = (1 + a / 2 ^ 53) * (1 + b / 2 ^ 53) * (y * v) := by ring
      _ ≤ (1 + c / 2 ^ 53) * (y * v) := by gcongr

theorem Within.mul_right (h : Within a x y) (hc : 0 ≤ c) : Within a (x * c) (y * c) := by
  obtain ⟨hlow, hhigh⟩ := h
  constructor
  · rw [← mul_assoc]
    gcongr
  · rw [← mul_assoc]
    gcongr

theorem Within.trans (hx : Within a x y) (hy : Within b y z) (hz : 0 ≤ z) (ha0 : 0 ≤ a)
    (ha : a ≤ 2 ^ 53) (hlow : 1 - c / 2 ^ 53 ≤ (1 - a / 2 ^ 53) * (1 - b / 2 ^ 53))
    (hhigh : (1 + a / 2 ^ 53) * (1 + b / 2 ^ 53) ≤ 1 + c / 2 ^ 53) : Within c x z := by
  have hfirst : 0 ≤ 1 - a / 2 ^ 53 := by linarith
  constructor
  · calc (1 - c / 2 ^ 53) * z ≤ (1 - a / 2 ^ 53) * (1 - b / 2 ^ 53) * z := by gcongr
      _ = (1 - a / 2 ^ 53) * ((1 - b / 2 ^ 53) * z) := by ring
      _ ≤ (1 - a / 2 ^ 53) * y := mul_le_mul_of_nonneg_left hy.1 hfirst
      _ ≤ x := hx.1
  · calc x ≤ (1 + a / 2 ^ 53) * y := hx.2
      _ ≤ (1 + a / 2 ^ 53) * ((1 + b / 2 ^ 53) * z) :=
        mul_le_mul_of_nonneg_left hy.2 (by positivity)
      _ = (1 + a / 2 ^ 53) * (1 + b / 2 ^ 53) * z := by ring
      _ ≤ (1 + c / 2 ^ 53) * z := by gcongr

theorem Within.inv (h : Within 1 x y) (hy : 0 < y) : Within (33 / 32) x⁻¹ y⁻¹ := by
  obtain ⟨hlow, hhigh⟩ := h
  have hx : 0 < x := (mul_pos (by norm_num) hy).trans_le hlow
  constructor
  · rw [← div_eq_mul_inv, ← one_div, div_le_div_iff₀ hy hx]
    linarith
  · rw [← div_eq_mul_inv, ← one_div, div_le_div_iff₀ hx hy]
    linarith

/-- Quotients in units of values near to others. -/
theorem Within.div (hx : Within a x y) (hu : Within 1 u v) (hy : 0 ≤ y) (hv : 0 < v) (hw : 0 ≤ w)
    (ha : a ≤ 2 ^ 53) (hlow : 1 - c / 2 ^ 53 ≤ (1 - a / 2 ^ 53) * (1 - 33 / 32 / 2 ^ 53))
    (hhigh : (1 + a / 2 ^ 53) * (1 + 33 / 32 / 2 ^ 53) ≤ 1 + c / 2 ^ 53) :
    Within c (x / u * w) (y / v * w) := by
  rw [div_eq_mul_inv, div_eq_mul_inv]
  exact (hx.mul (hu.inv hv) hy (inv_pos.mpr hv).le ha (by norm_num) hlow hhigh).mul_right hw

end Within

/-! ### Significands and powers of ten -/

theorem le_unitsOfOne : 2 ^ 52 ≤ unitsOfOne := by
  decide +kernel

theorem greatestPower_lt :
    10 ^ greatestPower * unitsOfOne < (2 ^ 53 - 1) * 2 ^ greatestScale := by
  rw [greatestScale, greatestPower]
  decide +kernel

theorem unitsOfRatio_one (n : ℕ) : unitsOfRatio n 1 = n * unitsOfOne := by
  rw [unitsOfRatio, Nat.cast_one, div_one]

theorem exists_ofNat {n : ℕ} (h : n ≤ 10 ^ greatestPower) :
    ∃ f, Magnitude.ofNat n = some f ∧ Within 1 f.units (n * unitsOfOne) := by
  obtain ⟨f, hf⟩ : ∃ f, ofRatio n 1 = some f := by
    apply exists_ofRatio_of_lt one_pos
    rw [unitsOfRatio_one]
    have hlt : n * unitsOfOne < (2 ^ 53 - 1) * 2 ^ greatestScale :=
      (Nat.mul_le_mul_right _ h).trans_lt greatestPower_lt
    have hcast : ((n * unitsOfOne : ℕ) : ℚ) < ((2 ^ 53 - 1) * 2 ^ greatestScale : ℕ) :=
      Nat.cast_lt.mpr hlt
    have hpos : (0 : ℚ) < 2 ^ greatestScale := by positivity
    push_cast at hcast
    linarith
  refine ⟨f, hf, ?_⟩
  rw [← unitsOfRatio_one]
  apply within_one_of_abs
  by_cases hzero : n = 0
  · have hnear := two_mul_abs_sub_le_one one_pos hf
    rw [unitsOfRatio_one, hzero, Nat.cast_zero, zero_mul] at hnear ⊢
    have hunits : f.units = 0 := by
      apply eq_of_abs_sub_lt_one
      rw [Nat.cast_zero, abs_sub_comm]
      have := hnear (by norm_num)
      linarith
    simp [hunits]
  · apply two_pow_mul_abs_sub_le one_pos hf
    rw [unitsOfRatio_one]
    have hle : 2 ^ 52 ≤ n * unitsOfOne :=
      le_unitsOfOne.trans (Nat.le_mul_of_pos_left _ (Nat.pos_of_ne_zero hzero))
    exact_mod_cast hle

theorem exists_powerOfTen {k : ℕ} (h : k ≤ greatestPower) :
    ∃ p, powerOfTen k = some p ∧ Within 1 p.units (10 ^ k * unitsOfOne) := by
  obtain ⟨p, hp, hnear⟩ := exists_ofNat (Nat.pow_le_pow_right (by decide : 0 < 10) h)
  refine ⟨p, hp, ?_⟩
  rwa [Nat.cast_pow, Nat.cast_ofNat] at hnear

/-! ### The last rounding -/

theorem cast_unitsOfOne_pos : (0 : ℚ) < unitsOfOne := by
  exact_mod_cast unitsOfOne_pos

theorem pos_of_within {m : Magnitude} {x : ℚ} (h : Within 1 m.units x) (hx : 0 < x) :
    0 < m.units := by
  have hpos : (0 : ℚ) < m.units := (mul_pos (by norm_num) hx).trans_le h.1
  exact_mod_cast hpos

/-- What is rounded last is near to the decimal: up to a few parts in `2 ^ 53`, and up to the
    part of a unit that remains of a rounding error among the smallest magnitudes. -/
def Nearly (y x : ℚ) : Prop :=
  ∃ z, Within (17 / 4) z x ∧ 16 * |y - z| ≤ 1

theorem nearly_of_within {y x : ℚ} (h : Within (17 / 4) y x) : Nearly y x := by
  refine ⟨y, h, ?_⟩
  rw [sub_self, abs_zero, mul_zero]
  exact zero_le_one

variable {n k : ℕ}

theorem scale_natCast_of_ofNat {f p : Magnitude} (hf : Magnitude.ofNat n = some f)
    (hp : powerOfTen k = some p) (hk : k ≤ greatestPower) :
    scale n k = ofRatio (f.units * p.units) (unitsOfOne * unitsOfOne) := by
  have hle : (k : ℤ) ≤ greatestPower := Int.ofNat_le.mpr hk
  rw [scale, hf, Option.bind_eq_bind, Option.bind_some, scaleBy, if_neg (by omega), if_pos hle,
    Int.toNat_natCast, hp, Option.bind_some, Magnitude.mul]

theorem scale_natCast_eq (hn : n ≤ 10 ^ greatestPower) (hk : k ≤ greatestPower) :
    ∃ num den, 0 < den ∧ scale n k = ofRatio num den ∧
      Nearly (unitsOfRatio num den) (⟨n, k⟩ : Decimal).units := by
  obtain ⟨f, hf, hfn⟩ := exists_ofNat hn
  obtain ⟨p, hp, hpk⟩ := exists_powerOfTen hk
  refine ⟨f.units * p.units, unitsOfOne * unitsOfOne, Nat.mul_pos unitsOfOne_pos unitsOfOne_pos,
    scale_natCast_of_ofNat hf hp hk, nearly_of_within ?_⟩
  have hone := cast_unitsOfOne_pos
  have hvalue : unitsOfRatio (f.units * p.units) (unitsOfOne * unitsOfOne) =
      f.units * p.units * (unitsOfOne : ℚ)⁻¹ := by
    rw [unitsOfRatio]
    push_cast
    field_simp
  have hdecimal : (⟨n, k⟩ : Decimal).units =
      n * unitsOfOne * (10 ^ k * unitsOfOne) * (unitsOfOne : ℚ)⁻¹ := by
    rw [Decimal.units, zpow_natCast]
    field_simp
  rw [hvalue, hdecimal]
  apply Within.mul_right _ (inv_pos.mpr hone).le
  apply hfn.mul hpk
  · positivity
  · positivity
  all_goals norm_num

theorem scaleDown_of_le {f : Magnitude} (hpos : 0 < k) (hk : k ≤ greatestPower) :
    scaleDown f k = (powerOfTen k).bind f.div := by
  have htimes : (k - 1) / greatestPower = 0 := Nat.div_eq_of_lt (by omega)
  rw [scaleDown, htimes, divideByGreatest, Nat.zero_mul, Nat.sub_zero, Option.bind_eq_bind,
    Option.bind_some]

theorem scale_neg_of_ofNat {f : Magnitude} (hf : Magnitude.ofNat n = some f) (hpos : 0 < k) :
    scale n (-k) = scaleDown f k := by
  have hneg : -(k : ℤ) < 0 := by omega
  rw [scale, hf, Option.bind_eq_bind, Option.bind_some, scaleBy, if_pos hneg, Int.natAbs_neg,
    Int.natAbs_natCast]

theorem scale_neg_of_powerOfTen {f p : Magnitude} (hf : Magnitude.ofNat n = some f)
    (hp : powerOfTen k = some p) (hpos : 0 < k) (hk : k ≤ greatestPower) :
    scale n (-k) = ofRatio f.units p.units := by
  rw [scale_neg_of_ofNat hf hpos, scaleDown_of_le hpos hk, hp, Option.bind_some, Magnitude.div]

theorem units_neg (n k : ℕ) :
    (⟨n, -k⟩ : Decimal).units = n * unitsOfOne / (10 ^ k * unitsOfOne) * unitsOfOne := by
  have hone := cast_unitsOfOne_pos
  rw [Decimal.units, zpow_neg, zpow_natCast]
  field_simp

/-- The quotient of a value near to `y` by a power of ten. -/
theorem Within.div_power {a c x y : ℚ} {p : Magnitude} (hx : Within a x y)
    (hp : Within 1 p.units (10 ^ k * unitsOfOne)) (hy : 0 ≤ y) (ha : a ≤ 2 ^ 53)
    (hlow : 1 - c / 2 ^ 53 ≤ (1 - a / 2 ^ 53) * (1 - 33 / 32 / 2 ^ 53))
    (hhigh : (1 + a / 2 ^ 53) * (1 + 33 / 32 / 2 ^ 53) ≤ 1 + c / 2 ^ 53) :
    Within c (x / p.units * unitsOfOne) (y / (10 ^ k * unitsOfOne) * unitsOfOne) := by
  have hone := cast_unitsOfOne_pos
  exact hx.div hp hy (by positivity) hone.le ha hlow hhigh

theorem scale_neg_eq (hn : n ≤ 10 ^ greatestPower) (hpos : 0 < k) (hk : k ≤ greatestPower) :
    ∃ num den, 0 < den ∧ scale n (-k) = ofRatio num den ∧
      Nearly (unitsOfRatio num den) (⟨n, -k⟩ : Decimal).units := by
  have hone := cast_unitsOfOne_pos
  obtain ⟨f, hf, hfn⟩ := exists_ofNat hn
  obtain ⟨p, hp, hpk⟩ := exists_powerOfTen hk
  refine ⟨f.units, p.units, pos_of_within hpk (by positivity),
    scale_neg_of_powerOfTen hf hp hpos hk, nearly_of_within ?_⟩
  rw [unitsOfRatio, units_neg]
  apply hfn.div_power hpk
  · positivity
  all_goals norm_num

/-- A rounded quotient is near to the quotient or, among the smallest magnitudes, off by one half
    at most. -/
theorem exists_within_of_ofRatio {num den : ℕ} {m : Magnitude} (hden : 0 < den)
    (h : ofRatio num den = some m) :
    ∃ x, Within 1 x (unitsOfRatio num den) ∧ 2 * |m.units - x| ≤ 1 := by
  by_cases hlarge : 2 ^ 52 ≤ unitsOfRatio num den
  · refine ⟨m.units, within_one_of_abs (two_pow_mul_abs_sub_le hden h hlarge), ?_⟩
    rw [sub_self, abs_zero, mul_zero]
    exact zero_le_one
  · refine ⟨unitsOfRatio num den, Within.refl zero_le_one (unitsOfRatio_nonneg _ _), ?_⟩
    rw [abs_sub_comm]
    exact two_mul_abs_sub_le_one hden h (not_le.mp hlarge)

/-! An exponent beyond the greatest power takes two divisions. -/

theorem scaleDown_of_lt {f : Magnitude} (hf : f.significand ≠ 0) (hlt : greatestPower < k)
    (hk : k ≤ 2 * greatestPower) :
    scaleDown f k = (powerOfTen greatestPower).bind fun p =>
      (f.div p).bind fun g => (powerOfTen (k - greatestPower)).bind g.div := by
  have htimes : (k - 1) / greatestPower = 1 := by
    apply Nat.div_eq_of_lt_le
    · omega
    · omega
  have hstep : divideByGreatest f 1 = (powerOfTen greatestPower).bind f.div := by
    rw [divideByGreatest, if_neg hf, Option.bind_eq_bind]
    simp only [divideByGreatest, Option.bind_fun_some]
  rw [scaleDown, htimes, hstep, Nat.one_mul, Option.bind_eq_bind, Option.bind_assoc]

theorem significand_ne_zero {f : Magnitude} (h : 0 < f.units) : f.significand ≠ 0 := by
  intro hzero
  rw [units_eq, hzero, zero_mul] at h
  exact absurd h (lt_irrefl 0)

theorem eight_mul_unitsOfOne_le {p : Magnitude} (h : Within 1 p.units (10 ^ k * unitsOfOne))
    (hk : 0 < k) : 8 * (unitsOfOne : ℚ) ≤ p.units := by
  have hone := cast_unitsOfOne_pos
  have hten : (10 : ℚ) ^ 1 ≤ 10 ^ k := pow_le_pow_right₀ (by norm_num) hk
  have hpow : 10 * (unitsOfOne : ℚ) ≤ 10 ^ k * unitsOfOne := by
    gcongr
    rwa [pow_one] at hten
  have hlow := h.1
  linarith

/-- A quotient by one or more is no larger than the greatest magnitude. -/
theorem exists_div_of_le {f p : Magnitude} (hp : (unitsOfOne : ℚ) ≤ p.units) :
    ∃ g, ofRatio f.units p.units = some g := by
  have hpos : (0 : ℚ) < p.units := cast_unitsOfOne_pos.trans_le hp
  apply exists_ofRatio_of_lt (by exact_mod_cast hpos)
  have hle : unitsOfRatio f.units p.units ≤ f.units := by
    rw [unitsOfRatio, div_mul_eq_mul_div, div_le_iff₀ hpos]
    gcongr
  have hscale : (2 : ℚ) ^ f.scale ≤ 2 ^ greatestScale :=
    pow_le_pow_right₀ (by norm_num) (scale_le_greatestScale f)
  have hunits := cast_units_le f
  have hlast : (0 : ℚ) < 2 ^ greatestScale := by positivity
  linarith

/-- A rounding error of half a unit that is divided by eight or more is a sixteenth at most. -/
theorem abs_unitsOfRatio_sub_le {g q : Magnitude} {x : ℚ} (hx : 2 * |g.units - x| ≤ 1)
    (hq : 8 * (unitsOfOne : ℚ) ≤ q.units) :
    16 * |unitsOfRatio g.units q.units - x / q.units * unitsOfOne| ≤ 1 := by
  have hone := cast_unitsOfOne_pos
  have hq0 : (0 : ℚ) < q.units := by linarith
  have hsplit : unitsOfRatio g.units q.units - x / q.units * unitsOfOne =
      (g.units - x) * (unitsOfOne / q.units) := by
    rw [unitsOfRatio]
    ring
  have hpart : unitsOfOne / q.units ≤ (1 / 8 : ℚ) := by
    rw [div_le_div_iff₀ hq0 (by norm_num)]
    linarith
  have hle : |(g.units : ℚ) - x| * (unitsOfOne / q.units) ≤ 1 / 2 * (1 / 8) := by
    apply mul_le_mul _ hpart (by positivity) (by norm_num)
    linarith
  rw [hsplit, abs_mul, abs_of_nonneg (by positivity : (0 : ℚ) ≤ unitsOfOne / q.units)]
  linarith

/-- Dividing by two powers of ten, one after the other. -/
theorem units_neg_add (n i j : ℕ) :
    (⟨n, -(i + j : ℕ)⟩ : Decimal).units =
      n * unitsOfOne / (10 ^ i * unitsOfOne) * unitsOfOne / (10 ^ j * unitsOfOne) *
        unitsOfOne := by
  have hone := cast_unitsOfOne_pos
  rw [units_neg, pow_add]
  field_simp

/-- The first quotient, rounded, is near to the exact one, or off by one half. -/
theorem exists_first_quotient {f p : Magnitude} (hf : Within 1 f.units (n * unitsOfOne))
    (hp : Within 1 p.units (10 ^ k * unitsOfOne)) (hk : 0 < k) :
    ∃ (g : Magnitude) (x : ℚ), ofRatio f.units p.units = some g ∧ 2 * |g.units - x| ≤ 1 ∧
      Within (99 / 32) x (n * unitsOfOne / (10 ^ k * unitsOfOne) * unitsOfOne) := by
  have hone := cast_unitsOfOne_pos
  have hlarge := eight_mul_unitsOfOne_le hp hk
  obtain ⟨g, hg⟩ : ∃ g, ofRatio f.units p.units = some g := exists_div_of_le (by linarith)
  obtain ⟨x, hx, hgx⟩ := exists_within_of_ofRatio (pos_of_within hp (by positivity)) hg
  have hquotient : Within (33 / 16) (unitsOfRatio f.units p.units)
      (n * unitsOfOne / (10 ^ k * unitsOfOne) * unitsOfOne) := by
    rw [unitsOfRatio]
    apply hf.div_power hp
    · positivity
    all_goals norm_num
  refine ⟨g, x, hg, hgx, ?_⟩
  apply hx.trans hquotient
  · positivity
  all_goals norm_num

theorem scale_neg_eq_of_lt (hn : n ≤ 10 ^ greatestPower) (hpos : 0 < n) (hlt : greatestPower < k)
    (hk : k ≤ 2 * greatestPower) :
    ∃ num den, 0 < den ∧ scale n (-k) = ofRatio num den ∧
      Nearly (unitsOfRatio num den) (⟨n, -k⟩ : Decimal).units := by
  have hone := cast_unitsOfOne_pos
  have hn' : (0 : ℚ) < n := by exact_mod_cast hpos
  obtain ⟨j, rfl⟩ := Nat.exists_eq_add_of_lt hlt
  rw [add_assoc] at hlt hk ⊢
  obtain ⟨f, hf, hfn⟩ := exists_ofNat hn
  obtain ⟨p, hp, hpk⟩ := exists_powerOfTen (le_refl greatestPower)
  obtain ⟨q, hq, hqk⟩ := exists_powerOfTen (by omega : j + 1 ≤ greatestPower)
  obtain ⟨g, x, hg, hgx, hx⟩ := exists_first_quotient hfn hpk (by decide)
  refine ⟨g.units, q.units, pos_of_within hqk (by positivity), ?_,
    x / q.units * unitsOfOne, ?_,
    abs_unitsOfRatio_sub_le hgx (eight_mul_unitsOfOne_le hqk (Nat.succ_pos j))⟩
  · have hf0 : f.significand ≠ 0 := significand_ne_zero (pos_of_within hfn (by positivity))
    rw [scale_neg_of_ofNat hf (by omega), scaleDown_of_lt hf0 hlt hk, hp, Option.bind_some,
      Magnitude.div, hg, Option.bind_some, Nat.add_sub_cancel_left, hq, Option.bind_some,
      Magnitude.div]
  · rw [units_neg_add]
    apply hx.div_power hqk
    · positivity
    all_goals norm_num

/-- **Scaling rounds a value near to the decimal.** -/
theorem scale_eq_ofRatio {e : ℤ} (hn : n ≤ 10 ^ greatestPower) (hpos : 0 < n)
    (hlow : -(2 * greatestPower : ℕ) ≤ e) (hhigh : e ≤ greatestPower) :
    ∃ num den, 0 < den ∧ scale n e = ofRatio num den ∧
      Nearly (unitsOfRatio num den) (⟨n, e⟩ : Decimal).units := by
  by_cases hneg : e < 0
  · obtain ⟨k, rfl⟩ : ∃ k : ℕ, e = -k := ⟨e.natAbs, by omega⟩
    by_cases hle : k ≤ greatestPower
    · exact scale_neg_eq hn (by omega) hle
    · exact scale_neg_eq_of_lt hn hpos (by omega) (by omega)
  · obtain ⟨k, rfl⟩ : ∃ k : ℕ, e = k := ⟨e.toNat, by omega⟩
    exact scale_natCast_eq hn (by omega)

/-! ### Reading back -/

theorem two_pow_64_le : 2 ^ 64 ≤ 10 ^ greatestPower := by
  decide +kernel

/-- The exponents of a decimal that reads as a magnitude other than zero. -/
theorem exponent_bounds {e : ℤ} {m : Magnitude} (hn : n < 2 ^ 64) (hpos : 0 < n)
    (hd : (⟨n, e⟩ : Decimal).round = some m) (hm : m ≠ zero) :
    -(2 * greatestPower : ℕ) ≤ e ∧ e ≤ greatestPower := by
  constructor
  · by_contra hlt
    have hlog : n.log2 < 64 := (Nat.log2_lt hpos.ne').mpr hn
    have hsmall : 2 * (⟨n, e⟩ : Decimal).units < 1 := by
      apply Decimal.two_mul_units_lt_one
      rw [greatestPower] at hlt
      change e + n.log2 < -400
      omega
    have hnonneg := Decimal.units_nonneg ⟨n, e⟩
    have hzero : (⟨n, e⟩ : Decimal).round = some zero := by
      apply Decimal.round_of_near
      rw [Decimal.gridOf_eq_zero (by linarith)]
      simpa [zero, Magnitude.units, abs_of_nonneg hnonneg] using hsmall
    rw [hzero] at hd
    exact hm (Option.some.inj hd).symm
  · by_contra hlt
    have hlarge := Decimal.le_units_of_large (d := ⟨n, e⟩) hpos.ne' (not_le.mp hlt)
    rw [Decimal.round_eq_ofRatio] at hd
    have hless := units_lt_of_ofRatio hd
    rw [← Decimal.units_eq_unitsOfRatio] at hless
    exact absurd hlarge (not_le.mpr hless)

theorem one_le_two_pow (k : ℕ) : (1 : ℚ) ≤ 2 ^ k :=
  one_le_pow₀ (by norm_num)

/-- What is rounded last is less than five last places of the magnitude away. -/
theorem abs_sub_units_le_of_nearly {d : Decimal} {m : Magnitude} {y : ℚ} (hd : d.round = some m)
    (hy : Nearly y d.units) : |y - m.units| ≤ 77 / 16 * 2 ^ m.scale := by
  obtain ⟨x, hx, hnear⟩ := hy
  have hpow := one_le_two_pow m.scale
  have hgrid : (2 : ℚ) ^ gridOf d.units ≤ 2 ^ m.scale :=
    pow_le_pow_right₀ (by norm_num) (Decimal.gridOf_units_le_scale hd)
  have hround := Decimal.two_mul_abs_sub_units_le hd
  have hunits := cast_units_le m
  have habove := le_abs_self (d.units - m.units)
  have hparts := hx.two_pow_mul_abs_sub_le
  have hmiddle : |x - d.units| ≤ 17 / 4 * 2 ^ m.scale := by linarith
  have hfirst := abs_sub_le y x m.units
  have hsecond := abs_sub_le x d.units m.units
  linarith

/-- **A decimal of a magnitude is read as one less than six last places away**, the five largest
    magnitudes left out. -/
theorem exists_scale_near {e : ℤ} {m : Magnitude} (hn : n < 2 ^ 64) (hpos : 0 < n)
    (hd : (⟨n, e⟩ : Decimal).round = some m) (hm : m ≠ zero)
    (hlast : m.units ≤ (2 ^ 53 - 6) * 2 ^ greatestScale) :
    ∃ r, scale n e = some r ∧ |(r.units : ℚ) - m.units| < 6 * 2 ^ m.scale := by
  obtain ⟨hlow, hhigh⟩ := exponent_bounds hn hpos hd hm
  obtain ⟨num, den, hden, hscale, hnearly⟩ :=
    scale_eq_ofRatio (hn.le.trans two_pow_64_le) hpos hlow hhigh
  have hvalue := abs_sub_units_le_of_nearly hd hnearly
  have habove := le_abs_self (unitsOfRatio num den - m.units)
  have hpow : (0 : ℚ) < 2 ^ m.scale := by positivity
  obtain ⟨r, hr⟩ : ∃ r, ofRatio num den = some r := by
    apply exists_ofRatio_of_lt hden
    have hgreatest : (2 : ℚ) ^ m.scale ≤ 2 ^ greatestScale :=
      pow_le_pow_right₀ (by norm_num) (scale_le_greatestScale m)
    have hlast' : (m.units : ℚ) ≤ (2 ^ 53 - 6) * 2 ^ greatestScale := by
      have hcast : (m.units : ℚ) ≤ ((2 ^ 53 - 6) * 2 ^ greatestScale : ℕ) := Nat.cast_le.mpr hlast
      push_cast at hcast
      linarith
    linarith
  refine ⟨r, hscale.trans hr, ?_⟩
  have hgrid : gridOf (unitsOfRatio num den) ≤ m.scale + 1 := by
    apply gridOf_le
    have hunits := cast_units_le m
    rw [pow_add, pow_add, pow_one]
    linarith
  have hwidth : (2 : ℚ) ^ gridOf (unitsOfRatio num den) ≤ 2 * 2 ^ m.scale := by
    rw [← pow_succ']
    exact pow_le_pow_right₀ (by norm_num) hgrid
  have hlastStep := two_mul_abs_sub_units_le hden hr
  rw [abs_sub_comm] at hlastStep
  have htriangle := abs_sub_le (r.units : ℚ) (unitsOfRatio num den) m.units
  linarith

/-! ### Exact steps -/

/-- A natural number of 53 significant bits is read without rounding. -/
theorem units_of_ofNat {a b : ℕ} {f : Magnitude} (ha : a < 2 ^ 53)
    (hf : Magnitude.ofNat (a * 2 ^ b) = some f) : f.units = a * 2 ^ b * unitsOfOne := by
  have hvalue : unitsOfRatio (a * 2 ^ b) 1 = (a * 2 ^ (b + 1074) : ℕ) := by
    rw [unitsOfRatio_one, ← Nat.cast_mul, unitsOfOne_eq, mul_assoc, ← pow_add]
  rw [units_of_ofRatio_of_eq one_pos hf hvalue ha, unitsOfOne_eq, mul_assoc, ← pow_add]

theorem units_of_powerOfTen {p : Magnitude} (hk : k ≤ 22) (hp : powerOfTen k = some p) :
    p.units = 10 ^ k * unitsOfOne := by
  have hten : 10 ^ k = 5 ^ k * 2 ^ k := by rw [← mul_pow]; norm_num
  have hfive : 5 ^ k < 2 ^ 53 := (Nat.pow_le_pow_right (by decide) hk).trans_lt (by decide)
  rw [powerOfTen, Nat.pow_eq, hten] at hp
  rw [units_of_ofNat hfive hp, hten]

/-- **Where the significand and the power of ten have 53 bits, scaling takes a decimal to the
    nearest magnitude.** -/
theorem scale_eq_round {a b : ℕ} {e : ℤ} (ha : a < 2 ^ 53) (hn : a * 2 ^ b < 2 ^ 64)
    (hlow : -22 ≤ e) (hhigh : e ≤ 22) : scale (a * 2 ^ b) e = (⟨a * 2 ^ b, e⟩ : Decimal).round := by
  obtain ⟨f, hf, -⟩ := exists_ofNat (hn.le.trans two_pow_64_le)
  have hfu := units_of_ofNat ha hf
  generalize a * 2 ^ b = n at hf hfu hn
  have hone := unitsOfOne_pos
  rw [Decimal.round_eq_ofRatio]
  by_cases hneg : e < 0
  · obtain ⟨k, rfl⟩ : ∃ k : ℕ, e = -k := ⟨e.natAbs, by omega⟩
    have hk : k ≤ greatestPower := by rw [greatestPower]; omega
    obtain ⟨p, hp, -⟩ := exists_powerOfTen hk
    have hpu := units_of_powerOfTen (by omega) hp
    rw [scale_neg_of_powerOfTen hf hp (by omega) hk, hfu, hpu]
    apply ofRatio_congr (Nat.mul_pos (by positivity) hone) (by positivity)
    rw [neg_neg, Int.toNat_natCast, Int.toNat_neg_natCast, pow_zero]
    ring
  · obtain ⟨k, rfl⟩ : ∃ k : ℕ, e = k := ⟨e.toNat, by omega⟩
    have hk : k ≤ greatestPower := by rw [greatestPower]; omega
    obtain ⟨p, hp, -⟩ := exists_powerOfTen hk
    have hpu := units_of_powerOfTen (by omega) hp
    rw [scale_natCast_of_ofNat hf hp hk, hfu, hpu]
    apply ofRatio_congr (Nat.mul_pos hone hone) (by positivity)
    rw [Int.toNat_natCast, Int.toNat_neg_natCast, pow_zero]
    ring

end Json

end Stocklist
