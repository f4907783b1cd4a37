/-
  Stocklist/Proofs/Binary64/Rounding.lean
  =======================================
  **Rounding takes a quotient to the nearest magnitude.**

  Between one power of two and the next, magnitudes lie on a grid whose width is a power of
  two (`gridOf`).  Rounding counts a quotient on the grid of its value, so the outcome is at
  most half a width away (`two_mul_abs_sub_units_le`).  Conversely, of two magnitudes only
  one can be nearer than half a width: a quotient that is as near as that to a magnitude is
  rounded to it (`ofRatio_of_near`).  All that later modules know about rounding are these
  two statements and `exists_ofRatio_of_lt`, which says when there is an outcome at all.
-/
import Mathlib.Algebra.Order.Floor.Semifield
import Mathlib.Tactic
import Stocklist.Binary64

namespace Stocklist

/-! ### Rounding a quotient -/

/-- The rounded quotient is at most one half away. -/
theorem two_mul_abs_roundDiv_sub_le (num : ℕ) {den : ℕ} (hden : 0 < den) :
    2 * |(roundDiv num den : ℚ) - num / den| ≤ 1 := by
  have hpos : (0 : ℚ) < den := by exact_mod_cast hden
  have hlt : ((num % den : ℕ) : ℚ) < den := by exact_mod_cast Nat.mod_lt num hden
  have hnonneg : (0 : ℚ) ≤ (num % den : ℕ) := Nat.cast_nonneg _
  -- The value is its whole part and the fraction that the remainder makes.
  have hvalue : (num : ℚ) / den = (num / den : ℕ) + ((num % den : ℕ) : ℚ) / den := by
    have hsum : (num : ℚ) = den * (num / den : ℕ) + (num % den : ℕ) := by
      exact_mod_cast (Nat.div_add_mod num den).symm
    rw [eq_comm, eq_div_iff hpos.ne', add_mul, div_mul_cancel₀ _ hpos.ne', mul_comm, ← hsum]
  have hsmall : ((num % den : ℕ) : ℚ) / den < 1 := (div_lt_one hpos).mpr hlt
  have hfraction : (0 : ℚ) ≤ ((num % den : ℕ) : ℚ) / den := div_nonneg hnonneg hpos.le
  rw [hvalue, roundDiv]
  split_ifs with hlow hhigh
  · have hlow' : 2 * (((num % den : ℕ) : ℚ) / den) < 1 := by
      rw [← mul_div_assoc, div_lt_one hpos]
      exact_mod_cast hlow
    rw [sub_add_cancel_left, abs_neg, abs_of_nonneg hfraction]
    exact hlow'.le
  · have hhigh' : 1 < 2 * (((num % den : ℕ) : ℚ) / den) := by
      rw [← mul_div_assoc, one_lt_div hpos]
      exact_mod_cast hhigh
    rw [Nat.cast_succ, add_sub_add_left_eq_sub, abs_of_pos (sub_pos.mpr hsmall)]
    linarith
  · have htie : 2 * (((num % den : ℕ) : ℚ) / den) = 1 := by
      rw [← mul_div_assoc, div_eq_one_iff_eq hpos.ne']
      exact_mod_cast (by omega : 2 * (num % den) = den)
    have hparity : (num / den) % 2 = 0 ∨ (num / den) % 2 = 1 := by omega
    rcases hparity with heven | hodd
    · rw [heven, Nat.add_zero, sub_add_cancel_left, abs_neg, abs_of_nonneg hfraction]
      exact htie.le
    · rw [hodd, Nat.cast_succ, add_sub_add_left_eq_sub, abs_of_pos (sub_pos.mpr hsmall)]
      linarith

theorem roundDiv_mul_right (num den : ℕ) {k : ℕ} (hk : 0 < k) :
    roundDiv (num * k) (den * k) = roundDiv num den := by
  have hlow : 2 * (num % den * k) < den * k ↔ 2 * (num % den) < den := by
    rw [← mul_assoc, Nat.mul_lt_mul_right hk]
  have hhigh : den * k < 2 * (num % den * k) ↔ den < 2 * (num % den) := by
    rw [← mul_assoc, Nat.mul_lt_mul_right hk]
  rw [roundDiv, roundDiv, Nat.mul_div_mul_right _ _ hk, Nat.mul_mod_mul_right]
  simp only [hlow, hhigh]

theorem eq_of_abs_sub_lt_one {a b : ℕ} (h : |(a : ℚ) - b| < 1) : a = b := by
  have hint : |(a : ℤ) - b| < 1 := by exact_mod_cast h
  rw [Int.abs_lt_one_iff, sub_eq_zero] at hint
  exact_mod_cast hint

/-- Two points of a grid that are less than its width apart are the same. -/
theorem eq_of_dvd_of_abs_sub_lt {a b w : ℕ} (hw : 0 < w) (ha : w ∣ a) (hb : w ∣ b)
    (h : |(a : ℚ) - b| < w) : a = b := by
  obtain ⟨s, rfl⟩ := ha
  obtain ⟨t, rfl⟩ := hb
  have hpos : (0 : ℚ) < w := by exact_mod_cast hw
  rw [Nat.cast_mul, Nat.cast_mul, ← mul_sub, abs_mul, abs_of_pos hpos] at h
  have hone : |(s : ℚ) - t| < 1 := by
    apply lt_of_mul_lt_mul_left _ hpos.le
    rwa [mul_one]
  rw [eq_of_abs_sub_lt_one hone]

namespace Magnitude

/-! ### The grid around a value

Values are rational numbers of units.  Around a value the magnitudes lie on a grid, which is
the same from one power of two up to the next. -/

/-- The power of two that separates the magnitudes around `x`. -/
def gridOf (x : ℚ) : ℕ :=
  scaleOf ⌊x⌋₊

variable {x y : ℚ}

theorem lt_two_pow_gridOf (x : ℚ) : x < 2 ^ (53 + gridOf x) := by
  have hfloor : ⌊x⌋₊ + 1 ≤ 2 ^ (⌊x⌋₊.log2 + 1) := Nat.lt_log2_self
  have hexp : ⌊x⌋₊.log2 + 1 ≤ 53 + gridOf x := by
    simp only [gridOf, scaleOf]
    omega
  calc x < (⌊x⌋₊ + 1 : ℕ) := by exact_mod_cast Nat.lt_floor_add_one x
    _ ≤ (2 ^ (⌊x⌋₊.log2 + 1) : ℕ) := by exact_mod_cast hfloor
    _ ≤ 2 ^ (53 + gridOf x) := by
      rw [Nat.cast_pow]
      exact pow_le_pow_right₀ (by norm_num) hexp

theorem gridOf_eq_zero_or (x : ℚ) : gridOf x = 0 ∨ 2 ^ (52 + gridOf x) ≤ x := by
  by_cases hgrid : gridOf x = 0
  · exact Or.inl hgrid
  · right
    have hne : ⌊x⌋₊ ≠ 0 := by
      intro hzero
      simp [gridOf, scaleOf, hzero] at hgrid
    have hexp : 52 + gridOf x = ⌊x⌋₊.log2 := by
      simp only [gridOf, scaleOf] at hgrid ⊢
      omega
    have hx : 0 ≤ x := by
      by_contra hneg
      exact hne (Nat.floor_of_nonpos (not_le.mp hneg).le)
    calc (2 : ℚ) ^ (52 + gridOf x) = (2 ^ ⌊x⌋₊.log2 : ℕ) := by rw [hexp]; push_cast; rfl
      _ ≤ (⌊x⌋₊ : ℕ) := by exact_mod_cast Nat.log2_self_le hne
      _ ≤ x := Nat.floor_le hx

theorem gridOf_le {k : ℕ} (h : x < 2 ^ (53 + k)) : gridOf x ≤ k := by
  rcases gridOf_eq_zero_or x with hzero | hle
  · rw [hzero]
    exact Nat.zero_le k
  · have hpow := (pow_lt_pow_iff_right₀ (by norm_num : (1 : ℚ) < 2)).mp (hle.trans_lt h)
    omega

theorem le_gridOf {k : ℕ} (h : 2 ^ (52 + k) ≤ x) : k ≤ gridOf x := by
  have hpow := (pow_lt_pow_iff_right₀ (by norm_num : (1 : ℚ) < 2)).mp
    (h.trans_lt (lt_two_pow_gridOf x))
  omega

theorem gridOf_mono (h : x ≤ y) : gridOf x ≤ gridOf y :=
  gridOf_le (h.trans_lt (lt_two_pow_gridOf y))

/-- The grid is fine: its width is a small part of the value, or one unit. -/
theorem two_pow_gridOf_le (x : ℚ) : (2 : ℚ) ^ gridOf x = 1 ∨ 2 ^ gridOf x ≤ x / 2 ^ 52 := by
  rcases gridOf_eq_zero_or x with hzero | hle
  · left
    rw [hzero, pow_zero]
  · right
    rw [le_div_iff₀ (by positivity), ← pow_add, add_comm]
    exact hle

/-! ### Magnitudes as numbers of units -/

theorem units_eq (m : Magnitude) : m.units = m.significand * 2 ^ m.scale :=
  rfl

theorem units_lt (m : Magnitude) : m.units < 2 ^ (53 + m.scale) := by
  rw [units_eq, pow_add]
  exact Nat.mul_lt_mul_of_pos_right m.significand_lt (by positivity)

theorem le_units (m : Magnitude) (h : m.scale ≠ 0) : 2 ^ (52 + m.scale) ≤ m.units := by
  rw [units_eq, pow_add]
  exact Nat.mul_le_mul_right _ (m.canonical.resolve_left h)

theorem units_le (m : Magnitude) : m.units ≤ (2 ^ 53 - 1) * 2 ^ m.scale := by
  rw [units_eq]
  exact Nat.mul_le_mul_right _ (Nat.le_sub_one_of_lt m.significand_lt)

theorem cast_units_le (m : Magnitude) : (m.units : ℚ) ≤ (2 ^ 53 - 1) * 2 ^ m.scale := by
  have hle : (m.units : ℚ) ≤ ((2 ^ 53 - 1) * 2 ^ m.scale : ℕ) := by exact_mod_cast units_le m
  refine hle.trans (le_of_eq ?_)
  push_cast
  norm_num

theorem two_pow_scale_dvd_units (m : Magnitude) : 2 ^ m.scale ∣ m.units :=
  Dvd.intro_left _ (units_eq m).symm

/-- The greatest scale of a magnitude. -/
@[irreducible]
def greatestScale : ℕ :=
  2045

theorem scale_le_greatestScale (m : Magnitude) : m.scale ≤ greatestScale := by
  rw [greatestScale]
  exact m.scale_le

/-- A value has one representation. -/
theorem units_injective : Function.Injective units := by
  have hscale : ∀ {m n : Magnitude}, m.units = n.units → n.scale ≤ m.scale := by
    intro m n h
    by_contra hlt
    have hle := le_units n (by omega)
    have hmore := units_lt m
    have hpow : 2 ^ (53 + m.scale) ≤ 2 ^ (52 + n.scale) :=
      Nat.pow_le_pow_right (by decide) (by omega)
    omega
  intro m n h
  have heq : m.scale = n.scale := Nat.le_antisymm (hscale h.symm) (hscale h)
  have hsignificand : m.significand = n.significand := by
    rw [units_eq, units_eq, heq] at h
    exact Nat.mul_right_cancel (by positivity) h
  cases m
  cases n
  cases heq
  cases hsignificand
  rfl

/-! ### The nearest magnitude -/

section Ratio

variable {num den : ℕ} {m n : Magnitude}

theorem unitsOfOne_eq : unitsOfOne = 2 ^ 1074 := by
  decide +kernel

theorem unitsOfOne_pos : 0 < unitsOfOne := by
  decide +kernel

/-- A quotient in units. -/
def unitsOfRatio (num den : ℕ) : ℚ :=
  num / den * unitsOfOne

theorem unitsOfRatio_nonneg (num den : ℕ) : 0 ≤ unitsOfRatio num den := by
  rw [unitsOfRatio]
  positivity

/-- The significand of a quotient on the grid of its value. -/
def gridPoint (num den : ℕ) : ℕ :=
  roundDiv (num * unitsOfOne) (den * 2 ^ gridOf (unitsOfRatio num den))

theorem scaleOf_div (num den : ℕ) :
    scaleOf (num * unitsOfOne / den) = gridOf (unitsOfRatio num den) := by
  have hvalue : unitsOfRatio num den = ((num * unitsOfOne : ℕ) : ℚ) / den := by
    rw [unitsOfRatio, Nat.cast_mul, div_mul_eq_mul_div]
  rw [gridOf, hvalue, Nat.floor_div_eq_div]

theorem roundDiv_scaleOf (num den : ℕ) :
    roundDiv (num * unitsOfOne) (den * Nat.pow 2 (scaleOf (num * unitsOfOne / den))) =
      gridPoint num den := by
  rw [scaleOf_div, Nat.pow_eq, gridPoint]

/-- A rounded quotient is the point of its grid, which may be the first power of two beyond. -/
theorem ofRatio_cases (h : ofRatio num den = some m) :
    (m.significand = gridPoint num den ∧ m.scale = gridOf (unitsOfRatio num den)) ∨
      (2 ^ 53 ≤ gridPoint num den ∧ m.significand = 2 ^ 52 ∧
        m.scale = gridOf (unitsOfRatio num den) + 1) := by
  rw [← roundDiv_scaleOf, ← scaleOf_div]
  simp only [ofRatio] at h
  split_ifs at h with hfits hscale hscale
  · cases h
    exact Or.inl ⟨rfl, rfl⟩
  · cases h
    exact Or.inr ⟨not_lt.mp hfits, rfl, rfl⟩

theorem exists_ofRatio (hgrid : gridOf (unitsOfRatio num den) ≤ greatestScale)
    (hpoint : gridOf (unitsOfRatio num den) = greatestScale → gridPoint num den < 2 ^ 53) :
    ∃ m, ofRatio num den = some m := by
  rw [← roundDiv_scaleOf, ← scaleOf_div, greatestScale] at hpoint
  rw [← scaleOf_div, greatestScale] at hgrid
  simp only [ofRatio]
  split_ifs with hfits hscale
  · exact ⟨_, rfl⟩
  · exact ⟨_, rfl⟩
  · exact absurd (hpoint (by omega)) hfits

/-- The grid point is at most half the width of the grid away. -/
theorem two_mul_abs_sub_gridPoint_le (num : ℕ) {den : ℕ} (hden : 0 < den) :
    2 * |unitsOfRatio num den - gridPoint num den * 2 ^ gridOf (unitsOfRatio num den)| ≤
      2 ^ gridOf (unitsOfRatio num den) := by
  rw [gridPoint]
  generalize hk : gridOf (unitsOfRatio num den) = k
  have hpos : (0 : ℚ) < 2 ^ k := by positivity
  have hround := two_mul_abs_roundDiv_sub_le (num * unitsOfOne)
    (Nat.mul_pos hden (Nat.two_pow_pos k))
  have hvalue :
      ((num * unitsOfOne : ℕ) : ℚ) / (den * 2 ^ k : ℕ) = unitsOfRatio num den / 2 ^ k := by
    rw [unitsOfRatio]
    push_cast
    rw [div_mul_eq_mul_div, div_div]
  rw [hvalue] at hround
  generalize roundDiv (num * unitsOfOne) (den * 2 ^ k) = s at hround ⊢
  have hfactor : unitsOfRatio num den - s * 2 ^ k =
      -((s - unitsOfRatio num den / 2 ^ k) * 2 ^ k) := by
    rw [sub_mul, div_mul_cancel₀ _ hpos.ne', neg_sub]
  rw [hfactor, abs_neg, abs_mul, abs_of_pos hpos, ← mul_assoc]
  exact mul_le_of_le_one_left hpos.le hround

theorem gridPoint_le (hden : 0 < den) : gridPoint num den ≤ 2 ^ 53 := by
  have hnear := two_mul_abs_sub_gridPoint_le num hden
  have hlt := lt_two_pow_gridOf (unitsOfRatio num den)
  generalize gridOf (unitsOfRatio num den) = k at hnear hlt
  have hpos : (0 : ℚ) < 2 ^ k := by positivity
  have habove := neg_abs_le (unitsOfRatio num den - gridPoint num den * 2 ^ k)
  have hpoint : (gridPoint num den : ℚ) * 2 ^ k < (2 ^ 53 + 1) * 2 ^ k := by
    rw [pow_add] at hlt
    linarith
  have hcast := lt_of_mul_lt_mul_right hpoint hpos.le
  exact Nat.lt_succ_iff.mp (by exact_mod_cast hcast)

theorem units_of_ofRatio (hden : 0 < den) (h : ofRatio num den = some m) :
    m.units = gridPoint num den * 2 ^ gridOf (unitsOfRatio num den) := by
  rw [units_eq]
  rcases ofRatio_cases h with ⟨hsignificand, hscale⟩ | ⟨hge, hsignificand, hscale⟩
  · rw [hsignificand, hscale]
  · have hpoint : gridPoint num den = 2 ^ 53 := le_antisymm (gridPoint_le hden) hge
    rw [hsignificand, hscale, hpoint, pow_succ]
    ring

/-- **A rounded quotient is at most half the width of the grid away from it.** -/
theorem two_mul_abs_sub_units_le (hden : 0 < den) (h : ofRatio num den = some m) :
    2 * |unitsOfRatio num den - m.units| ≤ 2 ^ gridOf (unitsOfRatio num den) := by
  rw [units_of_ofRatio hden h]
  push_cast
  exact two_mul_abs_sub_gridPoint_le num hden

theorem gridOf_le_scale (h : ofRatio num den = some m) :
    gridOf (unitsOfRatio num den) ≤ m.scale := by
  rcases ofRatio_cases h with ⟨-, hscale⟩ | ⟨-, -, hscale⟩
  · exact hscale.ge
  · omega

theorem units_lt_of_ofRatio (h : ofRatio num den = some m) :
    unitsOfRatio num den < 2 ^ (53 + greatestScale) := by
  have hscale := (gridOf_le_scale h).trans (scale_le_greatestScale m)
  exact (lt_two_pow_gridOf _).trans_le (pow_le_pow_right₀ (by norm_num) (by omega))

/-- Where the grid is coarser than the units, a rounded quotient is off by one part in `2 ^ 53`
    at most. -/
theorem two_pow_mul_abs_sub_le (hden : 0 < den) (h : ofRatio num den = some m)
    (hlarge : 2 ^ 52 ≤ unitsOfRatio num den) :
    2 ^ 53 * |unitsOfRatio num den - m.units| ≤ unitsOfRatio num den := by
  have hnear := two_mul_abs_sub_units_le hden h
  rcases two_pow_gridOf_le (unitsOfRatio num den) with hgrid | hgrid
  · rw [hgrid] at hnear
    linarith
  · rw [le_div_iff₀ (by norm_num)] at hgrid
    linarith

/-- Where the units are the grid, it is off by one half at most. -/
theorem two_mul_abs_sub_le_one (hden : 0 < den) (h : ofRatio num den = some m)
    (hsmall : unitsOfRatio num den < 2 ^ 52) : 2 * |unitsOfRatio num den - m.units| ≤ 1 := by
  have hgrid : gridOf (unitsOfRatio num den) = 0 := by
    apply Nat.le_zero.mp
    apply gridOf_le
    rw [add_zero]
    exact hsmall.trans (by norm_num)
  have hnear := two_mul_abs_sub_units_le hden h
  rwa [hgrid, pow_zero] at hnear

/-- Only a quotient that is at least as near to the power of two beyond the largest magnitude as
    to that has no magnitude. -/
theorem exists_ofRatio_of_lt (hden : 0 < den)
    (h : unitsOfRatio num den < (2 ^ 53 - 1 / 2) * 2 ^ greatestScale) :
    ∃ m, ofRatio num den = some m := by
  have hpos : (0 : ℚ) < 2 ^ greatestScale := by positivity
  have hgrid : gridOf (unitsOfRatio num den) ≤ greatestScale := by
    apply gridOf_le
    rw [pow_add]
    exact h.trans (mul_lt_mul_of_pos_right (by norm_num) hpos)
  apply exists_ofRatio hgrid
  intro hlast
  have hnear := two_mul_abs_sub_gridPoint_le num hden
  rw [hlast] at hnear
  have hbelow := neg_abs_le (unitsOfRatio num den - gridPoint num den * 2 ^ greatestScale)
  have hpoint : (gridPoint num den : ℚ) * 2 ^ greatestScale < 2 ^ 53 * 2 ^ greatestScale := by
    linarith
  exact_mod_cast lt_of_mul_lt_mul_right hpoint hpos.le

/-- A value that is nearer to a magnitude than half the width of its grid lies on no coarser grid
    than the magnitude. -/
theorem gridOf_le_scale_of_near {x : ℚ} (h : 2 * |x - m.units| < 2 ^ gridOf x) :
    gridOf x ≤ m.scale := by
  by_contra hlt
  have hgrid : 2 ^ (52 + gridOf x) ≤ x := (gridOf_eq_zero_or x).resolve_left (by omega)
  -- Below the power of two at which the grid of `x` starts, `m` is at least half a width away.
  have hunits : 2 * (m.units : ℚ) ≤ (2 ^ 53 - 1) * 2 ^ gridOf x := by
    have hle : 2 * m.units ≤ (2 ^ 53 - 1) * 2 ^ gridOf x := by
      have hpow : 2 ^ (m.scale + 1) ≤ 2 ^ gridOf x := Nat.pow_le_pow_right (by decide) (by omega)
      have hmax := units_le m
      rw [pow_succ] at hpow
      omega
    have hcast : ((2 * m.units : ℕ) : ℚ) ≤ ((2 ^ 53 - 1) * 2 ^ gridOf x : ℕ) := by
      exact_mod_cast hle
    push_cast at hcast
    linarith
  have habs := le_abs_self (x - m.units)
  rw [pow_add] at hgrid
  linarith

/-- **A quotient that is nearer to a magnitude than half the width of the grid is rounded to
    it.** -/
theorem ofRatio_of_near (hden : 0 < den)
    (h : 2 * |unitsOfRatio num den - m.units| < 2 ^ gridOf (unitsOfRatio num den)) :
    ofRatio num den = some m := by
  have hscale := gridOf_le_scale_of_near h
  obtain ⟨n, hn⟩ : ∃ n, ofRatio num den = some n := by
    apply exists_ofRatio_of_lt hden
    have hgrid : (2 : ℚ) ^ gridOf (unitsOfRatio num den) ≤ 2 ^ m.scale :=
      pow_le_pow_right₀ (by norm_num) hscale
    have hlast : (2 : ℚ) ^ m.scale ≤ 2 ^ greatestScale :=
      pow_le_pow_right₀ (by norm_num) (scale_le_greatestScale m)
    have hunits := cast_units_le m
    have habs := le_abs_self (unitsOfRatio num den - m.units)
    linarith
  have hnear := two_mul_abs_sub_units_le hden hn
  have hpoint : 2 ^ gridOf (unitsOfRatio num den) ∣ n.units :=
    Dvd.intro_left _ (units_of_ofRatio hden hn).symm
  have hdvd : 2 ^ gridOf (unitsOfRatio num den) ∣ m.units :=
    (Nat.pow_dvd_pow 2 hscale).trans (two_pow_scale_dvd_units m)
  have hclose : |(n.units : ℚ) - m.units| < (2 ^ gridOf (unitsOfRatio num den) : ℕ) := by
    have htriangle := abs_sub_le (n.units : ℚ) (unitsOfRatio num den) m.units
    rw [abs_sub_comm (n.units : ℚ) (unitsOfRatio num den)] at htriangle
    rw [Nat.cast_pow, Nat.cast_ofNat]
    linarith
  rw [hn, units_injective (eq_of_dvd_of_abs_sub_lt (by positivity) hpoint hdvd hclose)]

/-- A quotient of 53 bits at most is rounded to itself. -/
theorem units_of_ofRatio_of_eq {a k : ℕ} (hden : 0 < den) (h : ofRatio num den = some m)
    (hvalue : unitsOfRatio num den = (a * 2 ^ k : ℕ)) (ha : a < 2 ^ 53) : m.units = a * 2 ^ k := by
  have hgrid : gridOf (unitsOfRatio num den) ≤ k := by
    apply gridOf_le
    rw [hvalue, pow_add]
    push_cast
    gcongr
    exact_mod_cast ha
  have hnear := two_mul_abs_sub_units_le hden h
  have hpoint : 2 ^ gridOf (unitsOfRatio num den) ∣ m.units :=
    Dvd.intro_left _ (units_of_ofRatio hden h).symm
  have hdvd : 2 ^ gridOf (unitsOfRatio num den) ∣ a * 2 ^ k :=
    (Nat.pow_dvd_pow 2 hgrid).trans (Dvd.intro_left a rfl)
  apply eq_of_dvd_of_abs_sub_lt (by positivity) hpoint hdvd
  rw [← hvalue, abs_sub_comm, Nat.cast_pow, Nat.cast_ofNat]
  have hpos : (0 : ℚ) < 2 ^ gridOf (unitsOfRatio num den) := by positivity
  linarith

/-! ### Equal quotients -/

theorem ofRatio_mul_right (num den : ℕ) {k : ℕ} (hk : 0 < k) :
    ofRatio (num * k) (den * k) = ofRatio num den := by
  have hdiv : num * k * unitsOfOne / (den * k) = num * unitsOfOne / den := by
    rw [mul_right_comm, Nat.mul_div_mul_right _ _ hk]
  have hround : ∀ scale, roundDiv (num * k * unitsOfOne) (den * k * Nat.pow 2 scale) =
      roundDiv (num * unitsOfOne) (den * Nat.pow 2 scale) := by
    intro scale
    rw [mul_right_comm, mul_right_comm den, roundDiv_mul_right _ _ hk]
  simp only [ofRatio, hdiv, hround]

/-- Equal quotients are rounded alike. -/
theorem ofRatio_congr {num' den' : ℕ} (hden : 0 < den) (hden' : 0 < den')
    (h : num * den' = num' * den) : ofRatio num den = ofRatio num' den' := by
  rw [← ofRatio_mul_right num den hden', ← ofRatio_mul_right num' den' hden, h, mul_comm den]

end Ratio

end Magnitude

end Stocklist
