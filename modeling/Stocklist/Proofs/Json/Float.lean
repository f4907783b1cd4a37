/-
  Stocklist/Proofs/Json/Float.lean
  ================================
  **What becomes of a double that is written and read.**

  The text of a finite double is read as a finite double of its sign.  The reader rounds in
  steps, so the magnitude can be another one, but less than six last places away
  (`ComesBackAs`).  A magnitude that some decimal of up to fifteen digits reads as comes back
  as itself.
-/
import Mathlib.Tactic
import Stocklist.Proofs.Json.Scale
import Stocklist.Proofs.Json.Value

namespace Stocklist

open Magnitude

namespace Magnitude

/-- The magnitude is the nearest to a decimal of up to fifteen significant digits and up to 22
    places after the point. -/
def HasFewDigits (m : Magnitude) : Prop :=
  ∃ c k : ℕ, c < 10 ^ 15 ∧ k ≤ 22 ∧ (⟨c, -k⟩ : Decimal).round = some m

/-- What may come back of the magnitude `m` that was written. -/
structure ComesBackAs (m r : Magnitude) : Prop where
  near : |(r.units : ℚ) - m.units| < 6 * 2 ^ m.scale
  eq_of_few_digits : m.HasFewDigits → r = m

theorem ComesBackAs.refl (m : Magnitude) : ComesBackAs m m := by
  constructor
  · rw [sub_self, abs_zero]
    positivity
  · intro _
    rfl

end Magnitude

namespace Json

open Decimal (shortest)

variable {m : Magnitude}

/-! ### Few digits -/

theorem coefficient_shortest_zero : (shortest zero).coefficient = 0 := by
  decide +kernel

theorem ten_pow_mul_le_unitsOfOne : 10 ^ 22 * 2 ^ 52 ≤ unitsOfOne := by
  decide +kernel

theorem two_pow_le_units {c k : ℕ} (hc : c ≠ 0) (hk : k ≤ 22) :
    2 ^ 52 ≤ (⟨c, -k⟩ : Decimal).units := by
  have hone : (1 : ℚ) ≤ c := by exact_mod_cast Nat.one_le_iff_ne_zero.mpr hc
  have hpow : (10 : ℚ) ^ k ≤ 10 ^ 22 := pow_le_pow_right₀ (by norm_num) hk
  have hgreat : (10 : ℚ) ^ 22 * 2 ^ 52 ≤ unitsOfOne := by
    exact_mod_cast ten_pow_mul_le_unitsOfOne
  rw [Decimal.units, zpow_neg, zpow_natCast, ← div_eq_mul_inv, div_mul_eq_mul_div,
    le_div_iff₀ (by positivity)]
  calc (2 : ℚ) ^ 52 * 10 ^ k ≤ 2 ^ 52 * 10 ^ 22 := by gcongr
    _ = 10 ^ 22 * 2 ^ 52 := mul_comm _ _
    _ ≤ unitsOfOne := hgreat
    _ ≤ c * unitsOfOne := le_mul_of_one_le_left cast_unitsOfOne_pos.le hone

/-- Significand and power of ten of the text have at most 53 bits. -/
theorem exists_of_few_digits (h : m.HasFewDigits) :
    ∃ a b : ℕ, (shortest m).spelling.value.coefficient = a * 2 ^ b ∧ a < 2 ^ 53 ∧
      -22 ≤ (shortest m).spelling.value.exponent ∧
      (shortest m).spelling.value.exponent ≤ 22 := by
  obtain ⟨c, k, hc, hk, hround⟩ := h
  by_cases hzero : (shortest m).coefficient = 0
  · rw [Decimal.value_spelling_of_eq_zero hzero]
    exact ⟨0, 0, rfl, by norm_num, by norm_num, by norm_num⟩
  · have hne : c ≠ 0 := by
      rintro rfl
      have hm : zero = m := Option.some.inj hround
      rw [← hm] at hzero
      exact hzero coefficient_shortest_zero
    exact Decimal.spelling_of_few_digits hzero hc hk
      (Decimal.units_shortest hround (two_pow_le_units hne hk) hc)

theorem coefficient_lt (m : Magnitude) : (shortest m).spelling.value.coefficient < 2 ^ 64 :=
  (Decimal.coefficient_spelling_le (Decimal.coefficient_shortest_le m)).trans_lt (by norm_num)

/-- The text of a magnitude denotes a decimal that reads as it. -/
theorem round_value (m : Magnitude) : (shortest m).spelling.value.round = some m := by
  rw [Decimal.round_congr (Decimal.units_spelling _)]
  exact Decimal.round_shortest m

/-- **A magnitude of few digits comes back as itself.** -/
theorem scale_of_few_digits (h : m.HasFewDigits) :
    scale (shortest m).spelling.value.coefficient (shortest m).spelling.value.exponent =
      some m := by
  obtain ⟨a, b, hcoefficient, ha, hlow, hhigh⟩ := exists_of_few_digits h
  have hlt := coefficient_lt m
  have hround := round_value m
  generalize (shortest m).spelling.value = d at hcoefficient hlow hhigh hlt hround ⊢
  obtain ⟨n, e⟩ := d
  obtain rfl : n = a * 2 ^ b := hcoefficient
  exact (scale_eq_round ha hlt hlow hhigh).trans hround

/-! ### The largest magnitudes

What rounding adds to one of these can be too large for any magnitude, so they are looked at
one by one. -/

/-- The largest magnitude is `last 0`. -/
def last (i : Fin 5) : Magnitude where
  significand := 2 ^ 53 - 1 - i
  scale := 2045
  significand_lt := by rw [Nat.pow_eq]; omega
  canonical := Or.inr (by rw [Nat.pow_eq]; omega)

theorem scale_eq_greatestScale (i : Fin 5) : (last i).scale = greatestScale := by
  rw [greatestScale]
  rfl

theorem exists_eq_last (h : (2 ^ 53 - 6) * 2 ^ greatestScale < m.units) : ∃ i, m = last i := by
  have hscale : m.scale = greatestScale := by
    by_contra hne
    have hlt := units_lt m
    have hle := scale_le_greatestScale m
    have hpow : 2 ^ (53 + m.scale) ≤ 2 ^ 52 * 2 ^ greatestScale := by
      rw [← pow_add]
      exact Nat.pow_le_pow_right (by decide) (by omega)
    have hless : 2 ^ 52 * 2 ^ greatestScale ≤ (2 ^ 53 - 6) * 2 ^ greatestScale :=
      Nat.mul_le_mul_right _ (by norm_num)
    omega
  have hsignificand : 2 ^ 53 - 6 < m.significand := by
    rw [units_eq, hscale] at h
    exact lt_of_mul_lt_mul_right h (Nat.zero_le _)
  have hlt := m.significand_lt
  rw [Nat.pow_eq] at hlt
  refine ⟨⟨2 ^ 53 - 1 - m.significand, by omega⟩, units_injective ?_⟩
  have hlast : (last ⟨2 ^ 53 - 1 - m.significand, by omega⟩).significand = m.significand := by
    rw [last]
    dsimp only
    omega
  rw [units_eq, units_eq, hlast, hscale, scale_eq_greatestScale]

theorem scale_last : ∀ i, (scale (shortest (last i)).spelling.value.coefficient
    (shortest (last i)).spelling.value.exponent).any fun r =>
      r.units < (last i).units + 6 * 2 ^ (last i).scale ∧
        (last i).units < r.units + 6 * 2 ^ (last i).scale := by
  decide +kernel

theorem exists_scale_last (i : Fin 5) :
    ∃ r, scale (shortest (last i)).spelling.value.coefficient
        (shortest (last i)).spelling.value.exponent = some r ∧
      |(r.units : ℚ) - (last i).units| < 6 * 2 ^ (last i).scale := by
  have hlast := scale_last i
  rw [Option.any_eq_true] at hlast
  obtain ⟨r, hr, hunits⟩ := hlast
  refine ⟨r, hr, ?_⟩
  rw [decide_eq_true_eq] at hunits
  obtain ⟨habove, hbelow⟩ := hunits
  generalize (last i).units = u at habove hbelow ⊢
  generalize (last i).scale = k at habove hbelow ⊢
  have habove' : (r.units : ℚ) < u + 6 * 2 ^ k := by exact_mod_cast habove
  have hbelow' : (u : ℚ) < r.units + 6 * 2 ^ k := by exact_mod_cast hbelow
  rw [abs_lt]
  constructor
  · linarith
  · linarith

/-! ### Every magnitude -/

theorem hasFewDigits_of_eq_zero (h : (shortest m).coefficient = 0) : m.HasFewDigits := by
  have hround := Decimal.round_shortest m
  rw [Decimal.round, if_pos h] at hround
  exact ⟨0, 0, by norm_num, by norm_num, hround⟩

theorem exists_scale_shortest (hzero : (shortest m).coefficient ≠ 0) :
    ∃ r, scale (shortest m).spelling.value.coefficient (shortest m).spelling.value.exponent =
        some r ∧
      |(r.units : ℚ) - m.units| < 6 * 2 ^ m.scale := by
  by_cases hlast : m.units ≤ (2 ^ 53 - 6) * 2 ^ greatestScale
  · have hm : m ≠ zero := by
      rintro rfl
      exact hzero coefficient_shortest_zero
    exact exists_scale_near (coefficient_lt m)
      (Nat.pos_of_ne_zero (Decimal.coefficient_spelling_ne_zero hzero)) (round_value m) hm hlast
  · obtain ⟨i, rfl⟩ := exists_eq_last (not_le.mp hlast)
    exact exists_scale_last i

/-- **The reader makes a magnitude of every written one.** -/
theorem exists_comesBackAs (m : Magnitude) :
    ∃ r, scale (shortest m).spelling.value.coefficient (shortest m).spelling.value.exponent =
      some r ∧ m.ComesBackAs r := by
  by_cases hfew : m.HasFewDigits
  · exact ⟨m, scale_of_few_digits hfew, .refl m⟩
  · obtain ⟨r, hr, hnear⟩ := exists_scale_shortest fun hzero =>
      hfew (hasFewDigits_of_eq_zero hzero)
    exact ⟨r, hr, hnear, fun h => absurd h hfew⟩

/-- The exponent of a text is far below the limit of the reader. -/
theorem natAbs_exponent_le {e : ℤ} (h : (shortest m).spelling.exponent = some e) :
    e.natAbs ≤ exponentLimit := by
  have hzero : (shortest m).coefficient ≠ 0 := by
    intro hzero
    rw [Decimal.spelling, if_pos hzero] at h
    cases h
  have hm : m ≠ zero := by
    rintro rfl
    exact hzero coefficient_shortest_zero
  have hle := Decimal.coefficient_shortest_le m
  have hbounds := exponent_bounds (e := (shortest m).exponent) (hle.trans_lt (by norm_num))
    (Nat.pos_of_ne_zero hzero) (Decimal.round_shortest m) hm
  have hlength : (Decimal.digits (shortest m).coefficient).length ≤ 18 :=
    (Nat.length_toDigits_le_iff (by decide) (by decide)).mpr (hle.trans_lt (by norm_num))
  have hleading := Decimal.eq_leading_of_mem_exponent h
  rw [Decimal.leading] at hleading
  rw [greatestPower] at hbounds
  rw [exponentLimit]
  omega

/-- **A written double is read as a double of its sign that comes back of it.** -/
theorem readsAs_floatText (negative : Bool) (m : Magnitude) :
    ReadsAs (fun v => ∃ r, v = .number (.float (.finite negative r)) ∧ m.ComesBackAs r)
      (Wire.floatText (.finite negative m)) := by
  obtain ⟨r, hr, hcomes⟩ := exists_comesBackAs m
  have hvalue : ∀ rest, (ofSpelling negative (shortest m).spelling).value rest =
      .ok (.float (.finite negative r)) := by
    intro rest
    rw [value_ofSpelling negative rest (Decimal.marked_spelling _),
      float_ofSpelling negative rest (coefficient_lt m) fun e he => natAbs_exponent_le he, hr]
    rfl
  have hlegible := Decimal.legible_spelling (shortest m)
  rw [Wire.floatText, Binary64.text, String.toList_ofList, ← Decimal.text_spelling]
  cases negative with
  | false =>
    exact (readsAs_spelling hlegible hvalue).mono fun v hv => ⟨r, hv, hcomes⟩
  | true =>
    exact (readsAs_neg_spelling hlegible hvalue).mono fun v hv => ⟨r, hv, hcomes⟩

end Json

end Stocklist
