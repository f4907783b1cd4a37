/-
  Stocklist/Proofs/Decimal/Shortest.lean
  ======================================
  **The shortest decimal of a magnitude.**

  It reads back (`round_shortest`), and it has at most seventeen digits
  (`coefficient_shortest_le`): on the grid of seventeen digits the nearest point to a
  magnitude is nearer to it than the next magnitude is.  A decimal of up to fifteen digits,
  in turn, is farther from the others than two decimals of one magnitude can be, so it *is*
  the shortest decimal of the magnitude that it reads as (`units_shortest`).
-/
import Mathlib.Tactic
import Stocklist.Decimal.Shortest
import Stocklist.Proofs.Decimal.Rounding

namespace Stocklist

open Magnitude

namespace Decimal

variable {d e : Decimal} {m : Magnitude}

/-! ### The exact expansion -/

theorem units_exact (m : Magnitude) : (exact m).units = m.units := by
  rw [exact, units, Magnitude.units_eq]
  split_ifs with hscale
  · obtain ⟨k, hk⟩ := Nat.exists_eq_add_of_le hscale
    have hone : (2 : ℚ) ^ m.scale = unitsOfOne * 2 ^ k := by
      have hnat : 2 ^ m.scale = unitsOfOne * 2 ^ k := by rw [unitsOfOne_eq, ← pow_add, hk]
      exact_mod_cast hnat
    have hlog : m.scale - 1074 = k := by omega
    push_cast
    rw [hone, hlog, Nat.pow_eq]
    push_cast
    ring
  · obtain ⟨k, hk⟩ : ∃ k, m.scale + k = 1074 := ⟨1074 - m.scale, by omega⟩
    have hone : (unitsOfOne : ℚ) = 2 ^ m.scale * 2 ^ k := by
      have hnat : unitsOfOne = 2 ^ m.scale * 2 ^ k := by rw [← pow_add, hk, unitsOfOne_eq]
      exact_mod_cast hnat
    have hexp : (m.scale : ℤ) - 1074 = -(k : ℤ) := by omega
    have hlog : 1074 - m.scale = k := by omega
    rw [hone, hexp, hlog, zpow_neg, zpow_natCast, Nat.pow_eq]
    push_cast
    have hten : (10 : ℚ) ^ k = 5 ^ k * 2 ^ k := by rw [← mul_pow]; norm_num
    rw [hten]
    field_simp

/-- **The exact expansion reads back.** -/
theorem round_exact (m : Magnitude) : (exact m).round = some m := by
  apply round_of_near
  rw [units_exact, sub_self, abs_zero, mul_zero]
  positivity

/-! ### Neighbours on a grid -/

theorem mem_neighbours_iff {j : ℕ} {c : Decimal} :
    c ∈ d.neighbours j ↔ c.exponent = d.exponent + j ∧
      (c.coefficient = d.coefficient / 10 ^ j ∨ c.coefficient = d.coefficient / 10 ^ j + 1) := by
  have hnear : roundDiv d.coefficient (10 ^ j) = d.coefficient / 10 ^ j ∨
      roundDiv d.coefficient (10 ^ j) = d.coefficient / 10 ^ j + 1 := by
    rw [roundDiv]
    split_ifs <;> omega
  obtain ⟨coefficient, exponent⟩ := c
  simp only [neighbours, Nat.pow_eq, List.mem_cons, List.not_mem_nil, or_false, mk.injEq]
  rcases hnear with hnear | hnear
  · simp [hnear]
    tauto
  · simp [hnear]
    tauto

/-- On the coarsest grid on which something reads back, or on a coarser one, lies the outcome. -/
theorem exists_grid_of_coarsest {i j : ℕ} (hi : 0 < i) (hij : i ≤ j) {c : Decimal}
    (hc : c ∈ d.neighbours i) (hround : c.round = some m) :
    ∃ k, i ≤ k ∧ k ≤ j ∧ coarsest m d j ∈ d.neighbours k ∧ (coarsest m d j).round = some m := by
  induction j with
  | zero => omega
  | succ j ih =>
    rw [coarsest]
    split
    · next b hb =>
      refine ⟨j + 1, hij, le_refl _, List.mem_of_find?_eq_some hb, ?_⟩
      simpa using List.find?_some hb
    · next hnone =>
      have hle : i ≤ j := by
        by_contra hlt
        obtain rfl : i = j + 1 := by omega
        rw [List.find?_eq_none] at hnone
        exact hnone c hc (by simpa using hround)
      obtain ⟨k, hik, hkj, hmem⟩ := ih hle
      exact ⟨k, hik, by omega, hmem⟩

theorem coarsest_eq_or_mem (m : Magnitude) (d : Decimal) (j : ℕ) :
    coarsest m d j = d ∨ ∃ k, 0 < k ∧ coarsest m d j ∈ d.neighbours k := by
  induction j with
  | zero => exact Or.inl rfl
  | succ j ih =>
    rw [coarsest]
    split
    · next b hb => exact Or.inr ⟨j + 1, Nat.succ_pos j, List.mem_of_find?_eq_some hb⟩
    · exact ih

/-- **The shortest decimal reads back.** -/
theorem round_shortest (m : Magnitude) : (shortest m).round = some m := by
  rw [shortest]
  rcases coarsest_eq_or_round m (exact m) ((digits (exact m).coefficient).length - 1) with h | h
  · rw [h]
    exact round_exact m
  · exact h

/-! ### The number of digits -/

theorem lt_ten_pow_length (n : ℕ) : n < 10 ^ (digits n).length :=
  (Nat.length_toDigits_le_iff (by decide) Nat.length_toDigits_pos).mp (le_refl _)

theorem ten_pow_le_of_lt_length {n k : ℕ} (hk : 0 < k) (h : k < (digits n).length) :
    10 ^ k ≤ n := by
  by_contra hlt
  have hle := (Nat.length_toDigits_le_iff (by decide : 1 < 10) hk).mpr (not_le.mp hlt)
  exact absurd h (not_lt.mpr hle)

theorem lt_length_of_ten_pow_le {n k : ℕ} (h : 10 ^ k ≤ n) : k < (digits n).length := by
  by_contra hle
  have hpow : 10 ^ (digits n).length ≤ 10 ^ k := Nat.pow_le_pow_right (by decide) (not_lt.mp hle)
  exact absurd (lt_ten_pow_length n) (not_lt.mpr (hpow.trans h))

/-- The unit of the last digit of a decimal. -/
theorem units_eq_mul {c : ℕ} {e : ℤ} (i : ℕ) :
    (⟨c, e + i⟩ : Decimal).units = c * 10 ^ i * (10 ^ e * unitsOfOne) := by
  rw [units, zpow_add₀ (by norm_num), zpow_natCast]
  ring

theorem unit_pos (e : ℤ) : (0 : ℚ) < 10 ^ e * unitsOfOne := by
  have hone : (0 : ℚ) < unitsOfOne := by exact_mod_cast unitsOfOne_pos
  positivity

/-- On the grid of 17 digits the nearest decimal reads back: it is off by half of the last
    digit at most, which is less than half the distance of two magnitudes. -/
theorem round_nearest_of_le {i : ℕ} (hd : d.units = m.units) (h : 10 ^ (16 + i) ≤ d.coefficient) :
    (⟨roundDiv d.coefficient (10 ^ i), d.exponent + i⟩ : Decimal).round = some m := by
  apply round_of_near
  have hunit := unit_pos d.exponent
  have hvalue : (m.units : ℚ) = d.coefficient * (10 ^ d.exponent * unitsOfOne) := by
    rw [← hd, units]
    ring
  have hnear := two_mul_abs_roundDiv_sub_le d.coefficient (by positivity : 0 < 10 ^ i)
  have hlarge : (10 : ℚ) ^ 16 * 10 ^ i ≤ d.coefficient := by
    rw [← pow_add]
    exact_mod_cast h
  push_cast at hnear
  rw [units_eq_mul, hvalue]
  generalize (roundDiv d.coefficient (10 ^ i) : ℚ) = near at hnear ⊢
  generalize (d.coefficient : ℚ) = c at hnear hlarge ⊢
  generalize (10 : ℚ) ^ d.exponent * unitsOfOne = unit at hunit ⊢
  have hwidth : 0 < 10 ^ i * unit := by positivity
  have hsplit : near * 10 ^ i * unit - c * unit = (near - c / 10 ^ i) * (10 ^ i * unit) := by
    field_simp
  have hstep : 2 * |near * 10 ^ i * unit - c * unit| ≤ 10 ^ i * unit := by
    rw [hsplit, abs_mul, abs_of_pos hwidth, ← mul_assoc]
    exact mul_le_of_le_one_left hwidth.le hnear
  have hsmall : 10 ^ 16 * (10 ^ i * unit) ≤ c * unit := by
    rw [← mul_assoc]
    exact mul_le_mul_of_nonneg_right hlarge hunit.le
  have hgrid := lt_two_pow_gridOf (near * 10 ^ i * unit)
  generalize near * 10 ^ i * unit = x at hstep hgrid ⊢
  rw [pow_add] at hgrid
  have hbelow := neg_abs_le (x - c * unit)
  by_contra hle
  linarith

/-- **Seventeen digits are enough for every magnitude.** -/
theorem coefficient_shortest_le (m : Magnitude) : (shortest m).coefficient ≤ 10 ^ 17 := by
  rw [shortest]
  generalize hd : exact m = d
  have hunits : d.units = m.units := by rw [← hd, units_exact]
  have hlt := lt_ten_pow_length d.coefficient
  by_cases hlength : (digits d.coefficient).length ≤ 17
  · have hpow : 10 ^ (digits d.coefficient).length ≤ 10 ^ 17 :=
      Nat.pow_le_pow_right (by decide) hlength
    rcases coarsest_eq_or_mem m d ((digits d.coefficient).length - 1) with h | ⟨k, hk, h⟩
    · rw [h]
      omega
    · have hcoefficient := (mem_neighbours_iff.mp h).2
      have hdiv : d.coefficient / 10 ^ k ≤ d.coefficient / 10 :=
        Nat.div_le_div_left (Nat.le_self_pow hk.ne' 10) (by decide)
      omega
  · obtain ⟨i, hi⟩ : ∃ i, (digits d.coefficient).length = 17 + i :=
      ⟨(digits d.coefficient).length - 17, by omega⟩
    have hlarge : 10 ^ (16 + i) ≤ d.coefficient := ten_pow_le_of_lt_length (by omega) (by omega)
    have hmem : (⟨roundDiv d.coefficient (10 ^ i), d.exponent + i⟩ : Decimal) ∈ d.neighbours i := by
      simp [neighbours]
    obtain ⟨k, hik, -, hk, -⟩ := exists_grid_of_coarsest (by omega)
      (by omega : i ≤ (digits d.coefficient).length - 1) hmem (round_nearest_of_le hunits hlarge)
    have hcoefficient := (mem_neighbours_iff.mp hk).2
    have hdiv : d.coefficient / 10 ^ k < 10 ^ 17 := by
      apply Nat.div_lt_of_lt_mul
      rw [hi] at hlt
      have hpow : 10 ^ i ≤ 10 ^ k := Nat.pow_le_pow_right (by decide) hik
      calc d.coefficient < 10 ^ (17 + i) := hlt
        _ = 10 ^ i * 10 ^ 17 := by rw [pow_add, mul_comm]
        _ ≤ 10 ^ k * 10 ^ 17 := Nat.mul_le_mul_right _ hpow
    omega

/-! ### Decimals of few digits -/

/-- A decimal that lies between a magnitude and one that reads back as it reads back too. -/
theorem round_of_between (hd : d.round = some m)
    (h : (m.units ≤ e.units ∧ e.units < d.units) ∨ (d.units < e.units ∧ e.units ≤ m.units)) :
    e.round = some m := by
  have hnear := two_mul_abs_sub_units_le hd
  have hscale := gridOf_units_le_scale hd
  have hgrid : gridOf d.units ≤ gridOf e.units := by
    rcases h with ⟨hme, -⟩ | ⟨hde, -⟩
    · by_cases hzero : m.scale = 0
      · omega
      · apply (le_gridOf (hme.trans' _)).trans'
        · exact hscale
        · exact_mod_cast le_units m hzero
    · exact gridOf_mono hde.le
  have hpow : (2 : ℚ) ^ gridOf d.units ≤ 2 ^ gridOf e.units := pow_le_pow_right₀ (by norm_num) hgrid
  apply round_of_near
  rcases h with ⟨hme, hed⟩ | ⟨hde, hem⟩
  · rw [abs_of_nonneg (by linarith)]
    rw [abs_of_nonneg (by linarith)] at hnear
    linarith
  · rw [abs_of_nonpos (by linarith)]
    rw [abs_of_nonpos (by linarith)] at hnear
    linarith

/-- If any decimal on a grid reads back, then so does a neighbour of the exact value. -/
theorem exists_neighbour {i : ℕ} (hd : d.units = m.units) (he : e.exponent = d.exponent + i)
    (hround : e.round = some m) : ∃ c ∈ d.neighbours i, c.round = some m := by
  obtain ⟨t, exponent⟩ := e
  obtain rfl : exponent = d.exponent + i := he
  have hunit := unit_pos d.exponent
  have hvalue : (m.units : ℚ) = d.coefficient * (10 ^ d.exponent * unitsOfOne) := by
    rw [← hd, units]
    ring
  have hbelow : d.coefficient / 10 ^ i * 10 ^ i ≤ d.coefficient := Nat.div_mul_le_self _ _
  have habove : d.coefficient ≤ (d.coefficient / 10 ^ i + 1) * 10 ^ i :=
    (Nat.lt_mul_of_div_lt (Nat.lt_succ_self _) (by positivity)).le
  generalize hq : d.coefficient / 10 ^ i = q at hbelow habove
  by_cases hle : t ≤ q
  · refine ⟨⟨q, d.exponent + i⟩, mem_neighbours_iff.mpr ⟨rfl, Or.inl hq.symm⟩, ?_⟩
    rcases hle.lt_or_eq with hlt | rfl
    · apply round_of_between hround
      right
      rw [units_eq_mul, units_eq_mul, hvalue]
      constructor
      · gcongr
      · gcongr
        exact_mod_cast hbelow
    · exact hround
  · refine ⟨⟨q + 1, d.exponent + i⟩, mem_neighbours_iff.mpr ⟨rfl, Or.inr (by rw [hq])⟩, ?_⟩
    rcases Nat.lt_or_eq_of_le (not_le.mp hle) with hlt | rfl
    · apply round_of_between hround
      left
      rw [units_eq_mul, units_eq_mul, hvalue]
      constructor
      · gcongr
        exact_mod_cast habove
      · gcongr
    · exact hround

/-- A decimal is near to the magnitude that it reads as, in proportion. -/
theorem two_pow_mul_abs_sub_le (hd : d.round = some m) (hlarge : 2 ^ 52 ≤ d.units) :
    2 ^ 53 * |d.units - m.units| ≤ d.units := by
  rw [round_eq_ofRatio] at hd
  rw [units_eq_unitsOfRatio] at hlarge ⊢
  exact Magnitude.two_pow_mul_abs_sub_le (by positivity) hd hlarge

/-- The shortest decimal has no finer grid than another one of two digits or more. -/
theorem exponent_le_shortest (hd : d.round = some m) (hlarge : 2 ^ 52 ≤ d.units)
    (htwo : 2 ≤ d.coefficient) : d.exponent ≤ (shortest m).exponent := by
  rw [shortest]
  generalize hx : exact m = x
  have hunits : x.units = m.units := by rw [← hx, units_exact]
  by_cases hfine : d.exponent ≤ x.exponent
  · rcases coarsest_eq_or_mem m x ((digits x.coefficient).length - 1) with h | ⟨k, -, h⟩
    · rw [h]
      exact hfine
    · have hexponent := (mem_neighbours_iff.mp h).1
      omega
  · obtain ⟨i, hi⟩ : ∃ i : ℕ, d.exponent = x.exponent + i :=
      ⟨(d.exponent - x.exponent).toNat, by omega⟩
    have hunit := unit_pos x.exponent
    have hdigits : 10 ^ i ≤ x.coefficient := by
      have hnear := two_pow_mul_abs_sub_le hd hlarge
      have habs := le_abs_self (d.units - m.units)
      have hvalue : (m.units : ℚ) = x.coefficient * (10 ^ x.exponent * unitsOfOne) := by
        rw [← hunits, units]
        ring
      have hd' : d.units = d.coefficient * 10 ^ i * (10 ^ x.exponent * unitsOfOne) := by
        rw [← units_eq_mul, ← hi]
      have htwo' : (2 : ℚ) * 10 ^ i * (10 ^ x.exponent * unitsOfOne) ≤ d.units := by
        rw [hd']
        gcongr
        exact_mod_cast htwo
      have hle : (10 : ℚ) ^ i * (10 ^ x.exponent * unitsOfOne) ≤
          x.coefficient * (10 ^ x.exponent * unitsOfOne) := by
        linarith
      exact_mod_cast le_of_mul_le_mul_right hle hunit
    have hlength := lt_length_of_ten_pow_le hdigits
    obtain ⟨c, hc, hround⟩ := exists_neighbour hunits hi hd
    obtain ⟨k, hik, -, hk, -⟩ := exists_grid_of_coarsest (by omega)
      (by omega : i ≤ (digits x.coefficient).length - 1) hc hround
    have hexponent := (mem_neighbours_iff.mp hk).1
    omega

/-- Two decimals of one magnitude are nearer to each other than one part in `2 ^ 51`. -/
theorem two_pow_mul_abs_sub_units_le (hd : d.round = some m) (he : e.round = some m)
    (hlarge : 2 ^ 52 ≤ d.units) : 2 ^ 51 * |e.units - d.units| ≤ d.units := by
  have hnear := two_pow_mul_abs_sub_le hd hlarge
  have hother := two_mul_abs_sub_units_le he
  have hscale : (2 : ℚ) ^ gridOf e.units ≤ 2 ^ m.scale :=
    pow_le_pow_right₀ (by norm_num) (gridOf_units_le_scale he)
  have hwidth : (2 : ℚ) ^ 52 * 2 ^ m.scale ≤ 2 * d.units := by
    by_cases hzero : m.scale = 0
    · rw [hzero]
      linarith
    · have hle : (2 : ℚ) ^ (52 + m.scale) ≤ m.units := by exact_mod_cast le_units m hzero
      have habs := neg_abs_le (d.units - m.units)
      rw [pow_add] at hle
      linarith
  have htriangle := abs_sub_le e.units m.units d.units
  rw [abs_sub_comm (m.units : ℚ)] at htriangle
  linarith

theorem units_shortest_of_two_le (hd : d.round = some m) (hlarge : 2 ^ 52 ≤ d.units)
    (hdigits : d.coefficient < 10 ^ 15) (htwo : 2 ≤ d.coefficient) :
    (shortest m).units = d.units := by
  have hnear := two_pow_mul_abs_sub_units_le hd (round_shortest m) hlarge
  have hexponent := exponent_le_shortest hd hlarge htwo
  generalize shortest m = r at hnear hexponent ⊢
  obtain ⟨j, hj⟩ : ∃ j : ℕ, r.exponent = d.exponent + j :=
    ⟨(r.exponent - d.exponent).toNat, by omega⟩
  have hunit := unit_pos d.exponent
  have hr : r.units = (r.coefficient * 10 ^ j : ℕ) * (10 ^ d.exponent * unitsOfOne) := by
    push_cast
    rw [← units_eq_mul, ← hj]
  have hd' : d.units = d.coefficient * (10 ^ d.exponent * unitsOfOne) := by
    rw [units]
    ring
  rw [hr, hd'] at hnear ⊢
  have hclose : |((r.coefficient * 10 ^ j : ℕ) : ℚ) - d.coefficient| < 1 := by
    rw [← sub_mul, abs_mul, abs_of_pos hunit, ← mul_assoc] at hnear
    have hle := le_of_mul_le_mul_right hnear hunit
    have hlt : (d.coefficient : ℚ) < 10 ^ 15 := by exact_mod_cast hdigits
    linarith
  rw [eq_of_abs_sub_lt_one hclose]

/-- **A decimal of up to fifteen digits is the shortest one of the magnitude that it reads as**,
    unless that is too small to have as many. -/
theorem units_shortest (hd : d.round = some m) (hlarge : 2 ^ 52 ≤ d.units)
    (hdigits : d.coefficient < 10 ^ 15) : (shortest m).units = d.units := by
  by_cases htwo : 2 ≤ d.coefficient
  · exact units_shortest_of_two_le hd hlarge hdigits htwo
  · have hone : d.coefficient = 1 := by
      have hne : d.coefficient ≠ 0 := by
        intro hzero
        rw [units, hzero] at hlarge
        norm_num at hlarge
      omega
    -- A single one is a ten on the next grid.
    have hten : (⟨10, d.exponent - 1⟩ : Decimal).units = d.units := by
      rw [units, units, hone, zpow_sub₀ (by norm_num)]
      push_cast
      ring
    rw [← hten]
    apply units_shortest_of_two_le
    · rw [round_congr hten]
      exact hd
    · rw [hten]
      exact hlarge
    · norm_num
    · norm_num

end Decimal

end Stocklist
