/-
  Stocklist/Binary64.lean
  =======================
  **Double-precision numbers as exact values.**

  A finite magnitude is a significand below `2 ^ 53` times a power of two, counted in
  units of `2 ^ -1074`, the distance between the smallest doubles.  So a magnitude *is*
  a natural number of units (`Magnitude.units`), and every question about it — does this
  decimal read as that double, which of two decimals is nearer — is one of exact natural
  arithmetic.

  All rounding goes through `Magnitude.ofRatio`, which takes a quotient of two natural
  numbers to the nearest magnitude, a tie to the even significand.
-/

namespace Stocklist

/-! ### Rounding a quotient -/

/-- The integer nearest to `num / den`, a tie going to the even one. -/
def roundDiv (num den : Nat) : Nat :=
  let q := num / den
  let r := num % den
  if 2 * r < den then q
  else if den < 2 * r then q + 1
  else q + q % 2

theorem div_le_roundDiv (num den : Nat) : num / den ≤ roundDiv num den := by
  simp only [roundDiv]
  split
  · omega
  · split <;> omega

/-! ### Magnitudes -/

/-- The absolute value of a finite double: `significand * 2 ^ scale` units of `2 ^ -1074`.
    Below the least scale every significand occurs, above it only those of 53 bits, so a
    value has one representation. -/
structure Magnitude where
  significand : Nat
  scale : Nat
  significand_lt : significand < Nat.pow 2 53 := by decide
  scale_le : scale ≤ 2045 := by decide
  canonical : scale = 0 ∨ Nat.pow 2 52 ≤ significand := by decide
deriving DecidableEq, Repr

namespace Magnitude

def units (m : Magnitude) : Nat :=
  m.significand * Nat.pow 2 m.scale

/-- The number of units in one. -/
@[irreducible]
def unitsOfOne : Nat :=
  Nat.pow 2 1074

def zero : Magnitude where
  significand := 0
  scale := 0

/-- The scale at which a value of `q` whole units has at most 53 bits. -/
def scaleOf (q : Nat) : Nat :=
  q.log2 - 52

/-- A rounded significand is a full one wherever the scale is not the least. -/
theorem canonical_roundDiv (num den : Nat) :
    scaleOf (num / den) = 0 ∨
      Nat.pow 2 52 ≤ roundDiv num (den * Nat.pow 2 (scaleOf (num / den))) := by
  by_cases h : scaleOf (num / den) = 0
  · exact Or.inl h
  · refine Or.inr (Nat.le_trans ?_ (div_le_roundDiv _ _))
    have hq : num / den ≠ 0 := by
      intro h0
      simp [scaleOf, h0] at h
    rw [← Nat.div_div_eq_div_mul]
    refine (Nat.le_div_iff_mul_le (Nat.two_pow_pos _)).mpr ?_
    refine Nat.le_trans (Nat.le_of_eq (Nat.pow_add 2 52 _).symm) ?_
    refine Nat.le_trans (Nat.pow_le_pow_right (by decide) ?_) (Nat.log2_self_le hq)
    simp only [scaleOf] at h ⊢
    omega

/-- The magnitude nearest to `num / den`, a tie going to the even significand; `none` if
    the value rounds beyond the largest magnitude. -/
def ofRatio (num den : Nat) : Option Magnitude :=
  let n := num * unitsOfOne
  let scale := scaleOf (n / den)
  let s := roundDiv n (den * Nat.pow 2 scale)
  if hs : s < Nat.pow 2 53 then
    if hk : scale ≤ 2045 then some ⟨s, scale, hs, hk, canonical_roundDiv n den⟩ else none
  else if hk : scale + 1 ≤ 2045 then
    -- The significand was rounded up to a power of two, which is one bit longer.
    some ⟨Nat.pow 2 52, scale + 1, by decide, hk, Or.inr (Nat.le_refl _)⟩
  else none

def ofNat (n : Nat) : Option Magnitude :=
  ofRatio n 1

def mul (a b : Magnitude) : Option Magnitude :=
  ofRatio (a.units * b.units) (unitsOfOne * unitsOfOne)

def div (a b : Magnitude) : Option Magnitude :=
  ofRatio a.units b.units

end Magnitude

/-! ### Signed values -/

/-- A double-precision number.  Zero has a sign. -/
inductive Binary64 where
  | finite (negative : Bool) (magnitude : Magnitude)
  | infinite (negative : Bool)
  | nan
deriving DecidableEq, Repr

namespace Binary64

/-- Positive zero, which stands in for a number that cannot be used. -/
def zero : Binary64 := finite false .zero

def isFinite : Binary64 → Bool
  | finite .. => true
  | infinite _ | nan => false

/-- A signed value from a rounded magnitude; one beyond the largest is infinite. -/
def ofMagnitude (negative : Bool) : Option Magnitude → Binary64
  | some m => finite negative m
  | none => infinite negative

end Binary64

end Stocklist
