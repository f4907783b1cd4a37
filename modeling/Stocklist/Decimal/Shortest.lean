/-
  Stocklist/Decimal/Shortest.lean
  ===============================
  **The shortest decimal that reads back as a given double.**

  The exact decimal expansion of a magnitude reads back as that magnitude.  A shorter
  one is found by coarser and coarser grids: on the grid of `n` digits the only
  candidates are the two neighbours of the exact value, and of the grids with a
  candidate that reads back the coarsest is taken, with the nearer of its candidates.
-/
import Stocklist.Decimal.Basic

namespace Stocklist

namespace Decimal

/-- The exact decimal expansion of a magnitude. -/
def exact (m : Magnitude) : Decimal :=
  if 1074 ≤ m.scale then ⟨m.significand * Nat.pow 2 (m.scale - 1074), 0⟩
  else ⟨m.significand * Nat.pow 5 (1074 - m.scale), (m.scale : Int) - 1074⟩

/-- The neighbours of `d` on the grid of multiples of `10 ^ (j + d.exponent)`, the nearer
    first; a tie puts the even one first. -/
def neighbours (d : Decimal) (j : Nat) : List Decimal :=
  let near := roundDiv d.coefficient (Nat.pow 10 j)
  let below := d.coefficient / Nat.pow 10 j
  let far := if near = below then below + 1 else below
  [⟨near, d.exponent + j⟩, ⟨far, d.exponent + j⟩]

/-- The first neighbour of `d` that reads back as `m`, on the coarsest of the grids from
    `10 ^ j` down that has one, or else `d`. -/
def coarsest (m : Magnitude) (d : Decimal) : Nat → Decimal
  | 0 => d
  | j + 1 =>
    match (d.neighbours (j + 1)).find? (fun c => c.round = some m) with
    | some c => c
    | none => coarsest m d j

/-- The digits of a natural number, most significant first, without leading zeros. -/
def digits (n : Nat) : List Char :=
  Nat.toDigits 10 n

/-- The decimal with the fewest digits that reads back as `m`, and of these the nearest. -/
def shortest (m : Magnitude) : Decimal :=
  let d := exact m
  coarsest m d ((digits d.coefficient).length - 1)

/-- A decimal that `shortest` finds on a grid reads back; the exact expansion is the only
    other outcome. -/
theorem coarsest_eq_or_round (m : Magnitude) (d : Decimal) (j : Nat) :
    coarsest m d j = d ∨ (coarsest m d j).round = some m := by
  induction j with
  | zero => exact Or.inl rfl
  | succ j ih =>
    simp only [coarsest]
    split
    · next c h => exact Or.inr (by simpa using List.find?_some h)
    · exact ih

end Decimal

end Stocklist
