/-
  Stocklist/Text/Runs.lean
  ========================
  **Classes of characters as runs of code points.**
-/

namespace Stocklist.Text

/-- Whether `n` lies in one of the closed intervals, which are in increasing order. -/
def inRuns (n : Nat) : List (Nat × Nat) → Bool
  | [] => false
  | (first, last) :: rs => if n < first then false else n ≤ last || inRuns n rs

end Stocklist.Text
