/-
  Stocklist/Text/Substring.lean
  =============================
  **Whether one text occurs in another.**

  `occursIn` tries every position of the longer text in turn.  It decides the relation
  "is a contiguous piece of" (`occursIn_iff`), so a search can be stated without it.
-/

namespace Stocklist.Text

/-- Whether `piece` occurs in a text as a run of consecutive characters. -/
def occursIn (piece : List Char) : List Char → Bool
  | [] => piece.isEmpty
  | c :: cs => piece.isPrefixOf (c :: cs) || occursIn piece cs

@[simp] theorem occursIn_nil (cs : List Char) : occursIn [] cs = true := by
  cases cs with
  | nil => rfl
  | cons c cs => simp [occursIn]

/-- `occursIn` decides the relation of contiguous sublists. -/
theorem occursIn_iff {piece cs : List Char} : occursIn piece cs = true ↔ piece <:+: cs := by
  induction cs with
  | nil => simp [occursIn]
  | cons c cs ih => simp [occursIn, List.infix_cons_iff, ih]

end Stocklist.Text
