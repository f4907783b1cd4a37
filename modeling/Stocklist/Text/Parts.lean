/-
  Stocklist/Text/Parts.lean
  =========================
  **Lists cut at a separator.**

  A list with `n` separators has `n + 1` parts, some of them empty.
-/

namespace Stocklist.Text

variable {α : Type}

def join (separator : α) : List (List α) → List α
  | [] => []
  | [part] => part
  | part :: next :: more => part ++ separator :: join separator (next :: more)

theorem join_cons_cons (separator a : α) (part : List α) (more : List (List α)) :
    join separator ((a :: part) :: more) = a :: join separator (part :: more) := by
  cases more <;> simp [join]

variable [DecidableEq α]

/-- The parts of a list before, between and after the separators. -/
def parts (separator : α) : List α → List (List α)
  | [] => [[]]
  | a :: rest =>
    if a = separator then [] :: parts separator rest
    else
      match parts separator rest with
      | [] => [[a]]
      | part :: more => (a :: part) :: more

end Stocklist.Text
