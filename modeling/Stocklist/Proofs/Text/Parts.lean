/-
  Stocklist/Proofs/Text/Parts.lean
  ================================
  **Cutting undoes joining.**

  Parts are those of `List.splitOn`, and joining is `List.intercalate` with a separator of
  one element.  So pieces that do not contain the separator are the parts of what they make
  up together.
-/
import Stocklist.Text.Parts

namespace Stocklist.Text

variable {α : Type} {separator : α}

theorem join_eq_intercalate (pieces : List (List α)) :
    join separator pieces = [separator].intercalate pieces := by
  induction pieces with
  | nil => simp [join]
  | cons piece more ih =>
    cases more with
    | nil => simp [join]
    | cons next more => simp [join, ih]

theorem mem_join {a : α} {pieces : List (List α)} (h : a ∈ join separator pieces) :
    a = separator ∨ ∃ piece ∈ pieces, a ∈ piece := by
  induction pieces with
  | nil => exact absurd h List.not_mem_nil
  | cons piece more ih =>
    cases more with
    | nil => exact Or.inr ⟨piece, List.mem_singleton_self piece, h⟩
    | cons next more =>
      rw [join, List.mem_append, List.mem_cons] at h
      rcases h with hpiece | rfl | hmore
      · exact Or.inr ⟨piece, List.mem_cons_self, hpiece⟩
      · exact Or.inl rfl
      · rcases ih hmore with heq | ⟨other, hother, ha⟩
        · exact Or.inl heq
        · exact Or.inr ⟨other, List.mem_cons_of_mem piece hother, ha⟩

variable [DecidableEq α]

theorem parts_eq_splitOn (l : List α) : parts separator l = l.splitOn separator := by
  induction l with
  | nil => simp [parts]
  | cons a rest ih =>
    rw [parts, List.splitOn_cons_eq_if_modifyHead, ih]
    by_cases ha : a = separator
    · simp [ha]
    · cases hrest : rest.splitOn separator with
      | nil => exact absurd hrest (List.splitOn_ne_nil separator rest)
      | cons part more => simp [ha]

theorem parts_join {pieces : List (List α)} (hne : pieces ≠ [])
    (h : ∀ piece ∈ pieces, separator ∉ piece) :
    parts separator (join separator pieces) = pieces := by
  rw [parts_eq_splitOn, join_eq_intercalate]
  exact List.splitOn_intercalate separator h hne

theorem parts_ne_nil (l : List α) : parts separator l ≠ [] := by
  rw [parts_eq_splitOn]
  exact List.splitOn_ne_nil separator l

theorem parts_of_notMem {l : List α} (h : separator ∉ l) : parts separator l = [l] :=
  parts_join (List.cons_ne_nil l []) (List.forall_mem_singleton.mpr h)

/-- The first separator ends the first part. -/
theorem parts_append_cons {part : List α} (h : separator ∉ part) (rest : List α) :
    parts separator (part ++ separator :: rest) = part :: parts separator rest := by
  induction part with
  | nil => rw [List.nil_append, parts, if_pos rfl]
  | cons a part ih =>
    rw [List.mem_cons, not_or] at h
    rw [List.cons_append, parts, if_neg fun ha => h.1 ha.symm, ih h.2]

end Stocklist.Text
