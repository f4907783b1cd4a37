/-
  Stocklist/Proofs/Catalog/RoundTrip.lean
  =======================================
  **Rows that were written down are loaded as the items that they describe.**

  Whatever way of writing rows is chosen, the reader finds their fields again
  (`Proofs/Csv/Written`), each of them a text, and as many in one row as in another.  So
  all rows are sound (`Proofs/Catalog/Rows`) and the load gives one item for each.  Which
  item that is does not hang on the way of writing, nor on columns after the seventh
  (`load_written`).
-/
import Stocklist.Proofs.Catalog.FirstFailure
import Stocklist.Proofs.Csv.Written

namespace Stocklist.Catalog

open Csv (Row WritesFile WritesRow WritesRows)

/-- Bytes that are loaded without a header, from a source that does not fail. -/
def loadBytes (w : List UInt8) : Except LoadError Catalog :=
  (load ⟨false⟩ ⟨w, none⟩).result

section Written

variable {k : Nat} {rows : List (List String)} {w : List UInt8}

theorem not_breaksAfterMark (w : List UInt8) : ¬ Source.BreaksAfterMark ⟨w, none⟩ := fun h =>
  absurd h.2 (by simp)

theorem fields_rows (hk : requiredColumns ≤ k) (hlength : ∀ row ∈ rows, row.length = k)
    (hw : WritesFile rows w) :
    (Source.rows ⟨w, none⟩).map Row.fields = rows.map (·.map Utf8.bytes) := by
  apply Csv.fields_allRows_read hw
  intro row hrow
  have henough : 7 ≤ k := hk
  rw [hlength row hrow]
  omega

theorem exists_cells_of_mem {read : List Row} {row : Row}
    (hfields : read.map Row.fields = rows.map (·.map Utf8.bytes)) (hrow : row ∈ read) :
    ∃ cells ∈ rows, row.fields = cells.map Utf8.bytes := by
  have hmem : row.fields ∈ rows.map (·.map Utf8.bytes) := hfields ▸ List.mem_map_of_mem hrow
  obtain ⟨cells, hcells, heq⟩ := List.mem_map.mp hmem
  exact ⟨cells, hcells, heq.symm⟩

/-- Rows of one width have the width of the first. -/
theorem widthOf_eq {read : List Row} {row : Row} (hwidth : ∀ r ∈ read, r.fields.length = k)
    (hrow : row ∈ read) : widthOf read = k := by
  cases read with
  | nil => exact absurd hrow List.not_mem_nil
  | cons first rest =>
    rw [widthOf, List.head?_cons, Option.map_some, Option.getD_some]
    exact hwidth first List.mem_cons_self

theorem isSound_of_written (hk : requiredColumns ≤ k) (hlength : ∀ row ∈ rows, row.length = k)
    (hw : WritesFile rows w) :
    ∀ row ∈ Source.rows ⟨w, none⟩, IsSound (widthOf (Source.rows ⟨w, none⟩)) row := by
  have hfields := fields_rows hk hlength hw
  have hwidth : ∀ row ∈ Source.rows ⟨w, none⟩, row.fields.length = k := by
    intro row hrow
    obtain ⟨cells, hcells, heq⟩ := exists_cells_of_mem hfields hrow
    rw [heq, List.length_map, hlength cells hcells]
  intro row hrow
  refine ⟨?_, ?_, ?_⟩
  · rw [widthOf_eq hwidth hrow, hwidth row hrow]
  · intro f hf
    obtain ⟨cells, -, heq⟩ := exists_cells_of_mem hfields hrow
    rw [heq] at hf
    obtain ⟨s, -, rfl⟩ := List.mem_map.mp hf
    exact Utf8.isText_bytes s
  · rw [hwidth row hrow]
    exact hk

theorem forall₂_describes {read : List Row} {items : List Item}
    (hfields : read.map Row.fields = rows.map (·.map Utf8.bytes))
    (hgives : List.Forall₂ Gives read items) : List.Forall₂ Describes rows items := by
  induction hgives generalizing rows with
  | nil =>
    obtain rfl : rows = [] := by simpa using hfields.symm
    exact .nil
  | cons hgive _ ih =>
    cases rows with
    | nil => simp at hfields
    | cons cells rows =>
      rw [List.map_cons, List.map_cons, List.cons.injEq] at hfields
      obtain ⟨others, hothers, hdescribes⟩ := hgive
      have heq : cells = others := Utf8.map_bytes_injective (hfields.1.symm.trans hothers)
      exact .cons (heq ▸ hdescribes) (ih hfields.2)

theorem exists_loadBytes (hk : requiredColumns ≤ k) (hlength : ∀ row ∈ rows, row.length = k)
    (hw : WritesFile rows w) :
    ∃ c, loadBytes w = .ok c ∧ List.Forall₂ Describes rows c.items := by
  have hsound := isSound_of_written hk hlength hw
  obtain ⟨items, hresult, hgives⟩ := load_of_sound ⟨false⟩ (not_breaksAfterMark w) hsound rfl
  exact ⟨⟨items⟩, hresult, forall₂_describes (fields_rows hk hlength hw) hgives⟩

/-- Rows that agree on the first seven columns describe the same items. -/
theorem items_eq_of_take_eq {others : List (List String)} {xs ys : List Item}
    (h : rows.map (List.take requiredColumns) = others.map (List.take requiredColumns))
    (hx : List.Forall₂ Describes rows xs) (hy : List.Forall₂ Describes others ys) : xs = ys := by
  induction hx generalizing others ys with
  | nil =>
    obtain rfl : others = [] := by simpa using h.symm
    cases hy
    rfl
  | cons hdescribes _ ih =>
    cases hy with
    | nil => simp at h
    | cons hdescribes' hrest =>
      rw [List.map_cons, List.map_cons, List.cons.injEq] at h
      rw [(hdescribes.of_take_eq h.1).unique hdescribes', ih h.2 hrest]

end Written

/-- **Every way of writing rows of seven columns or more is loaded as the items that they
    describe,** one to a row and in their order.  Columns after the seventh are without
    any influence: rows that agree on the others are loaded as the same catalog, however
    they are written. -/
theorem load_written (k : Nat) (hk : requiredColumns ≤ k) (rows : List (List String))
    (hlength : ∀ row ∈ rows, row.length = k) (w : List UInt8) (hw : WritesFile rows w) :
    ∃ c, loadBytes w = .ok c ∧ List.Forall₂ Describes rows c.items ∧
      ∀ (j : Nat) (others : List (List String)) (v : List UInt8), requiredColumns ≤ j →
        (∀ row ∈ others, row.length = j) → WritesFile others v →
        rows.map (List.take requiredColumns) = others.map (List.take requiredColumns) →
        loadBytes v = .ok c := by
  obtain ⟨⟨items⟩, hresult, hdescribes⟩ := exists_loadBytes hk hlength hw
  refine ⟨⟨items⟩, hresult, hdescribes, ?_⟩
  intro j others v hj hothers hv hagree
  obtain ⟨⟨items'⟩, hresult', hdescribes'⟩ := exists_loadBytes hj hothers hv
  obtain rfl : items = items' := items_eq_of_take_eq hagree hdescribes hdescribes'
  exact hresult'

/-- A row with a quoted comma, doubled quotes, an empty cell and a return with a line feed. -/
theorem load_written_tea :
    let row := ["7", "Tea, \"green\"", "2.5", "", "b", "c", "inf"]
    let w := "7,\"Tea, \"\"green\"\"\",2.5,,b,c,inf\r\n".toUTF8.toList
    requiredColumns ≤ 7 ∧ (∀ r ∈ [row], r.length = 7) ∧ WritesFile [row] w ∧
      ∃ c, loadBytes w = .ok c ∧ List.Forall₂ Describes [row] c.items := by
  intro row w
  have hplain : ∀ s ∈ ["7", "2.5", "", "b", "c", "inf"], ∀ c ∈ s.toList, Csv.IsPlain c := by
    simp [Csv.IsPlain]
  have hstart : true → "7".toList.head? ≠ some '\uFEFF' := by simp
  have hrow : WritesRow true row _ :=
    .more (.bare (hplain "7" (by simp)) hstart) <| .more .quoted <|
    .more (.bare (hplain "2.5" (by simp)) nofun) <| .more (.bare (hplain "" (by simp)) nofun) <|
    .more (.bare (hplain "b" (by simp)) nofun) <| .more (.bare (hplain "c" (by simp)) nofun) <|
    .one (.bare (hplain "inf" (by simp)) nofun)
  have hfile := WritesFile.unmarked (.row .both hrow .nil)
  have hw : WritesFile [row] w := by
    refine cast ?_ hfile
    congr 1
    decide +kernel
  have hlength : ∀ r ∈ [row], r.length = 7 := by decide
  obtain ⟨c, hresult, hdescribes, -⟩ := load_written 7 (by decide) [row] hlength w hw
  exact ⟨by decide, hlength, hw, c, hresult, hdescribes⟩

end Stocklist.Catalog
