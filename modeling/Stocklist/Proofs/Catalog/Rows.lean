/-
  Stocklist/Proofs/Catalog/Rows.lean
  ==================================
  **Which rows give an item, and how the others fail.**

  A row is sound if it has the number of fields that is expected, no fewer than there are
  columns, and nothing but UTF-8 in them (`IsSound`).  Any other row fails in one way
  (`Fails`): first its number of fields counts, then its first field that is no text,
  then a lack of columns.  A list of rows is read up to its first row that is not sound
  (`readRows_of_sound`, `readRows_of_fails`).

  The first row of items is read with the position of the first row of all, which is the
  header's if there is one; `readAll_eq` brings both cases to that form.
-/
import Stocklist.Proofs.Catalog.Columns
import Stocklist.Proofs.Text.Utf8

namespace Stocklist.Catalog

open Csv (Position Row)
open Utf8 (IsText)

/-- A list that does not satisfy a property throughout has a first element that does not. -/
theorem exists_first_not {α : Type} {p : α → Prop} {l : List α} (h : ¬ ∀ a ∈ l, p a) :
    ∃ before a after, l = before ++ a :: after ∧ (∀ b ∈ before, p b) ∧ ¬ p a := by
  induction l with
  | nil => exact absurd (fun a ha => absurd ha List.not_mem_nil) h
  | cons a l ih =>
    by_cases ha : p a
    · have hl : ¬ ∀ b ∈ l, p b := fun hl => h (List.forall_mem_cons.mpr ⟨ha, hl⟩)
      obtain ⟨before, b, after, rfl, hbefore, hb⟩ := ih hl
      exact ⟨a :: before, b, after, rfl, List.forall_mem_cons.mpr ⟨ha, hbefore⟩, hb⟩
    · exact ⟨[], a, l, rfl, fun b hb => absurd hb List.not_mem_nil, ha⟩

/-! ### Fields as texts -/

theorem decodeFields_map_bytes (i : Nat) (cells : List String) :
    decodeFields i (cells.map Utf8.bytes) = .ok cells := by
  induction cells generalizing i with
  | nil => rfl
  | cons s cells ih =>
    rw [List.map_cons, decodeFields, Utf8.bytes, Utf8.decode?_encode]
    dsimp only
    rw [ih, String.ofList_toList]
    rfl

theorem exists_map_bytes {fields : List (List UInt8)} (h : ∀ f ∈ fields, IsText f) :
    ∃ cells : List String, fields = cells.map Utf8.bytes := by
  induction fields with
  | nil => exact ⟨[], rfl⟩
  | cons f fields ih =>
    obtain ⟨cs, rfl⟩ := h f List.mem_cons_self
    obtain ⟨cells, rfl⟩ := ih fun g hg => h g (List.mem_cons_of_mem _ hg)
    exact ⟨String.ofList cs :: cells, by rw [List.map_cons, Utf8.bytes, String.toList_ofList]⟩

/-- The first field that is no text is reported, with its place. -/
theorem decodeFields_of_not_isText (i : Nat) {before after : List (List UInt8)} {f : List UInt8}
    (hbefore : ∀ g ∈ before, IsText g) (hf : ¬ IsText f) :
    decodeFields i (before ++ f :: after) =
      .error (i + before.length, Utf8.validLength f) := by
  induction before generalizing i with
  | nil =>
    rw [List.nil_append, decodeFields, Utf8.decode?_eq_none_iff.mpr hf]
    rfl
  | cons g before ih =>
    obtain ⟨cs, hcs⟩ := hbefore g List.mem_cons_self
    rw [List.cons_append, decodeFields, Utf8.decode?_eq_some_iff.mpr hcs]
    dsimp only
    rw [ih (i + 1) fun g hg => hbefore g (List.mem_cons_of_mem _ hg), List.length_cons,
      Nat.add_assoc, Nat.add_comm 1]
    rfl

/-! ### One row -/

/-- A row of `width` fields that gives an item. -/
structure IsSound (width : Nat) (row : Row) : Prop where
  length_eq : row.fields.length = width
  isText : ∀ f ∈ row.fields, IsText f
  enough : requiredColumns ≤ row.fields.length

/-- `Fails width position row e`: a row that should have `width` fields fails with `e`,
    where bytes that are not UTF-8 are placed at `position`. -/
inductive Fails (width : Nat) (position : Position) (row : Row) : LoadError → Prop where
  | width : row.fields.length ≠ width →
      Fails width position row (.unequalWidths row.position width row.fields.length)
  | text {before after : List (List UInt8)} {f : List UInt8} :
      row.fields.length = width → row.fields = before ++ f :: after →
      (∀ g ∈ before, IsText g) → ¬ IsText f →
      Fails width position row (.notUtf8 position before.length (Utf8.validLength f))
  | short : row.fields.length = width → (∀ f ∈ row.fields, IsText f) →
      row.fields.length < requiredColumns →
      Fails width position row (.shortRow row.position.line row.fields.length)

/-- `Gives row item`: the fields of the row are texts that describe the item. -/
def Gives (row : Row) (item : Item) : Prop :=
  ∃ cells : List String, row.fields = cells.map Utf8.bytes ∧ Describes cells item

theorem Gives.unique {row : Row} {a b : Item} (ha : Gives row a) (hb : Gives row b) : a = b := by
  obtain ⟨cells, hcells, ha⟩ := ha
  obtain ⟨others, hothers, hb⟩ := hb
  have heq : cells = others := Utf8.map_bytes_injective (hcells.symm.trans hothers)
  exact ha.unique (heq ▸ hb)

section OneRow

variable {width : Nat} {row : Row}

theorem readRow_of_sound (position : Position) (h : IsSound width row) :
    ∃ item remarks, readRow width position row = .ok (item, remarks) ∧ Gives row item := by
  obtain ⟨cells, hcells⟩ := exists_map_bytes h.isText
  have henough : requiredColumns ≤ cells.length := by
    have henough := h.enough
    rwa [hcells, List.length_map] at henough
  obtain ⟨item, remarks, hitem, hdescribes⟩ := exists_itemOfCells row.position.line henough
  refine ⟨item, remarks, ?_, cells, hcells, hdescribes⟩
  rw [readRow, if_neg (not_not.mpr h.length_eq), hcells, decodeFields_map_bytes]
  exact hitem

theorem readRow_of_fails {position : Position} {e : LoadError} (h : Fails width position row e) :
    readRow width position row = .error e := by
  cases h with
  | width hlength => rw [readRow, if_pos hlength]
  | text hlength hfields hbefore hf =>
    rw [readRow, if_neg (not_not.mpr hlength), hfields, decodeFields_of_not_isText 0 hbefore hf,
      Nat.zero_add]
  | short hlength htext hshort =>
    obtain ⟨cells, hcells⟩ := exists_map_bytes htext
    have hlength' : cells.length = row.fields.length := by rw [hcells, List.length_map]
    rw [readRow, if_neg (not_not.mpr hlength), hcells, decodeFields_map_bytes, ← hcells,
      ← hlength']
    exact itemOfCells_of_short row.position.line (hlength' ▸ hshort)

theorem exists_fails (position : Position) (h : ¬ IsSound width row) :
    ∃ e, Fails width position row e := by
  by_cases hlength : row.fields.length = width
  · by_cases htext : ∀ f ∈ row.fields, IsText f
    · have hshort : ¬ requiredColumns ≤ row.fields.length := fun henough =>
        h ⟨hlength, htext, henough⟩
      exact ⟨_, .short hlength htext (Nat.lt_of_not_le hshort)⟩
    · obtain ⟨before, f, after, hfields, hbefore, hf⟩ := exists_first_not htext
      exact ⟨_, .text hlength hfields hbefore hf⟩
  · exact ⟨_, .width hlength⟩

end OneRow

/-! ### Rows in order -/

theorem cons_ok (item : Item × List Remark) (rest : Reading) :
    Reading.cons (.ok item) rest = ⟨item :: rest.items, rest.failure⟩ :=
  rfl

theorem cons_error (e : LoadError) (rest : Reading) : Reading.cons (.error e) rest = ⟨[], some e⟩ :=
  rfl

theorem readRows_of_sound {width : Nat} {rows : List Row} (h : ∀ row ∈ rows, IsSound width row) :
    (readRows width rows).failure = none ∧
      List.Forall₂ Gives rows ((readRows width rows).items.map (·.1)) := by
  induction rows with
  | nil => exact ⟨rfl, .nil⟩
  | cons row rows ih =>
    obtain ⟨hrow, hrows⟩ := List.forall_mem_cons.mp h
    obtain ⟨item, remarks, hitem, hgives⟩ := readRow_of_sound row.position hrow
    obtain ⟨hfailure, hitems⟩ := ih hrows
    rw [readRows, hitem, cons_ok]
    exact ⟨hfailure, .cons hgives hitems⟩

/-- The first row that is not sound decides how the rows fail. -/
theorem readRows_of_fails {width : Nat} {before after : List Row} {row : Row} {e : LoadError}
    (hbefore : ∀ r ∈ before, IsSound width r) (h : Fails width row.position row e) :
    (readRows width (before ++ row :: after)).failure = some e := by
  induction before with
  | nil => rw [List.nil_append, readRows, readRow_of_fails h, cons_error]
  | cons r before ih =>
    obtain ⟨hr, hbefore⟩ := List.forall_mem_cons.mp hbefore
    obtain ⟨item, remarks, hitem, -⟩ := readRow_of_sound r.position hr
    rw [List.cons_append, readRows, hitem, cons_ok]
    exact ih hbefore

/-! ### All rows of a source -/

/-- The number of fields of the first row, which all rows must have. -/
def widthOf (rows : List Row) : Nat :=
  (rows.head?.map (·.fields.length)).getD 0

/-- The rows that should give items: all but a header. -/
def itemRows (options : LoadOptions) (rows : List Row) : List Row :=
  if options.skipHeader then rows.tail else rows

/-- The place at which bytes that are not UTF-8 are reported, after the rows `before`: the
    first row of items is read in one go with a header. -/
def reportedAt (rows before : List Row) (row : Row) : Position :=
  if before = [] then (rows.head?.map (·.position)).getD row.position else row.position

/-- With and without a header, the first row of items is read at the position of the first
    row of all. -/
theorem readAll_eq (options : LoadOptions) (rows : List Row) :
    readAll options rows =
      match itemRows options rows with
      | [] => ⟨[], none⟩
      | row :: rest =>
        .cons (readRow (widthOf rows) (reportedAt rows [] row) row)
          (readRows (widthOf rows) rest) := by
  cases rows with
  | nil => cases hskip : options.skipHeader <;> simp [readAll, itemRows, hskip]
  | cons first rest =>
    cases hskip : options.skipHeader with
    | false => simp [readAll, itemRows, hskip, readRows, widthOf, reportedAt]
    | true =>
      cases rest with
      | nil => simp [readAll, itemRows, hskip]
      | cons second rest => simp [readAll, itemRows, hskip, widthOf, reportedAt]

section AllRows

variable {options : LoadOptions} {rows : List Row}

theorem readAll_of_sound (h : ∀ row ∈ itemRows options rows, IsSound (widthOf rows) row) :
    (readAll options rows).failure = none ∧
      List.Forall₂ Gives (itemRows options rows) ((readAll options rows).items.map (·.1)) := by
  rw [readAll_eq]
  cases hrows : itemRows options rows with
  | nil => exact ⟨rfl, .nil⟩
  | cons row rest =>
    rw [hrows] at h
    obtain ⟨hrow, hrest⟩ := List.forall_mem_cons.mp h
    obtain ⟨item, remarks, hitem, hgives⟩ :=
      readRow_of_sound (reportedAt rows [] row) hrow
    obtain ⟨hfailure, hitems⟩ := readRows_of_sound hrest
    dsimp only
    rw [hitem, cons_ok]
    exact ⟨hfailure, .cons hgives hitems⟩

theorem readAll_of_fails {before after : List Row} {row : Row} {e : LoadError}
    (hrows : itemRows options rows = before ++ row :: after)
    (hbefore : ∀ r ∈ before, IsSound (widthOf rows) r)
    (h : Fails (widthOf rows) (reportedAt rows before row) row e) :
    (readAll options rows).failure = some e := by
  rw [readAll_eq, hrows]
  cases before with
  | nil =>
    dsimp only [List.nil_append]
    rw [readRow_of_fails h, cons_error]
  | cons r before =>
    obtain ⟨hr, hbefore⟩ := List.forall_mem_cons.mp hbefore
    obtain ⟨item, remarks, hitem, -⟩ := readRow_of_sound (reportedAt rows [] r) hr
    dsimp only [List.cons_append]
    rw [hitem, cons_ok]
    exact readRows_of_fails hbefore h

theorem sound_or_fails (options : LoadOptions) (rows : List Row) :
    (∀ row ∈ itemRows options rows, IsSound (widthOf rows) row) ∨
      ∃ before row after e, itemRows options rows = before ++ row :: after ∧
        (∀ r ∈ before, IsSound (widthOf rows) r) ∧
        Fails (widthOf rows) (reportedAt rows before row) row e := by
  by_cases h : ∀ row ∈ itemRows options rows, IsSound (widthOf rows) row
  · exact Or.inl h
  · obtain ⟨before, row, after, hrows, hbefore, hrow⟩ := exists_first_not h
    obtain ⟨e, he⟩ := exists_fails (reportedAt rows before row) hrow
    exact Or.inr ⟨before, row, after, e, hrows, hbefore, he⟩

end AllRows

end Stocklist.Catalog
