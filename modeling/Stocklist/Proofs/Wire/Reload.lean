/-
  Stocklist/Proofs/Wire/Reload.lean
  =================================
  **Prices and margins survive an export and a reload.**

  What a cell counts as is finite, whatever its text, and a finite double reads back from
  the text that stands for it in a response (`Proofs/Decimal/Text`).  So a cell with that
  text counts as the same double, for no fault (`floatCell_exported`), and a row with such a
  cell keeps it (`Accounts.keeps`), in every load (`load_keeps_exported_floats`).

  With the identifiers in decimal this goes for whole catalogs: the rows of a catalog that
  was loaded, written down in any way, are loaded as that catalog, without a remark
  (`reload_exported`).
-/
import Stocklist.Proofs.Catalog.Remarks
import Stocklist.Proofs.Catalog.RoundTrip
import Stocklist.Proofs.Decimal.Text
import Stocklist.Proofs.Wire.Prices

namespace Stocklist

open Decimal (digits)

/-! ### Numbers as they are written -/

namespace Numeral

theorem isDigits_digits (n : ℕ) : IsDigits (digits n) n := by
  refine ⟨Nat.toDigits_ne_nil, (digits n).map Json.digitValue, ?_, ?_⟩
  · rw [List.map_map]
    exact List.map_congr_left fun c hc => Json.digit?_of_isDigit (Decimal.isDigit_of_mem_digits hc)
  · exact Json.ofDigits_digits n

theorem denotes_integerText (n : Int64) : Denotes (Wire.integerText n) n.toInt := by
  rw [Wire.integerText]
  split_ifs with hneg
  · have hneg' : n.toInt < 0 := Int64.lt_iff_toInt_lt.mp hneg
    have hvalue : n.toInt = -(n.toInt.natAbs : ℤ) := by omega
    have hdenotes := Denotes.minus (isDigits_digits n.toInt.natAbs)
    rwa [← hvalue] at hdenotes
  · have hnonneg : 0 ≤ n.toInt := not_lt.mp fun h => hneg (Int64.lt_iff_toInt_lt.mpr h)
    have hvalue : n.toInt = (n.toInt.natAbs : ℤ) := by omega
    have hdenotes := Denotes.unsigned (isDigits_digits n.toInt.natAbs)
    rwa [← hvalue] at hdenotes

end Numeral

namespace Catalog

open Csv (Position Row WritesFile)

/-! ### Cells -/

/-- The text that stands for a double in a response, as a cell. -/
def exportedFloat (x : Binary64) : String :=
  String.ofList (Wire.floatText x)

theorem floatCell_exported {x : Binary64} (h : x.isFinite) :
    FloatCell (exportedFloat x) x none := by
  rw [exportedFloat, Wire.floatText, String.ofList_toList]
  exact .number (Binary64.ofText?_text h) h

theorem idCell_exported (n : Int64) : IdCell (String.ofList (Wire.integerText n)) n none := by
  apply IdCell.number
  rw [String.toList_ofList]
  exact Numeral.denotes_integerText n

theorem isFinite_readFloat (line : ℕ) (column : Column) (cell : String) :
    (readFloat line column cell).1.isFinite :=
  (isFloatOf_readFloat line column cell).isFinite

theorem eq_of_mem_remarkOn {line : ℕ} {column : Column} {cell : String}
    {fault : Option CellFault} {r : Remark} (h : r ∈ remarkOn line column cell fault) :
    r.column = column ∧ fault.isSome := by
  cases fault with
  | none => cases h
  | some f =>
    obtain rfl := List.mem_singleton.mp h
    exact ⟨rfl, rfl⟩

/-! ### Rows -/

/-- The field `i` of the row is the text that stands for `x` in a response. -/
def HoldsExported (row : Row) (i : ℕ) (x : Binary64) : Prop :=
  row.fields[i]? = some (Utf8.bytes (exportedFloat x))

instance (row : Row) (i : ℕ) (x : Binary64) : Decidable (HoldsExported row i x) :=
  inferInstanceAs (Decidable (_ = _))

/-- `Keeps x row item remarks`: if the price or the margin of the row is an export of `x`,
    then the item has `x` for it and no remark is on it. -/
structure Keeps (x : Binary64) (row : Row) (item : Item) (remarks : List Remark) : Prop where
  pricePerUnit : HoldsExported row 2 x →
    item.pricePerUnit = x ∧ ∀ r ∈ remarks, r.column ≠ .pricePerUnit
  margin : HoldsExported row 6 x → item.margin = x ∧ ∀ r ∈ remarks, r.column ≠ .margin

/-- A remark on the price or the margin of a row comes from a fault of that cell. -/
theorem fault_of_mem_remarks {line : ℕ} {id price margin : String}
    {onId onPrice onMargin : Option CellFault} {r : Remark}
    (h : r ∈ remarkOn line .id id onId ++ remarkOn line .pricePerUnit price onPrice ++
      remarkOn line .margin margin onMargin) :
    (r.column = .pricePerUnit → onPrice.isSome) ∧ (r.column = .margin → onMargin.isSome) := by
  rcases List.mem_append.mp h with h | h
  · rcases List.mem_append.mp h with h | h
    · simp [(eq_of_mem_remarkOn h).1]
    · simp [eq_of_mem_remarkOn h]
  · simp [eq_of_mem_remarkOn h]

theorem Accounts.keeps {x : Binary64} {row : Row} {item : Item} {remarks : List Remark}
    (h : Accounts row item remarks) (hx : x.isFinite) : Keeps x row item remarks := by
  cases h with
  | mk hfields hid hprice hmargin =>
    constructor
    · intro hholds
      rw [HoldsExported, hfields] at hholds
      obtain rfl := Utf8.bytes_injective (Option.some.inj hholds)
      obtain ⟨rfl, rfl⟩ := hprice.unique (floatCell_exported hx)
      refine ⟨rfl, ?_⟩
      intro r hr hcolumn
      cases (fault_of_mem_remarks hr).1 hcolumn
    · intro hholds
      rw [HoldsExported, hfields] at hholds
      obtain rfl := Utf8.bytes_injective (Option.some.inj hholds)
      obtain ⟨rfl, rfl⟩ := hmargin.unique (floatCell_exported hx)
      refine ⟨rfl, ?_⟩
      intro r hr hcolumn
      cases (fault_of_mem_remarks hr).2 hcolumn

/-! ### Loads -/

/-- **Prices and margins survive an export and a reload.**  Let `x` be what any text counts
    as in a cell for a price or a margin.  A sound row is loaded, and if its price or its
    margin is the text that stands for `x` in a response, then the item has `x` for it, with
    its sign, and nothing is said of that cell.  So it is in every load of every source, for
    all rows that it reads before one fails. -/
theorem load_keeps_exported_floats (line : ℕ) (column : Column) (cell : String) :
    (∀ (width : ℕ) (position : Position) (row : Row), IsSound width row →
      ∃ item remarks, readRow width position row = .ok (item, remarks) ∧
        Keeps (readFloat line column cell).1 row item remarks) ∧
    ∀ (options : LoadOptions) (s : Source),
      ∃ (read : List Row) (entries : List (Item × List Remark)),
      read <+: itemRows options s.rows ∧
      List.Forall₂ (fun row entry => Keeps (readFloat line column cell).1 row entry.1 entry.2)
        read entries ∧
      (load options s).remarks = entries.flatMap (·.2) ∧
      ∀ c, (load options s).result = .ok c →
        read = itemRows options s.rows ∧ c.items = entries.map (·.1) := by
  have hx := isFinite_readFloat line column cell
  constructor
  · intro width position row hsound
    obtain ⟨item, remarks, hread, -⟩ := readRow_of_sound position hsound
    exact ⟨item, remarks, hread, (accounts_of_readRow hread).2.keeps hx⟩
  · intro options s
    obtain ⟨read, hread, haccounts⟩ := (reads_readAll options s.rows).exists_read
    refine ⟨read, _, hread, haccounts.imp fun _ _ h => h.keeps hx, remarks_load options s, ?_⟩
    intro c hc
    obtain ⟨hnone, -, hitems⟩ := load_eq_ok_iff_readAll.mp hc
    have hall := (reads_readAll options s.rows).accountsFor hnone
    have hlength : read.length = (itemRows options s.rows).length :=
      haccounts.length_eq.trans hall.length_eq.symm
    exact ⟨hread.eq_of_length hlength, hitems⟩

/-- `-1e-400` is loaded as the negative zero, which is exported as `-0.0`, and
    `-0.0000004e-317` as the double next to it, which is exported as `-5e-324`. -/
theorem load_keeps_exported_extremes :
    let row : Row := ⟨.start, ["1", "Tea", "-0.0", "c", "s", "t", "-5e-324"].map Utf8.bytes⟩
    IsSound 7 row ∧ ∃ item remarks, readRow 7 .start row = .ok (item, remarks) ∧
      (item.pricePerUnit = (readFloat 1 .pricePerUnit "-1e-400").1 ∧
        ∀ r ∈ remarks, r.column ≠ .pricePerUnit) ∧
      (item.margin = (readFloat 1 .margin "-0.0000004e-317").1 ∧
        ∀ r ∈ remarks, r.column ≠ .margin) := by
  intro row
  have hsound : IsSound 7 row := by
    refine ⟨rfl, ?_, by decide⟩
    intro f hf
    obtain ⟨s, -, rfl⟩ := List.mem_map.mp hf
    exact Utf8.isText_bytes s
  obtain ⟨item, remarks, hread, hprice⟩ :=
    (load_keeps_exported_floats 1 .pricePerUnit "-1e-400").1 7 .start row hsound
  obtain ⟨item', remarks', hread', hmargin⟩ :=
    (load_keeps_exported_floats 1 .margin "-0.0000004e-317").1 7 .start row hsound
  rw [hread] at hread'
  cases hread'
  exact ⟨hsound, item, remarks, hread, hprice.pricePerUnit (by decide +kernel),
    hmargin.margin (by decide +kernel)⟩

/-! ### Whole catalogs -/

/-- The cells of an item, its numbers as in a response. -/
def exportedCells (item : Item) : List String :=
  [String.ofList (Wire.integerText item.id), item.name, exportedFloat item.pricePerUnit,
    item.category, item.subCategory, item.containerType, exportedFloat item.margin]

theorem accounts_exported {row : Row} {item : Item}
    (hfields : row.fields = (exportedCells item).map Utf8.bytes) (h : item.IsFinite) :
    Accounts row item [] :=
  Accounts.mk hfields (idCell_exported item.id) (floatCell_exported h.1) (floatCell_exported h.2)

theorem entries_exported {read : List Row} {entries : List (Item × List Remark)}
    {items : List Item} (h : AccountsFor read entries)
    (hfields : read.map Row.fields = (items.map exportedCells).map (·.map Utf8.bytes))
    (hfinite : ∀ item ∈ items, item.IsFinite) : entries = items.map fun item => (item, []) := by
  induction h generalizing items with
  | nil =>
    obtain rfl : items = [] := by simpa using hfields.symm
    rfl
  | cons haccounts _ ih =>
    cases items with
    | nil => simp at hfields
    | cons item items =>
      simp only [List.map_cons, List.cons.injEq] at hfields
      obtain ⟨hitem, hitems⟩ := List.forall_mem_cons.mp hfinite
      obtain ⟨heq, hremarks⟩ := haccounts.unique (accounts_exported hfields.1 hitem)
      rw [ih hfields.2 hitems, List.map_cons, ← heq, ← hremarks]

/-- **A catalog that was loaded can be written down and loaded again**, in any way of writing
    rows: it is the same catalog, and nothing is remarked upon. -/
theorem reload_exported {options : LoadOptions} {s : Source} {c : Catalog}
    (h : (load options s).result = .ok c) {w : List UInt8}
    (hw : WritesFile (c.items.map exportedCells) w) :
    (load ⟨false⟩ ⟨w, none⟩).result = .ok c ∧ (load ⟨false⟩ ⟨w, none⟩).remarks = [] := by
  have hlength : ∀ row ∈ c.items.map exportedCells, row.length = requiredColumns := by
    intro row hrow
    obtain ⟨item, -, rfl⟩ := List.mem_map.mp hrow
    rfl
  have hfields := fields_rows le_rfl hlength hw
  obtain ⟨c', hresult, -⟩ := exists_loadBytes le_rfl hlength hw
  obtain ⟨entries, haccounts, hitems, hremarks⟩ := accountsFor_of_load hresult
  obtain rfl := entries_exported haccounts hfields (isFinite_of_load h)
  obtain rfl : c' = c := by
    obtain ⟨items⟩ := c
    obtain ⟨items'⟩ := c'
    simpa [Function.comp_def] using hitems
  refine ⟨hresult, ?_⟩
  rw [hremarks]
  simp

end Catalog

end Stocklist
