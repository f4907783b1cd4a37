/-
  Stocklist/Proofs/Catalog/Remarks.lean
  =====================================
  **Every cell that counts as zero is remarked upon, and no other.**

  `IdCell` and `FloatCell` say what a numeric cell counts as and for which fault, if for one:
  no cell has two (`IdCell.unique`, `FloatCell.unique`).  `Accounts row item remarks` puts the
  cells of a row together: the item holds what they count as, and the remarks are on those
  with a fault, in the order of the columns.  A row is read exactly if there is such an
  account of it (`readRow_eq_ok_iff`).

  `Reads rows reading` carries this over to a list of rows.  A reading accounts for the rows
  from the first on, up to one that fails; that holds of every load, also of one that fails
  in the end (`reads_readAll`).
-/
import Stocklist.Proofs.Catalog.FirstFailure

namespace Stocklist.Catalog

open Csv (Position Row)
open Numeral (Denotes)

/-! ### Cells -/

/-- `IdCell cell n fault`: the identifier cell counts as `n`.  A cell that denotes no 64-bit
    integer counts as zero, for a fault. -/
inductive IdCell (cell : String) : Int64 → Option CellFault → Prop where
  | number {n : Int64} : Denotes cell.toList n.toInt → IdCell cell n none
  | notNumber : (∀ n : Int64, ¬ Denotes cell.toList n.toInt) →
      IdCell cell 0 (some .notNumber)

/-- `FloatCell cell x fault`: the price or margin cell counts as `x`.  A cell that denotes no
    double and one that denotes no finite double count as zero, each for a fault of its own. -/
inductive FloatCell (cell : String) : Binary64 → Option CellFault → Prop where
  | number {x : Binary64} : Binary64.ofText? cell = some x → x.isFinite → FloatCell cell x none
  | notNumber : Binary64.ofText? cell = none → FloatCell cell .zero (some .notNumber)
  | notFinite {x : Binary64} : Binary64.ofText? cell = some x → ¬ x.isFinite →
      FloatCell cell .zero (some .notFinite)

theorem IdCell.unique {cell : String} {m n : Int64} {f g : Option CellFault}
    (hm : IdCell cell m f) (hn : IdCell cell n g) : m = n ∧ f = g := by
  cases hm with
  | number hm =>
    cases hn with
    | number hn => exact ⟨Int64.toInt_inj.mp (hm.unique hn), rfl⟩
    | notNumber hn => exact absurd hm (hn m)
  | notNumber hm =>
    cases hn with
    | number hn => exact absurd hn (hm n)
    | notNumber hn => exact ⟨rfl, rfl⟩

theorem FloatCell.unique {cell : String} {x y : Binary64} {f g : Option CellFault}
    (hx : FloatCell cell x f) (hy : FloatCell cell y g) : x = y ∧ f = g := by
  cases hx with
  | number hx hfinite => cases hy <;> simp_all
  | notNumber hx => cases hy <;> simp_all
  | notFinite hx hinfinite => cases hy <;> simp_all

/-- The remark on a cell: none, unless it has a fault. -/
def remarkOn (line : Nat) (column : Column) (cell : String) (fault : Option CellFault) :
    List Remark :=
  (fault.map fun f => ⟨line, column, cell, f⟩).toList

theorem exists_idCell (line : Nat) (cell : String) :
    ∃ fault, IdCell cell (readId line cell).1 fault ∧
      (readId line cell).2 = remarkOn line .id cell fault := by
  unfold readId
  split
  · next n h => exact ⟨none, .number (Numeral.readInt64_eq_ok_iff.mp h), rfl⟩
  · next fault h =>
    refine ⟨some .notNumber, .notNumber ?_, rfl⟩
    intro n hn
    rw [← Numeral.readInt64_eq_ok_iff, h] at hn
    cases hn

theorem exists_floatCell (line : Nat) (column : Column) (cell : String) :
    ∃ fault, FloatCell cell (readFloat line column cell).1 fault ∧
      (readFloat line column cell).2 = remarkOn line column cell fault := by
  unfold readFloat
  split
  · next h => exact ⟨some .notNumber, .notNumber h, rfl⟩
  · next x h =>
    split_ifs with hfinite
    · exact ⟨none, .number h hfinite, rfl⟩
    · exact ⟨some .notFinite, .notFinite h hfinite, rfl⟩

/-! ### Rows -/

/-- `Accounts row item remarks`: the item holds what the cells of the row count as, and the
    remarks are on the cells of its line that count as zero for a fault. -/
inductive Accounts (row : Row) : Item → List Remark → Prop where
  | mk {id name price category subCategory containerType margin : String} {more : List String}
      {n : Int64} {p m : Binary64} {onId onPrice onMargin : Option CellFault} :
      row.fields = (id :: name :: price :: category :: subCategory :: containerType :: margin ::
        more).map Utf8.bytes →
      IdCell id n onId → FloatCell price p onPrice → FloatCell margin m onMargin →
      Accounts row ⟨n, name, category, subCategory, containerType, p, m⟩
        (remarkOn row.position.line .id id onId ++
          remarkOn row.position.line .pricePerUnit price onPrice ++
          remarkOn row.position.line .margin margin onMargin)

theorem line_eq_of_mem_remarkOn {line : Nat} {column : Column} {cell : String}
    {fault : Option CellFault} {r : Remark} (h : r ∈ remarkOn line column cell fault) :
    r.line = line := by
  cases fault with
  | none => cases h
  | some f =>
    obtain rfl := List.mem_singleton.mp h
    rfl

theorem Accounts.line_eq {row : Row} {item : Item} {remarks : List Remark}
    (h : Accounts row item remarks) : ∀ r ∈ remarks, r.line = row.position.line := by
  intro r hr
  cases h with
  | mk _ _ _ _ =>
    rcases List.mem_append.mp hr with hr | hr
    · rcases List.mem_append.mp hr with hr | hr
      · exact line_eq_of_mem_remarkOn hr
      · exact line_eq_of_mem_remarkOn hr
    · exact line_eq_of_mem_remarkOn hr

theorem decodeFields_eq_ok_iff {i : Nat} {fields : List (List UInt8)} {cells : List String} :
    decodeFields i fields = .ok cells ↔ fields = cells.map Utf8.bytes := by
  constructor
  · intro h
    by_cases htext : ∀ f ∈ fields, Utf8.IsText f
    · obtain ⟨cells', rfl⟩ := exists_map_bytes htext
      rw [decodeFields_map_bytes] at h
      cases h
      rfl
    · obtain ⟨before, f, after, rfl, hbefore, hf⟩ := exists_first_not htext
      rw [decodeFields_of_not_isText i hbefore hf] at h
      cases h
  · rintro rfl
    exact decodeFields_map_bytes i cells

theorem accounts_of_itemOfCells {row : Row} {cells : List String} {item : Item}
    {remarks : List Remark} (hfields : row.fields = cells.map Utf8.bytes)
    (h : itemOfCells row.position.line cells = .ok (item, remarks)) :
    Accounts row item remarks := by
  by_cases hshort : cells.length < requiredColumns
  · rw [itemOfCells_of_short _ hshort] at h
    cases h
  · match cells, hshort with
    | id :: name :: price :: category :: subCategory :: containerType :: margin :: more, _ =>
      obtain ⟨onId, hid, hremarkId⟩ := exists_idCell row.position.line id
      obtain ⟨onPrice, hprice, hremarkPrice⟩ :=
        exists_floatCell row.position.line .pricePerUnit price
      obtain ⟨onMargin, hmargin, hremarkMargin⟩ :=
        exists_floatCell row.position.line .margin margin
      have haccounts := Accounts.mk hfields hid hprice hmargin
      rw [← hremarkId, ← hremarkPrice, ← hremarkMargin] at haccounts
      cases h
      exact haccounts

theorem Accounts.unique {row : Row} {a b : Item} {remarks others : List Remark}
    (ha : Accounts row a remarks) (hb : Accounts row b others) : a = b ∧ remarks = others := by
  cases ha with
  | mk hfields hid hprice hmargin =>
    cases hb with
    | mk hfields' hid' hprice' hmargin' =>
      have hcells := Utf8.map_bytes_injective (hfields.symm.trans hfields')
      simp only [List.cons.injEq] at hcells
      obtain ⟨rfl, rfl, rfl, rfl, rfl, rfl, rfl, rfl⟩ := hcells
      obtain ⟨rfl, rfl⟩ := hid.unique hid'
      obtain ⟨rfl, rfl⟩ := hprice.unique hprice'
      obtain ⟨rfl, rfl⟩ := hmargin.unique hmargin'
      exact ⟨rfl, rfl⟩

theorem Accounts.isSound {row : Row} {item : Item} {remarks : List Remark}
    (h : Accounts row item remarks) : IsSound row.fields.length row := by
  cases h with
  | mk hfields _ _ _ =>
    refine ⟨rfl, ?_, ?_⟩
    · intro f hf
      rw [hfields] at hf
      obtain ⟨s, -, rfl⟩ := List.mem_map.mp hf
      exact Utf8.isText_bytes s
    · simp [hfields, requiredColumns]

theorem accounts_of_readRow {width : Nat} {position : Position} {row : Row} {item : Item}
    {remarks : List Remark} (h : readRow width position row = .ok (item, remarks)) :
    row.fields.length = width ∧ Accounts row item remarks := by
  unfold readRow at h
  split_ifs at h with hwidth
  split at h
  · cases h
  · next cells hcells =>
    exact ⟨not_not.mp hwidth, accounts_of_itemOfCells (decodeFields_eq_ok_iff.mp hcells) h⟩

/-- A row is read exactly if it has the right number of fields and there is an account of it.
    The place at which a fault would be reported does not matter. -/
theorem readRow_eq_ok_iff {width : Nat} {position : Position} {row : Row} {item : Item}
    {remarks : List Remark} :
    readRow width position row = .ok (item, remarks) ↔
      row.fields.length = width ∧ Accounts row item remarks := by
  constructor
  · exact accounts_of_readRow
  · rintro ⟨rfl, haccounts⟩
    obtain ⟨item', remarks', hread, -⟩ := readRow_of_sound position haccounts.isSound
    obtain ⟨rfl, rfl⟩ := haccounts.unique (accounts_of_readRow hread).2
    exact hread

/-! ### Rows in order -/

/-- `AccountsFor rows entries`: what was read of each row is an account of it. -/
def AccountsFor (rows : List Row) (entries : List (Item × List Remark)) : Prop :=
  List.Forall₂ (fun row entry => Accounts row entry.1 entry.2) rows entries

/-- `Reads rows reading`: the reading accounts for the rows one by one, up to one that fails
    or to the end. -/
inductive Reads : List Row → Reading → Prop where
  | done : Reads [] ⟨[], none⟩
  | failed {rows : List Row} {e : LoadError} : Reads rows ⟨[], some e⟩
  | row {row : Row} {rows : List Row} {entry : Item × List Remark} {reading : Reading} :
      Accounts row entry.1 entry.2 → Reads rows reading →
      Reads (row :: rows) ⟨entry :: reading.items, reading.failure⟩

theorem Reads.cons {rows : List Row} {reading : Reading} (h : Reads rows reading) (width : Nat)
    (position : Position) (row : Row) :
    Reads (row :: rows) (.cons (readRow width position row) reading) := by
  cases hrow : readRow width position row with
  | error e => exact .failed
  | ok entry => exact .row (accounts_of_readRow hrow).2 h

theorem reads_readRows (width : Nat) (rows : List Row) : Reads rows (readRows width rows) := by
  induction rows with
  | nil => exact .done
  | cons row rows ih => exact ih.cons width row.position row

theorem reads_readAll (options : LoadOptions) (rows : List Row) :
    Reads (itemRows options rows) (readAll options rows) := by
  rw [readAll_eq]
  cases itemRows options rows with
  | nil => exact .done
  | cons row rest => exact (reads_readRows (widthOf rows) rest).cons _ _ row

section Reads

variable {rows : List Row} {reading : Reading}

theorem Reads.accountsFor (h : Reads rows reading) (hnone : reading.failure = none) :
    AccountsFor rows reading.items := by
  induction h with
  | done => exact .nil
  | failed => cases hnone
  | row haccounts _ ih => exact .cons haccounts (ih hnone)

/-- Also a reading that fails accounts for all that it has read. -/
theorem Reads.exists_read (h : Reads rows reading) :
    ∃ read, read <+: rows ∧ AccountsFor read reading.items := by
  induction h with
  | done => exact ⟨[], List.prefix_rfl, .nil⟩
  | failed => exact ⟨[], List.nil_prefix, .nil⟩
  | @row row rows entry reading haccounts _ ih =>
    obtain ⟨read, hread, hall⟩ := ih
    exact ⟨row :: read, (List.prefix_cons_inj row).mpr hread, .cons haccounts hall⟩

end Reads

/-! ### Loads -/

section OneSource

variable (options : LoadOptions) (s : Source)

/-- What the load of a source takes for its rows are the rows that it delivers, also in the
    exceptional case, where there are none. -/
theorem rows_eq :
    (if s.metFailure.isSome then (Csv.read s.bytes).endedRows else (Csv.read s.bytes).allRows) =
      s.rows := by
  by_cases h : s.BreaksAfterMark
  · obtain ⟨bytes, failure⟩ := s
    obtain ⟨hbytes, hfailure⟩ := h
    obtain rfl : bytes = Csv.byteOrderMark := hbytes
    rw [Source.rows, if_pos hfailure]
    rfl
  · rw [metFailure_eq h, Source.rows]

theorem remarks_load :
    (load options s).remarks = (readAll options s.rows).items.flatMap (·.2) := by
  rw [← rows_eq]
  rfl

variable {options s}

theorem load_eq_ok_iff_readAll {c : Catalog} :
    (load options s).result = .ok c ↔
      (readAll options s.rows).failure = none ∧ s.metFailure = none ∧
        c.items = (readAll options s.rows).items.map (·.1) := by
  simp only [load, rows_eq]
  cases (readAll options s.rows).failure with
  | some e => simp
  | none =>
    cases s.metFailure with
    | some reason => simp
    | none =>
      obtain ⟨items⟩ := c
      simp [eq_comm]

/-- A load that succeeds accounts for all rows of items. -/
theorem accountsFor_of_load {c : Catalog} (h : (load options s).result = .ok c) :
    ∃ entries, AccountsFor (itemRows options s.rows) entries ∧ c.items = entries.map (·.1) ∧
      (load options s).remarks = entries.flatMap (·.2) := by
  obtain ⟨hnone, -, hitems⟩ := load_eq_ok_iff_readAll.mp h
  exact ⟨_, (reads_readAll options s.rows).accountsFor hnone, hitems, remarks_load options s⟩

end OneSource

end Stocklist.Catalog
