/-
  Stocklist/Proofs/Catalog/Columns.lean
  =====================================
  **What the cells of a row say about its item.**

  `Describes cells item` goes by columns: texts are taken as they stand, an identifier
  that is no 64-bit integer and a price or margin that is no finite number count as zero.
  Of the cells only the first seven are mentioned, so cells that agree on them describe
  the same items (`Describes.of_take_eq`), and they describe one item only
  (`Describes.unique`).  Seven cells or more give the item that they describe
  (`exists_itemOfCells`), fewer give none (`itemOfCells_of_short`).
-/
import Stocklist.Catalog.Load
import Stocklist.Proofs.Numeral

namespace Stocklist.Catalog

open Numeral (Denotes)

/-! ### Cells -/

/-- `IsIdOf cell n`: the identifier cell stands for `n`, which is zero for a cell that
    denotes no 64-bit integer. -/
def IsIdOf (cell : String) (n : Int64) : Prop :=
  Denotes cell.toList n.toInt ∨ ((∀ m : Int64, ¬ Denotes cell.toList m.toInt) ∧ n = 0)

/-- `IsFloatOf cell x`: the floating-point cell stands for `x`, which is zero for a cell
    that denotes no finite number. -/
def IsFloatOf (cell : String) (x : Binary64) : Prop :=
  (Binary64.ofText? cell = some x ∧ x.isFinite) ∨
    ((∀ y, Binary64.ofText? cell = some y → ¬ y.isFinite) ∧ x = .zero)

theorem isIdOf_readId (line : Nat) (cell : String) : IsIdOf cell (readId line cell).1 := by
  unfold readId
  split
  · next n h => exact Or.inl (Numeral.readInt64_eq_ok_iff.mp h)
  · next fault h =>
    refine Or.inr ⟨?_, rfl⟩
    intro m hm
    rw [← Numeral.readInt64_eq_ok_iff, h] at hm
    cases hm

theorem isFloatOf_readFloat (line : Nat) (column : Column) (cell : String) :
    IsFloatOf cell (readFloat line column cell).1 := by
  unfold readFloat
  split
  · next h =>
    refine Or.inr ⟨?_, rfl⟩
    intro y hy
    rw [h] at hy
    cases hy
  · next x h =>
    split_ifs with hfinite
    · exact Or.inl ⟨h, hfinite⟩
    · refine Or.inr ⟨?_, rfl⟩
      intro y hy
      obtain rfl : x = y := Option.some.inj (h.symm.trans hy)
      exact hfinite

theorem IsIdOf.unique {cell : String} {m n : Int64} (hm : IsIdOf cell m) (hn : IsIdOf cell n) :
    m = n := by
  rcases hm with hm | ⟨hm, rfl⟩
  · rcases hn with hn | ⟨hn, -⟩
    · exact Int64.toInt_inj.mp (hm.unique hn)
    · exact absurd hm (hn m)
  · rcases hn with hn | ⟨-, rfl⟩
    · exact absurd hn (hm n)
    · rfl

theorem IsFloatOf.unique {cell : String} {x y : Binary64} (hx : IsFloatOf cell x)
    (hy : IsFloatOf cell y) : x = y := by
  rcases hx with ⟨hx, hfinite⟩ | ⟨hx, rfl⟩
  · rcases hy with ⟨hy, -⟩ | ⟨hy, -⟩
    · exact Option.some.inj (hx.symm.trans hy)
    · exact absurd hfinite (hy x hx)
  · rcases hy with ⟨hy, hfinite⟩ | ⟨-, rfl⟩
    · exact absurd hfinite (hx y hy)
    · rfl

/-! ### Rows -/

/-- `Describes cells item`: the cells of a row, column by column, stand for the item. -/
structure Describes (cells : List String) (item : Item) : Prop where
  id : ∃ cell, cells[0]? = some cell ∧ IsIdOf cell item.id
  name : cells[1]? = some item.name
  pricePerUnit : ∃ cell, cells[2]? = some cell ∧ IsFloatOf cell item.pricePerUnit
  category : cells[3]? = some item.category
  subCategory : cells[4]? = some item.subCategory
  containerType : cells[5]? = some item.containerType
  margin : ∃ cell, cells[6]? = some cell ∧ IsFloatOf cell item.margin

theorem Describes.unique {cells : List String} {a b : Item} (ha : Describes cells a)
    (hb : Describes cells b) : a = b := by
  obtain ⟨⟨ida, hida, ha0⟩, ha1, ⟨pa, hpa, ha2⟩, ha3, ha4, ha5, ⟨ma, hma, ha6⟩⟩ := ha
  obtain ⟨⟨idb, hidb, hb0⟩, hb1, ⟨pb, hpb, hb2⟩, hb3, hb4, hb5, ⟨mb, hmb, hb6⟩⟩ := hb
  obtain rfl : ida = idb := Option.some.inj (hida.symm.trans hidb)
  obtain rfl : pa = pb := Option.some.inj (hpa.symm.trans hpb)
  obtain rfl : ma = mb := Option.some.inj (hma.symm.trans hmb)
  cases a
  cases b
  simp only [Item.mk.injEq]
  exact ⟨ha0.unique hb0, Option.some.inj (ha1.symm.trans hb1),
    Option.some.inj (ha3.symm.trans hb3), Option.some.inj (ha4.symm.trans hb4),
    Option.some.inj (ha5.symm.trans hb5), ha2.unique hb2, ha6.unique hb6⟩

/-- Columns after the seventh say nothing: rows that agree on the others describe the
    same items. -/
theorem Describes.of_take_eq {cells others : List String} {item : Item}
    (h : cells.take requiredColumns = others.take requiredColumns)
    (hd : Describes cells item) : Describes others item := by
  have hcolumn : ∀ i < 7, cells[i]? = others[i]? := by
    intro i hi
    rw [← List.getElem?_take_of_lt hi, ← List.getElem?_take_of_lt (l := others) hi]
    exact congrArg (·[i]?) h
  obtain ⟨hid, hname, hprice, hcategory, hsub, hcontainer, hmargin⟩ := hd
  exact
    { id := hcolumn 0 (by decide) ▸ hid
      name := hcolumn 1 (by decide) ▸ hname
      pricePerUnit := hcolumn 2 (by decide) ▸ hprice
      category := hcolumn 3 (by decide) ▸ hcategory
      subCategory := hcolumn 4 (by decide) ▸ hsub
      containerType := hcolumn 5 (by decide) ▸ hcontainer
      margin := hcolumn 6 (by decide) ▸ hmargin }

theorem exists_itemOfCells {cells : List String} (line : Nat)
    (h : requiredColumns ≤ cells.length) :
    ∃ item remarks, itemOfCells line cells = .ok (item, remarks) ∧ Describes cells item := by
  match cells, h with
  | id :: name :: price :: category :: subCategory :: containerType :: margin :: _, _ =>
    refine ⟨_, _, rfl, ?_⟩
    exact
      { id := ⟨id, rfl, isIdOf_readId line id⟩
        name := rfl
        pricePerUnit := ⟨price, rfl, isFloatOf_readFloat line .pricePerUnit price⟩
        category := rfl
        subCategory := rfl
        containerType := rfl
        margin := ⟨margin, rfl, isFloatOf_readFloat line .margin margin⟩ }

theorem itemOfCells_of_short {cells : List String} (line : Nat)
    (h : cells.length < requiredColumns) :
    itemOfCells line cells = .error (.shortRow line cells.length) := by
  unfold itemOfCells
  split
  · simp only [requiredColumns, List.length_cons] at h
    omega
  · rfl

end Stocklist.Catalog
