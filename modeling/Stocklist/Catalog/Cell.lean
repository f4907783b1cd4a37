/-
  Stocklist/Catalog/Cell.lean
  ===========================
  **Numeric cells of a catalog row.**

  A cell that does not hold a number of its column counts as zero and is remarked upon.
  The floating-point columns also refuse numbers that are not finite, in words of their
  own.  A cell gives at most one remark.
-/
import Stocklist.Catalog.Item
import Stocklist.Decimal.Text
import Stocklist.Numeral
import Stocklist.Text.Quoted

namespace Stocklist.Catalog

/-- The columns that hold numbers. -/
inductive Column where
  | id
  | pricePerUnit
  | margin
deriving DecidableEq, Repr

def Column.name : Column → String
  | .id => "id"
  | .pricePerUnit => "price_per_unit"
  | .margin => "margin"

/-- Why a cell counts as zero. -/
inductive CellFault where
  | notNumber
  | notFinite
deriving DecidableEq, Repr

def CellFault.message : CellFault → String
  | .notNumber => "is not a number, using 0"
  | .notFinite => "is not finite, using 0"

/-- A cell that counts as zero, with the line of its row. -/
structure Remark where
  line : Nat
  column : Column
  cell : String
  fault : CellFault
deriving DecidableEq, Repr

def Remark.message (r : Remark) : String :=
  s!"Line {r.line}: {r.column.name} {Text.quoted r.cell} {r.fault.message}"

def readId (line : Nat) (cell : String) : Int64 × List Remark :=
  match Numeral.readInt64 cell with
  | .ok n => (n, [])
  | .error _ => (0, [⟨line, .id, cell, .notNumber⟩])

def readFloat (line : Nat) (column : Column) (cell : String) : Binary64 × List Remark :=
  match Binary64.ofText? cell with
  | none => (.zero, [⟨line, column, cell, .notNumber⟩])
  | some x => if x.isFinite then (x, []) else (.zero, [⟨line, column, cell, .notFinite⟩])

end Stocklist.Catalog
