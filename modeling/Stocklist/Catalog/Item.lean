/-
  Stocklist/Catalog/Item.lean
  ===========================
  **Items and catalogs.**
-/
import Stocklist.Binary64

namespace Stocklist

/-- One item of the catalog. -/
structure Item where
  id : Int64
  name : String
  category : String
  subCategory : String
  containerType : String
  pricePerUnit : Binary64
  margin : Binary64
deriving DecidableEq, Repr

/-- The items on offer, in the order in which they were listed. -/
structure Catalog where
  items : List Item
deriving DecidableEq, Repr

namespace Catalog

def empty : Catalog := ⟨[]⟩

def size (c : Catalog) : Nat :=
  c.items.length

def isEmpty (c : Catalog) : Bool :=
  c.items.isEmpty

end Catalog

end Stocklist
