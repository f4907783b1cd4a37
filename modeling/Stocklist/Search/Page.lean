/-
  Stocklist/Search/Page.lean
  ==========================
  **One page of the items that a query finds.**

  A query finds the items whose folded name contains its folded text, in catalog order;
  an empty text finds them all.  The page shows the part of them that its window cuts
  out, and it names its neighbours whether or not these have anything to show.
-/
import Stocklist.Catalog.Item
import Stocklist.Search.Query
import Stocklist.Search.Window
import Stocklist.Text.Lowercase
import Stocklist.Text.Substring

namespace Stocklist

/-- Whether an item is found by a text, in any case. -/
def Item.isFoundBy (item : Item) (text : String) : Bool :=
  Text.occursIn (Text.fold text.toList) (Text.fold item.name.toList)

def Catalog.find (c : Catalog) (text : String) : List Item :=
  c.items.filter (·.isFoundBy text)

/-- How the items that are found are divided. -/
structure SearchSettings where
  /-- The number of items on a page. -/
  pageSize : UInt64
deriving DecidableEq, Repr

/-- The page before, unless there is no lower number. -/
def previousPage (page : Int64) : Int64 :=
  if page = Int64.minValue then page else page - 1

/-- The page after, unless there is no higher number. -/
def nextPage (page : Int64) : Int64 :=
  if page = Int64.maxValue then page else page + 1

/-- What a client gets to see of the items that its query finds. -/
structure ResultPage where
  query : String
  results : List Item
  prev : Int64
  next : Int64
  rangeLeft : UInt64
  rangeRight : UInt64
  /-- The number of items found, on this page and all others. -/
  count : UInt64
deriving DecidableEq, Repr

/-- The page that a query asks for, with `size` items to a page. -/
def Catalog.search (c : Catalog) (q : Query) (size : UInt64) : ResultPage :=
  let found := c.find q.text
  let count := UInt64.ofNat found.length
  let window := Window.ofPage count q.page size
  { query := q.text
    results := window.slice found
    prev := previousPage q.page
    next := nextPage q.page
    rangeLeft := window.rangeLeft
    rangeRight := window.rangeRight
    count }

end Stocklist
