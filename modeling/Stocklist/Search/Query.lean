/-
  Stocklist/Search/Query.lean
  ===========================
  **What a client asks for: a text and a page.**

  A query is read leniently.  The text is that of the first `q` parameter and is empty
  without one; the page is that of the first `page` parameter and is 1 unless the value
  is a positive 64-bit integer text.
-/
import Stocklist.Numeral

namespace Stocklist

/-- A search request: the text to look for in names, and a page counted from 1. -/
structure Query where
  text : String
  page : Int64
deriving DecidableEq, Repr

namespace Query

/-- A query whose page is at least 1: any lower page becomes the first. -/
def ofPage (text : String) (page : Int64) : Query :=
  ⟨text, if page ≤ 0 then 1 else page⟩

/-- The query that a list of decoded parameters asks for. -/
def ofPairs (pairs : List (String × String)) : Query :=
  let page := (pairs.lookup "page").bind fun value => (Numeral.readInt64 value).toOption
  ofPage ((pairs.lookup "q").getD "") (page.getD 1)

end Query

end Stocklist
