/-
  Stocklist/Wire/Encode.lean
  ==========================
  **Items and result pages as JSON texts.**

  An object is written without blanks, its members in the order of the fields.  Members of
  an item are named with underscores, those of a page with inner capitals.
-/
import Stocklist.Decimal.Notation
import Stocklist.Json.Text
import Stocklist.Search.Page
import Stocklist.Text.Parts

namespace Stocklist.Wire

def objectText (members : List (String × List Char)) : List Char :=
  '\x7b' :: Text.join ',' (members.map fun (name, value) =>
    Json.quote name.toList ++ ':' :: value) ++ ['\x7d']

def arrayText (items : List (List Char)) : List Char :=
  '[' :: Text.join ',' items ++ [']']

def stringText (s : String) : List Char := Json.quote s.toList

def naturalText (n : UInt64) : List Char := Decimal.digits n.toNat

def integerText (n : Int64) : List Char :=
  if n < 0 then '-' :: Decimal.digits n.toInt.natAbs else Decimal.digits n.toInt.natAbs

def floatText (x : Binary64) : List Char := x.text.toList

def itemText (item : Item) : List Char :=
  objectText [
    ("id", integerText item.id),
    ("name", stringText item.name),
    ("category", stringText item.category),
    ("sub_category", stringText item.subCategory),
    ("container_type", stringText item.containerType),
    ("price_per_unit", floatText item.pricePerUnit),
    ("margin", floatText item.margin)]

def pageText (page : ResultPage) : List Char :=
  objectText [
    ("query", stringText page.query),
    ("results", arrayText (page.results.map itemText)),
    ("prev", integerText page.prev),
    ("next", integerText page.next),
    ("rangeLeft", naturalText page.rangeLeft),
    ("rangeRight", naturalText page.rangeRight),
    ("count", naturalText page.count)]

end Stocklist.Wire
