/-
  Stocklist/Http/Parameters.lean
  ==============================
  **The parameters in the query of a web address.**

  A query is a row of pairs with `&` between them; the first `=` of a pair ends its key,
  and a pair without one has an empty value.  Empty pairs count for nothing.  In keys and
  values a `+` stands for a blank and `%` with two hexadecimal digits for a byte; a `%`
  that is followed by anything else stands for itself.  The pluses are read first, so an
  escaped plus remains one.  Bytes that are not UTF-8 become replacement characters.
-/
import Stocklist.Text.Hex
import Stocklist.Text.Parts
import Stocklist.Text.Utf8

namespace Stocklist.Http

/-- The value of a byte that is a hexadecimal digit. -/
def digitValue? (b : UInt8) : Option Nat :=
  Text.hexValue? (Char.ofNat b.toNat)

def percentDecode : List UInt8 → List UInt8
  | 0x25 :: high :: low :: rest =>
    match digitValue? high, digitValue? low with
    | some h, some l => UInt8.ofNat (16 * h + l) :: percentDecode rest
    | _, _ => 0x25 :: percentDecode (high :: low :: rest)
  | b :: rest => b :: percentDecode rest
  | [] => []

def component (bs : List UInt8) : String :=
  let blanks := bs.map fun b => if b = 0x2B then 0x20 else b
  String.ofList (Utf8.decodeLossy (percentDecode blanks))

def parameter (pair : List UInt8) : String × String :=
  (component (pair.takeWhile (· ≠ 0x3D)), component ((pair.dropWhile (· ≠ 0x3D)).drop 1))

def parameters (query : String) : List (String × String) :=
  let pairs := Text.parts 0x26 (Utf8.encode query.toList)
  (pairs.filter fun pair => !pair.isEmpty).map parameter

end Stocklist.Http
