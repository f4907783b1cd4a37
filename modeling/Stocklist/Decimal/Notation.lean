/-
  Stocklist/Decimal/Notation.lean
  ===============================
  **How a double is written.**

  A number is written with the fewest digits that read back.  Where the first digit
  stands for `10 ^ e` with `e` from -5 to 15 the notation is positional, with at least
  one digit on each side of the point; otherwise it has one digit before the point, none
  after it if there is only one, and a signed exponent: `1e+16`, `1.25e-7`.
-/
import Stocklist.Decimal.Shortest

namespace Stocklist

namespace Decimal

/-- A list of digits without the zeros at its end. -/
def trimZeros (ds : List Char) : List Char :=
  (ds.reverse.dropWhile (· = '0')).reverse

/-- Significant digits in positional notation, the first of them standing for `10 ^ e`. -/
def positional (ds : List Char) (e : Int) : List Char :=
  if e < 0 then
    '0' :: '.' :: (List.replicate (-e - 1).toNat '0' ++ ds)
  else
    let whole := ds.take (e.toNat + 1)
    let fraction := ds.drop (e.toNat + 1)
    whole ++ List.replicate (e.toNat + 1 - ds.length) '0' ++ '.' ::
      (if fraction.isEmpty then ['0'] else fraction)

def scientific (ds : List Char) (e : Int) : List Char :=
  let mantissa := match ds with
    | d :: f :: fs => d :: '.' :: f :: fs
    | ds => ds
  mantissa ++ 'e' :: (if e < 0 then '-' else '+') :: digits e.natAbs

def text (d : Decimal) : List Char :=
  if d.coefficient = 0 then "0.0".toList
  else
    let ds := digits d.coefficient
    let e := d.exponent + ds.length - 1
    if -5 ≤ e ∧ e ≤ 15 then positional (trimZeros ds) e else scientific (trimZeros ds) e

end Decimal

namespace Binary64

def text : Binary64 → String
  | finite negative m =>
    let digits := (Decimal.shortest m).text
    String.ofList (if negative then '-' :: digits else digits)
  | infinite _ | nan => "null"

end Binary64

end Stocklist
