/-
  Stocklist/Decimal/Basic.lean
  ============================
  **Decimal fractions and the doubles they round to.**

  A decimal is `coefficient * 10 ^ exponent`.  It rounds to the nearest magnitude, and
  exactly so: the powers of ten are natural numbers of any size.  Only an exponent that
  settles the outcome by itself is answered without them.
-/
import Stocklist.Binary64

namespace Stocklist

/-- The decimal fraction `coefficient * 10 ^ exponent`. -/
structure Decimal where
  coefficient : Nat
  exponent : Int
deriving DecidableEq, Repr

namespace Decimal

/-- The nearest magnitude, or `none` beyond the largest.  A coefficient of at least one
    with an exponent above 400 is beyond it, and one below `2 ^ (n + 1)` with an exponent
    under `-400 - n` is nearer to zero than to any other magnitude. -/
def round (d : Decimal) : Option Magnitude :=
  if d.coefficient = 0 then some .zero
  else if 400 < d.exponent then none
  else if d.exponent + d.coefficient.log2 < -400 then some .zero
  else Magnitude.ofRatio (d.coefficient * Nat.pow 10 d.exponent.toNat)
      (Nat.pow 10 (-d.exponent).toNat)

end Decimal

end Stocklist
