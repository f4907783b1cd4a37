/-
  Stocklist/Decimal/Text.lean
  ===========================
  **Reading a floating-point number from a text.**

  The text is an optional sign followed by one of the words `inf`, `infinity` and `nan`
  in any case, or by digits with at most one point among or around them and at most one
  exponent after them.  At least one digit must stand beside the point, and at least one
  in the exponent.  Nothing may surround the number.  The value is the double nearest to
  the decimal, infinite where that is too large.
-/
import Stocklist.Decimal.Basic
import Stocklist.Numeral

namespace Stocklist

namespace Decimal

open Numeral (ofDigits takeDigits)

/-- Reads a number that fills the text: a run of digits and nothing after it. -/
def digits? (cs : List Char) : Option Nat :=
  match takeDigits cs with
  | (d :: ds, []) => some (ofDigits (d :: ds))
  | _ => none

/-- Reads the exponent part, if there is one, to the end of the text. -/
def exponent? : List Char → Option Int
  | [] => some 0
  | c :: cs =>
    if c = 'e' ∨ c = 'E' then
      match cs with
      | '+' :: ds => (digits? ds).map Int.ofNat
      | '-' :: ds => (digits? ds).map fun n => -(n : Int)
      | ds => (digits? ds).map Int.ofNat
    else none

/-- Reads an unsigned decimal to the end of the text. -/
def ofText? (cs : List Char) : Option Decimal :=
  let (whole, rest) := takeDigits cs
  let (fraction, rest) := match rest with
    | '.' :: ds => takeDigits ds
    | rest => ([], rest)
  if whole.isEmpty ∧ fraction.isEmpty then none
  else (exponent? rest).map fun e => ⟨ofDigits (whole ++ fraction), e - fraction.length⟩

end Decimal

namespace Binary64

/-- A text with its ASCII capitals made small. -/
def asciiLower (cs : List Char) : List Char :=
  cs.map fun c => if 'A' ≤ c ∧ c ≤ 'Z' then Char.ofNat (c.toNat + 32) else c

/-- Reads what follows the sign. -/
def unsigned? (negative : Bool) (cs : List Char) : Option Binary64 :=
  match Decimal.ofText? cs with
  | some d => some (ofMagnitude negative d.round)
  | none =>
    let word := asciiLower cs
    if word = "inf".toList ∨ word = "infinity".toList then some (infinite negative)
    else if word = "nan".toList then some nan
    else none

/-- The double that a text denotes, if it denotes one. -/
def ofText? (s : String) : Option Binary64 :=
  match s.toList with
  | '-' :: cs => unsigned? true cs
  | '+' :: cs => unsigned? false cs
  | cs => unsigned? false cs

end Binary64

end Stocklist
