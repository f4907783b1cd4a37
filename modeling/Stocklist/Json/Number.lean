/-
  Stocklist/Json/Number.lean
  ==========================
  **Numbers of a JSON text.**

  A number without fraction and exponent is an integer where a 64-bit word can hold it;
  any other is a double.  A double is put together from the digits that fit one word,
  and scaled by a power of ten that is itself a double.  This rounds up to three times,
  so the result can lie beside the nearest double; what is too large is refused.
-/
import Stocklist.Decimal.Basic
import Stocklist.Json.Fault
import Stocklist.Numeral

namespace Stocklist.Json

inductive Number where
  | natural (n : UInt64)
  | negative (n : Int64)
  | float (x : Binary64)
deriving DecidableEq, Repr

/-- The parts of a number: the values of its digits, and for the exponent whether it is
    negative. -/
structure NumberText where
  negative : Bool
  whole : List Nat
  fraction : Option (List Nat)
  exponent : Option (Bool × List Nat)
deriving DecidableEq, Repr

/-! ### Taking a number apart -/

open Numeral (takeDigits)

/-- A breach in the first byte of `ahead`, or at the end of the text.  A reader that only
    passes over the number makes no difference between the two. -/
def Breach.inNumber (ahead : List Char) : Breach :=
  if ahead.isEmpty then ⟨⟨.endInValue, 0⟩, ⟨.invalidNumber, 0⟩⟩
  else .both (.within .invalidNumber ahead)

def someDigits (cs : List Char) : Except Breach (List Nat × List Char) :=
  match takeDigits cs with
  | ([], _) => .error (.inNumber cs)
  | (ds, rest) => .ok (ds, rest)

/-- The digits before the point: a zero stands alone. -/
def wholeDigits (cs : List Char) : Except Breach (List Nat × List Char) :=
  match cs with
  | '0' :: rest =>
    match takeDigits rest with
    | ([], _) => .ok ([0], rest)
    | _ => .error (.both (.within .invalidNumber rest))
  | cs => someDigits cs

def fractionDigits : List Char → Except Breach (Option (List Nat) × List Char)
  | '.' :: cs => (someDigits cs).map fun (ds, rest) => (some ds, rest)
  | cs => .ok (none, cs)

def exponentDigits : List Char → Except Breach (Option (Bool × List Nat) × List Char)
  | [] => .ok (none, [])
  | c :: cs =>
    if c = 'e' ∨ c = 'E' then
      match cs with
      | '-' :: ds => (someDigits ds).map fun (ds, rest) => (some (true, ds), rest)
      | '+' :: ds => (someDigits ds).map fun (ds, rest) => (some (false, ds), rest)
      | ds => (someDigits ds).map fun (ds, rest) => (some (false, ds), rest)
    else .ok (none, c :: cs)

/-- Takes the number in front of a text apart. -/
def numberText (negative : Bool) (cs : List Char) : Except Breach (NumberText × List Char) := do
  let (whole, rest) ← wholeDigits cs
  let (fraction, rest) ← fractionDigits rest
  let (exponent, rest) ← exponentDigits rest
  return (⟨negative, whole, fraction, exponent⟩, rest)

/-! ### The value -/

/-- Extends a significand by digits for as long as it fits a 64-bit word.  Gives the
    significand, the number of digits taken and the number of those left. -/
def extend (n : Nat) : List Nat → Nat × Nat × Nat
  | [] => (n, 0, 0)
  | d :: ds =>
    if 10 * n + d < UInt64.size then
      let (n, taken, left) := extend (10 * n + d) ds
      (n, taken + 1, left)
    else (n, 0, ds.length + 1)

def exponentLimit : Nat := 2147483647

/-- The value of exponent digits read onto `n`, or the number of digits that follow the
    one at which the value exceeds the limit. -/
def boundedExponent (n : Nat) : List Nat → Except Nat Nat
  | [] => .ok n
  | d :: ds =>
    if 10 * n + d ≤ exponentLimit then boundedExponent (10 * n + d) ds else .error ds.length

def greatestPower : Nat := 308

def powerOfTen (k : Nat) : Option Magnitude :=
  Magnitude.ofNat (Nat.pow 10 k)

/-- Divides by the greatest power of ten a number of times, or until nothing is left. -/
def divideByGreatest (f : Magnitude) : Nat → Option Magnitude
  | 0 => some f
  | k + 1 =>
    if f.significand = 0 then some f
    else do divideByGreatest (← f.div (← powerOfTen greatestPower)) k

/-- Divides by `10 ^ exponent`: by the greatest power as long as the exponent is beyond it,
    and then by the power that remains. -/
def scaleDown (f : Magnitude) (exponent : Nat) : Option Magnitude := do
  let times := (exponent - 1) / greatestPower
  let f ← divideByGreatest f times
  f.div (← powerOfTen (exponent - times * greatestPower))

/-- A magnitude times a power of ten, in rounded steps; `none` if it is too large. -/
def scaleBy (f : Magnitude) (exponent : Int) : Option Magnitude :=
  if exponent < 0 then scaleDown f exponent.natAbs
  else if exponent ≤ greatestPower then (powerOfTen exponent.toNat).bind f.mul
  else if f.significand = 0 then some f
  else none

/-- A significand times a power of ten; the significand is rounded first. -/
def scale (significand : Nat) (exponent : Int) : Option Magnitude := do
  scaleBy (← Magnitude.ofNat significand) exponent

/-- A signed value from a scaled significand, which must not be too large. -/
def inRange (negative : Bool) (ahead : List Char) : Option Magnitude → Except Fault Binary64
  | some m => .ok (.finite negative m)
  | none => .error (.before .numberOutOfRange ahead)

/-- The value of a number as a double. -/
def NumberText.float (t : NumberText) (ahead : List Char) : Except Fault Binary64 :=
  let (n, _, dropped) := extend 0 t.whole
  let (n, placed, _) := extend n (t.fraction.getD [])
  let start : Int := (dropped : Int) - placed
  match t.exponent with
  | none => inRange t.negative ahead (scale n start)
  | some (negative, ds) =>
    match boundedExponent 0 ds with
    | .ok e => inRange t.negative ahead (scale n (if negative then start - e else start + e))
    | .error left =>
      if n ≠ 0 ∧ ¬ negative then .error ⟨.numberOutOfRange, Utf8.byteLength ahead + left⟩
      else .ok (.finite t.negative .zero)

/-- The value of a number.  `ahead` is the text after it.  Minus zero and
    negative integers below the least word are doubles. -/
def NumberText.value (t : NumberText) (ahead : List Char) : Except Fault Number :=
  let (n, _, dropped) := extend 0 t.whole
  if t.fraction.isNone ∧ t.exponent.isNone ∧ dropped = 0 ∧
      (t.negative → 0 < n ∧ n ≤ Int64.minValue.toInt.natAbs) then
    .ok (if t.negative then .negative (Int64.ofInt (-n)) else .natural (UInt64.ofNat n))
  else (t.float ahead).map .float

end Stocklist.Json
