/-
  Stocklist/Numeral.lean
  ======================
  **Decimal integer texts with a range.**

  An integer text is an optional sign and one or more ASCII digits, any number of
  leading zeros allowed and nothing else.  A text that breaks the form and a text whose
  value leaves the range are told apart; `Fault.message` holds the wording.  The digits
  are read from the left, so a text with both faults reports the one met first.
-/

namespace Stocklist.Numeral

/-- Why a text is not an integer of the wanted range. -/
inductive Fault where
  | empty
  | notDigit
  | tooLarge
  | tooSmall
deriving DecidableEq, Repr

def Fault.message : Fault → String
  | .empty => "cannot parse integer from empty string"
  | .notDigit => "invalid digit found in string"
  | .tooLarge => "number too large to fit in target type"
  | .tooSmall => "number too small to fit in target type"

def digit? (c : Char) : Option Nat :=
  if '0' ≤ c ∧ c ≤ '9' then some (c.toNat - '0'.toNat) else none

/-- The number that a list of digit values denotes, most significant first. -/
def ofDigits (ds : List Nat) : Nat :=
  ds.foldl (fun n d => 10 * n + d) 0

/-- The values of the leading digits of a text, and what follows them. -/
def takeDigits : List Char → List Nat × List Char
  | [] => ([], [])
  | c :: cs =>
    match digit? c with
    | some d => let (ds, rest) := takeDigits cs; (d :: ds, rest)
    | none => ([], c :: cs)

/-- Reads digits onto the magnitude `n` as long as it stays within `limit`; the fault
    `beyond` stands for leaving it. -/
def magnitude (limit : Nat) (beyond : Fault) (n : Nat) : List Char → Except Fault Nat
  | [] => .ok n
  | c :: cs =>
    match digit? c with
    | none => .error .notDigit
    | some d => if 10 * n + d ≤ limit then magnitude limit beyond (10 * n + d) cs else .error beyond

/-- Reads one or more digits of a magnitude within `limit`. -/
def magnitude? (limit : Nat) (beyond : Fault) : List Char → Except Fault Nat
  | [] => .error .notDigit
  | c :: cs => magnitude limit beyond 0 (c :: cs)

/-- Reads an unsigned integer of at most `limit`; only a plus sign may lead it. -/
def readNat (limit : Nat) : List Char → Except Fault Nat
  | [] => .error .empty
  | '+' :: cs => magnitude? limit .tooLarge cs
  | cs => magnitude? limit .tooLarge cs

/-- Reads an integer from `-(limit + 1)` to `limit`, the range of a signed word. -/
def readInt (limit : Nat) : List Char → Except Fault Int
  | [] => .error .empty
  | '+' :: cs => (magnitude? limit .tooLarge cs).map Int.ofNat
  | '-' :: cs => (magnitude? (limit + 1) .tooSmall cs).map (fun n => -(n : Int))
  | cs => (magnitude? limit .tooLarge cs).map Int.ofNat

def readUInt64 (s : String) : Except Fault UInt64 :=
  (readNat (UInt64.size - 1) s.toList).map UInt64.ofNat

def readInt64 (s : String) : Except Fault Int64 :=
  (readInt Int64.maxValue.toInt.toNat s.toList).map Int64.ofInt

end Stocklist.Numeral
