/-
  Stocklist/Pattern/Class.lean
  ============================
  **Classes of characters in brackets.**

  A class lists characters, ranges, named classes and classes in brackets of their own.
  `&&`, `--` and `~~` join what stands on their two sides.  A dash counts as itself at the
  beginning, before the closing bracket and before another dash, and a closing bracket
  counts as itself right after the opening one.
-/
import Stocklist.Pattern.Atom

namespace Stocklist.Pattern

/-- How deep things stand that are put side by side: one deeper than the deepest, if there
    are several. -/
def depthOf : List Nat → Nat
  | [] => 0
  | [n] => n
  | ns => ns.foldl max 0 + 1

def classNames : List String :=
  ["alnum", "alpha", "ascii", "blank", "cntrl", "digit", "graph", "lower", "print", "punct",
    "space", "upper", "word", "xdigit"]

/-- Reads a name between colons after an opening bracket: whether the class is negated, and
    what follows its closing bracket. -/
def readNamed? : List Char → Option (Bool × List Char)
  | ':' :: cs =>
    let isNegated := cs.head? = some '^'
    let cs := if isNegated then cs.drop 1 else cs
    match cs.dropWhile (· ≠ ':') with
    | ':' :: ']' :: rest =>
      if classNames.contains (String.ofList (cs.takeWhile (· ≠ ':'))) then some (isNegated, rest)
      else none
    | _ => none
  | _ => none

def readSingle (m : Mode) : List Char → Option (Atom × List Char)
  | [] => none
  | '\\' :: rest => readEscape m rest
  | c :: rest => some (.literal c false, rest)

/-- The character after blanks and the mark of a comment. -/
def Mode.ahead? (m : Mode) (cs : List Char) : Option Char :=
  if m.isLoose then
    match cs.dropWhile Text.isBlank with
    | '#' :: cs => (cs.dropWhile Text.isBlank).head?
    | cs => cs.head?
  else cs.head?

def isRange : Atom → Atom → Bool
  | .literal first _, .literal last _ => first ≤ last
  | _, _ => false

/-- Reads a character or a range. -/
def readRange? (m : Mode) (cs : List Char) : Option (List Char) := do
  let (first, rest) ← readSingle m cs
  guard (first.isAllowedInClass m)
  match m.skip rest with
  | '-' :: more =>
    if m.ahead? more ∈ [some ']', some '-'] then return '-' :: more
    let (last, rest) ← readSingle m (m.skip more)
    guard (last.isAllowedInClass m && isRange first last)
    return rest
  | rest => return rest

/-- What has been read of a class. -/
structure ClassSoFar where
  /-- There is nothing but dashes. -/
  isFresh : Bool := true
  /-- The depth of what stands before the last operator. -/
  left? : Option Nat := none
  /-- The depths of the items after it. -/
  items : List Nat := []

namespace ClassSoFar

def add (s : ClassSoFar) (depth : Nat) : ClassSoFar :=
  { s with isFresh := false, items := depth :: s.items }

def depth (s : ClassSoFar) : Nat :=
  match s.left? with
  | none => depthOf s.items
  | some left => depthOf [left, depthOf s.items]

/-- An operator ends its left side. -/
def operator (s : ClassSoFar) : ClassSoFar :=
  { isFresh := false, left? := some s.depth }

end ClassSoFar

/-- Reads the sign of negation after an opening bracket.  Where bytes are meant it would
    admit halves of characters. -/
def readNegation? (m : Mode) (cs : List Char) : Option (List Char) :=
  match m.skip cs with
  | '^' :: rest => if m.isUnicode then some rest else none
  | rest => some rest

/-- Reads a class up to its closing bracket: its depth, and what follows.  The fuel bounds
    the number of characters. -/
def readClass (m : Mode) : Nat → ClassSoFar → List Char → Option (Nat × List Char)
  | 0, _, _ => none
  | fuel + 1, s, cs =>
    let isItself := Atom.isAllowedInClass m (.literal '-' false)
    match m.skip cs with
    | [] => none
    | '[' :: rest =>
      match readNamed? rest with
      | some (isNegated, rest) =>
        if isItself && (m.isUnicode || !isNegated) then readClass m fuel (s.add 0) rest
        else none
      | none => do
        let (depth, rest) ← readClass m fuel {} (← readNegation? m rest)
        readClass m fuel (s.add (depth + 1)) rest
    | c :: rest =>
      if s.isFresh && c = '-' then
        if isItself then readClass m fuel { s with items := 0 :: s.items } rest else none
      else if c = ']' then
        if s.isFresh && s.items.isEmpty then
          if isItself then readClass m fuel (s.add 0) rest else none
        else some (s.depth, rest)
      else if c ∈ ['&', '-', '~'] && rest.head? = some c then
        readClass m fuel s.operator (rest.drop 1)
      else do readClass m fuel (s.add 0) (← readRange? m (c :: rest))

end Stocklist.Pattern
