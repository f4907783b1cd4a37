/-
  Stocklist/Pattern/Atom.lean
  ===========================
  **The smallest parts of a pattern: characters, and the signs that a backslash makes.**

  A pattern is read under a mode that its flags set.  Unicode's classes of characters and
  its pairs of capitals and small letters are not known here, so what needs them is
  refused: what counts as a digit, a blank or a word, and likeness of case, under the
  flag `u` that is on from the start.  Without that flag a pattern is one of bytes, and
  what could match half of a character is refused instead.
-/
import Stocklist.Text.Blank
import Stocklist.Text.Hex

namespace Stocklist.Pattern

/-- How a pattern is read. -/
structure Mode where
  /-- Blanks and comments do not count (`x`). -/
  isLoose : Bool := false
  /-- Capitals and small letters are alike (`i`). -/
  isCaseless : Bool := false
  /-- Characters are meant and not bytes (`u`). -/
  isUnicode : Bool := true
deriving DecidableEq, Repr

/-- Leaves out blanks and comments.  A comment goes from a number sign to the end of the
    line. -/
def skipRemarks (inComment : Bool) : List Char → List Char
  | [] => []
  | c :: cs =>
    if inComment then skipRemarks (c ≠ '\n') cs
    else if c = '#' then skipRemarks true cs
    else if Text.isBlank c then skipRemarks false cs
    else c :: cs

/-- Leaves out what does not count. -/
def Mode.skip (m : Mode) (cs : List Char) : List Char :=
  if m.isLoose then skipRemarks false cs else cs

/-- A smallest part. -/
inductive Atom where
  /-- A character; one of two hexadecimal digits is a byte where bytes are meant. -/
  | literal (c : Char) (isByte : Bool)
  /-- Any character. -/
  | any
  /-- A place in the text, perhaps one where a word begins or ends. -/
  | place (ofWord : Bool)
  /-- A digit, a blank or a character of a word, or anything but that. -/
  | kind (isNegated : Bool)
deriving DecidableEq, Repr

namespace Atom

def isAllowed (m : Mode) : Atom → Bool
  | literal c isByte => if m.isUnicode then !m.isCaseless else !isByte || c ≤ '\x7f'
  | any => m.isUnicode
  | place ofWord => !(ofWord && m.isUnicode)
  | kind isNegated => !m.isUnicode && !isNegated

def isAllowedInClass (m : Mode) : Atom → Bool
  | literal c _ => if m.isUnicode then !m.isCaseless else c ≤ '\x7f'
  | kind isNegated => !m.isUnicode && !isNegated
  | any | place _ => false

end Atom

def readHex (m : Mode) : Nat → Nat → List Char → Option (Nat × List Char)
  | 0, n, cs => some (n, cs)
  | digits + 1, n, cs =>
    match m.skip cs with
    | [] => none
    | c :: cs => (Text.hexValue? c).bind fun d => readHex m digits (16 * n + d) cs

/-- Reads a character that is given by its number. -/
def readNumbered (m : Mode) (digits : Nat) (cs : List Char) : Option (Atom × List Char) :=
  (readHex m digits 0 cs).bind fun (n, rest) =>
    if n.isValidChar then some (.literal (Char.ofNat n) (digits = 2), rest) else none

/-- The characters that letters stand for. -/
def letterMeanings : List (Char × Char) :=
  [('a', '\x07'), ('f', '\x0c'), ('t', '\t'), ('n', '\n'), ('r', '\r'), ('v', '\x0b')]

def readEscape (m : Mode) : List Char → Option (Atom × List Char)
  | [] => none
  | c :: rest =>
    if c = 'x' then readNumbered m 2 rest
    else if c = 'u' then readNumbered m 4 rest
    else if c = 'U' then readNumbered m 8 rest
    else if c ∈ ['A', 'z'] then some (.place false, rest)
    else if c ∈ ['b', 'B', '<', '>'] then some (.place true, rest)
    else if c ∈ ['d', 's', 'w'] then some (.kind false, rest)
    else if c ∈ ['D', 'S', 'W'] then some (.kind true, rest)
    else
      match letterMeanings.lookup c with
      | some meaning => some (.literal meaning false, rest)
      | none =>
        if c.isAlphanum || '\x7f' < c then none else some (.literal c false, rest)

end Stocklist.Pattern
