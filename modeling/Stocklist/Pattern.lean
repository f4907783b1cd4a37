/-
  Stocklist/Pattern.lean
  ======================
  **The form of regular expressions.**

  Nothing is matched here, but a text that is no pattern is told from one that is.  A
  pattern is a choice between sequences of parts; a part is an atom, a class or a group,
  and signs of repetition may follow it.  Flags hold to the end of the group in which
  they are set.  A name may be given to one group only, and parts may not lie too deep in
  one another.  A number of repetitions in braces cannot be given.
-/
import Stocklist.Pattern.Class
import Stocklist.Text.Letter

namespace Stocklist.Pattern

/-! ### Openings -/

/-- The letters of flags, and the sign after which flags are taken away. -/
def flagSigns : List Char :=
  "imsUuRx-".toList

/-- Whether signs set flags: each at most once, and some flag after a dash. -/
def areFlags (signs : List Char) : Bool :=
  signs.all flagSigns.contains && decide signs.Nodup && signs.getLast? ≠ some '-'

/-- The mode after flags have been set or taken away. -/
def Mode.set (m : Mode) (signs : List Char) : Mode :=
  let given := signs.takeWhile (· ≠ '-')
  let now := fun (c : Char) (old : Bool) => if signs.contains c then given.contains c else old
  { isLoose := now 'x' m.isLoose
    isCaseless := now 'i' m.isCaseless
    isUnicode := now 'u' m.isUnicode }

/-- What an opening parenthesis begins. -/
inductive Opening where
  /-- Flags for the rest of the group that is open already. -/
  | flags (mode : Mode)
  | group (mode : Mode) (name? : Option (List Char))

/-- Whether a text may name a group. -/
def isName : List Char → Bool
  | [] => false
  | c :: cs =>
    (c = '_' || Text.isLetter c) &&
      cs.all fun c => ['_', '.', '[', ']'].contains c || Text.isLetterOrNumber c

def readName (m : Mode) (cs : List Char) : Option (Opening × List Char) :=
  let name := cs.takeWhile (· ≠ '>')
  match cs.dropWhile (· ≠ '>') with
  | _ :: rest => if isName name then some (.group m (some name), rest) else none
  | [] => none

/-- Reads flags, and the sign that tells how far they hold. -/
def readFlags (m : Mode) (cs : List Char) : Option (Opening × List Char) :=
  let isFlag := fun c => c ≠ ':' && c ≠ ')'
  let signs := cs.takeWhile isFlag
  if !areFlags signs then none
  else
    match cs.dropWhile isFlag with
    | ':' :: rest => some (.group (m.set signs) none, rest)
    | _ :: rest => if signs.isEmpty then none else some (.flags (m.set signs), rest)
    | [] => none

def readOpening (m : Mode) (cs : List Char) : Option (Opening × List Char) :=
  match m.skip cs with
  | '?' :: 'P' :: '<' :: rest => readName m rest
  | '?' :: '<' :: rest => readName m rest
  | '?' :: rest => readFlags m rest
  | rest => some (.group m none, rest)

/-! ### Groups -/

/-- A part of a sequence. -/
structure Part where
  depth : Nat
  /-- A sign of repetition may follow; none may follow flags. -/
  isRepeatable : Bool

/-- What has been read of a group. -/
structure GroupSoFar where
  mode : Mode := {}
  /-- The names that have been given, in other groups as well. -/
  names : List (List Char) := []
  /-- The depths of the sequences before this one. -/
  sequences : List Nat := []
  /-- The parts of this sequence, the last one first. -/
  parts : List Part := []

namespace GroupSoFar

def add (s : GroupSoFar) (depth : Nat) : GroupSoFar :=
  { s with parts := ⟨depth, true⟩ :: s.parts }

def sequenceDepth (s : GroupSoFar) : Nat :=
  depthOf (s.parts.map (·.depth))

def depth (s : GroupSoFar) : Nat :=
  depthOf (s.sequenceDepth :: s.sequences)

def choice (s : GroupSoFar) : GroupSoFar :=
  { s with sequences := s.sequenceDepth :: s.sequences, parts := [] }

def repeated? (s : GroupSoFar) : Option GroupSoFar :=
  match s.parts with
  | ⟨depth, true⟩ :: parts => some { s with parts := ⟨depth + 1, true⟩ :: parts }
  | _ => none

/-- What has been read when a group opens. -/
def inner? (s : GroupSoFar) (mode : Mode) (name? : Option (List Char)) : Option GroupSoFar :=
  match name? with
  | none => some { mode, names := s.names }
  | some name => if s.names.contains name then none else some { mode, names := name :: s.names }

end GroupSoFar

/-- Reads an atom outside brackets. -/
def readAtom (m : Mode) : List Char → Option (Atom × List Char)
  | '.' :: rest => some (.any, rest)
  | '^' :: rest | '$' :: rest => some (.place false, rest)
  | '\x7b' :: _ => none
  | cs => readSingle m cs

/-- Reads a group, to the end if it is all of the pattern and else up to its closing
    parenthesis.  The fuel bounds the number of characters. -/
def readGroup : Nat → Bool → GroupSoFar → List Char → Option (GroupSoFar × List Char)
  | 0, _, _, _ => none
  | fuel + 1, isAll, s, cs =>
    match s.mode.skip cs with
    | [] => if isAll then some (s, []) else none
    | ')' :: rest => if isAll then none else some (s, rest)
    | '|' :: rest => readGroup fuel isAll s.choice rest
    | '(' :: rest => do
      match ← readOpening s.mode rest with
      | (.flags mode, rest) =>
        readGroup fuel isAll { s with mode, parts := ⟨0, false⟩ :: s.parts } rest
      | (.group mode name?, rest) =>
        let (inner, rest) ← readGroup fuel false (← s.inner? mode name?) rest
        readGroup fuel isAll { s.add (inner.depth + 1) with names := inner.names } rest
    | '[' :: rest => do
      let (depth, rest) ← readClass s.mode fuel {} (← readNegation? s.mode rest)
      readGroup fuel isAll (s.add (depth + 1)) rest
    | c :: rest =>
      if c ∈ ['*', '+', '?'] then do
        let s ← s.repeated?
        readGroup fuel isAll s (if rest.head? = some '?' then rest.drop 1 else rest)
      else do
        let (atom, rest) ← readAtom s.mode (c :: rest)
        if atom.isAllowed s.mode then readGroup fuel isAll (s.add 0) rest else none

def depthLimit : Nat := 250

def isPattern (text : List Char) : Bool :=
  (readGroup (text.length + 1) true {} text).any fun (whole, _) => whole.depth ≤ depthLimit

end Stocklist.Pattern
