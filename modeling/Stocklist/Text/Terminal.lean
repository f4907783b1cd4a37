/-
  Stocklist/Text/Terminal.lean
  ============================
  **Texts without terminal control.**

  A text that is printed among others must not move the cursor or change colours, so
  control characters are left out, except for those that are blanks.  The sequence that
  an escape character begins is left out with it: a bracket goes on to the first letter
  or the like, a command to the next bell, and any other string to a terminator.  A blank
  control breaks a bracket off, an escape breaks off anything, and where the text ends,
  so does a sequence in it.

  On a stream of output a blank control does not quite break a sequence off: it goes on
  behind the next control character, unless another sequence or a character beyond ASCII
  comes first.
-/
import Stocklist.Text.Utf8

namespace Stocklist.Text

/-- What a character belongs to. -/
inductive Control where
  | none
  | escape
  /-- An escape, with characters between it and the last one. -/
  | escapeInner
  | bracket
  /-- A command of the operating system. -/
  | command
  /-- The head of a device control string: nothing of it yet. -/
  | deviceStart
  /-- The head of a device control string: its parameters. -/
  | deviceParameters
  /-- The head of a device control string: characters before the last one. -/
  | deviceInner
  /-- A string up to its terminator. -/
  | string
  /-- Nothing, but a sequence waits to go on. -/
  | waiting (sequence : Control)
deriving DecidableEq, Repr

/-- The control characters that are blanks. -/
def isBlankControl (c : Char) : Bool :=
  c = '\t' || c = '\n' || c = '\x0c' || c = '\r'

/-- Whether a character is kept where no sequence is going on. -/
def isPrinted (c : Char) : Bool :=
  isBlankControl c || (' ' ≤ c && c ≠ '\x7f')

/-- The byte that ends a string, wherever it stands in a character. -/
def stringTerminator : UInt8 := 0x9C

/-- What begins with a character after an escape. -/
def Control.ofIntroducer (c : Char) : Control :=
  if c = '[' then .bracket
  else if c = ']' then .command
  else if c = 'P' then .deviceStart
  else if c = 'X' || c = '^' || c = '_' then .string
  else .none

/-- What follows a character that belongs to a sequence. -/
def Control.next (s : Control) (c : Char) : Control :=
  let isVisible := ' ' ≤ c && c < '\x7f'
  match s with
  | .none | .waiting _ => .none
  | .escape =>
    if !isVisible then .escape else if c < '0' then .escapeInner else .ofIntroducer c
  | .escapeInner => if isVisible && '0' ≤ c then .none else .escapeInner
  | .bracket => if isVisible && '@' ≤ c then .none else .bracket
  | .command => if c = '\x07' then .none else .command
  | .deviceStart =>
    if !isVisible then .deviceStart
    else if c < '0' then .deviceInner
    else if c < '@' then .deviceParameters
    else .string
  | .deviceParameters =>
    if !isVisible then .deviceParameters
    else if c < '0' then .deviceInner
    else if c < '<' then .deviceParameters
    else .string
  | .deviceInner => if isVisible && '0' ≤ c then .string else .deviceInner
  | .string => if (Utf8.encode [c]).contains stringTerminator then .none else .string

/-- Whether a blank control breaks a sequence off. -/
def Control.isFragile : Control → Bool
  | .escape | .escapeInner | .bracket => true
  | .none | .command | .deviceStart | .deviceParameters | .deviceInner | .string
  | .waiting _ => false

/-- What the next character belongs to, and whether this one is kept. -/
def Control.step (onStream : Bool) (s : Control) (c : Char) : Control × Bool :=
  if c = '\x1b' then (.escape, false)
  else if c = '\x18' || c = '\x1a' then (.none, false)
  else
    match s with
    | .none => (.none, isPrinted c)
    | .waiting sequence =>
      if '\x7f' < c then (.none, true)
      else if isPrinted c then (s, true)
      else (sequence, false)
    | _ =>
      if s.isFragile && isBlankControl c then (if onStream then .waiting s else .none, true)
      else (s.next c, false)

def withoutControl (onStream : Bool) (s : Control) : List Char → List Char
  | [] => []
  | c :: rest =>
    let (next, isKept) := s.step onStream c
    let rest := withoutControl onStream next rest
    if isKept then c :: rest else rest

def plain (s : String) : String :=
  String.ofList (withoutControl false .none s.toList)

/-- What is left of a text on a stream of output. -/
def plainOutput (s : String) : String :=
  String.ofList (withoutControl true .none s.toList)

end Stocklist.Text
