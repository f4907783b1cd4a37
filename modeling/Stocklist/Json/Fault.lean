/-
  Stocklist/Json/Fault.lean
  =========================
  **Where and why a text is not JSON.**

  A fault names its cause and the number of bytes that were still ahead of the reader
  when it stopped, from which line and column follow.
-/
import Stocklist.Text.Utf8

namespace Stocklist.Json

open Utf8 (byteLength)

inductive Cause where
  | endInArray
  | endInObject
  | endInString
  | endInValue
  | expectedColon
  | expectedCommaOrBracket
  | expectedCommaOrBrace
  | expectedWord
  | expectedValue
  | invalidEscape
  | invalidNumber
  | numberOutOfRange
  | controlCharacter
  | keyNotString
  | loneSurrogate
  | unfinishedSurrogate
  | trailingComma
  | trailingCharacters
  | tooDeep
deriving DecidableEq, Repr

/-- Whether the text ends too early, as against going on in the wrong way. -/
def Cause.isEnd : Cause → Bool
  | .endInArray | .endInObject | .endInString | .endInValue => true
  | _ => false

def Cause.message : Cause → String
  | .endInArray => "EOF while parsing a list"
  | .endInObject => "EOF while parsing an object"
  | .endInString => "EOF while parsing a string"
  | .endInValue => "EOF while parsing a value"
  | .expectedColon => "expected `:`"
  | .expectedCommaOrBracket => "expected `,` or `]`"
  | .expectedCommaOrBrace => "expected `,` or `\x7d`"
  | .expectedWord => "expected ident"
  | .expectedValue => "expected value"
  | .invalidEscape => "invalid escape"
  | .invalidNumber => "invalid number"
  | .numberOutOfRange => "number out of range"
  | .controlCharacter =>
    "control character (\\u0000-\\u001F) found while parsing a string"
  | .keyNotString => "key must be a string"
  | .loneSurrogate => "lone leading surrogate in hex escape"
  | .unfinishedSurrogate => "unexpected end of hex escape"
  | .trailingComma => "trailing comma"
  | .trailingCharacters => "trailing characters"
  | .tooDeep => "recursion limit exceeded"

/-- A cause, with the number of bytes not yet taken when it was met. -/
structure Fault where
  cause : Cause
  ahead : Nat
deriving DecidableEq, Repr

/-- A fault met before the text `ahead`. -/
def Fault.before (cause : Cause) (ahead : List Char) : Fault :=
  ⟨cause, byteLength ahead⟩

/-- A fault in the first byte of the text `ahead`, or at the end if that is empty. -/
def Fault.within (cause : Cause) (ahead : List Char) : Fault :=
  ⟨cause, byteLength ahead - 1⟩

/-- The line, and the number of bytes in it up to the fault. -/
def Fault.place (f : Fault) (text : List Char) : Nat × Nat :=
  let taken := (Utf8.encode text).take (byteLength text - f.ahead)
  let column := (taken.reverse.takeWhile (· ≠ 0x0A)).length
  (1 + taken.count 0x0A, column)

def Fault.message (f : Fault) (text : List Char) : String :=
  let (line, column) := f.place text
  s!"{f.cause.message} at line {line} column {column}"

/-- A place where reading cannot go on.  A reader that wants the value may stop for
    another reason than one that only passes over it. -/
structure Breach where
  strict : Fault
  loose : Fault
deriving DecidableEq, Repr

/-- A place where every reader stops alike. -/
def Breach.both (f : Fault) : Breach := ⟨f, f⟩

end Stocklist.Json
