/-
  Stocklist/Json/Text.lean
  ========================
  **Texts as JSON strings.**

  Writing escapes the double quote, the backslash and the characters below `U+0020`, with
  the short escape where there is one.  Reading takes every escape of the format and
  needs surrogates in pairs.  A reader that only passes over a string does not look at
  surrogates.
-/
import Stocklist.Json.Fault
import Stocklist.Text.Hex

namespace Stocklist.Json

open Text (hexValue?)
open Utf8 (byteLength)

/-! ### Writing -/

/-- A character as it stands in a string. -/
def escapeChar (c : Char) : List Char :=
  if c = '"' then ['\\', '"']
  else if c = '\\' then ['\\', '\\']
  else if c = '\x08' then ['\\', 'b']
  else if c = '\x0c' then ['\\', 'f']
  else if c = '\n' then ['\\', 'n']
  else if c = '\r' then ['\\', 'r']
  else if c = '\t' then ['\\', 't']
  else if c.toNat < 0x20 then
    ['\\', 'u', '0', '0', Nat.digitChar (c.toNat / 16), Nat.digitChar (c.toNat % 16)]
  else [c]

/-- What stands between the quotes of a string. -/
def escape (cs : List Char) : List Char :=
  cs.flatMap escapeChar

def quote (cs : List Char) : List Char :=
  '"' :: escape cs ++ ['"']

/-! ### Reading -/

/-- Reads four hexadecimal digits.  The end of the text counts as met as soon as fewer
    than four bytes remain. -/
def hexUnit (cs : List Char) : Except Fault (Nat × List Char) :=
  if byteLength (cs.take 4) < 4 then .error ⟨.endInString, 0⟩
  else match cs with
    | a :: b :: c :: d :: rest =>
      match hexValue? a, hexValue? b, hexValue? c, hexValue? d with
      | some a, some b, some c, some d => .ok (((a * 16 + b) * 16 + c) * 16 + d, rest)
      | _, _, _, _ => .error ⟨.invalidEscape, byteLength cs - 4⟩
    | _ => .error ⟨.invalidEscape, byteLength cs - 4⟩

def shortEscape? (c : Char) : Option Char :=
  match c with
  | '"' => some '"'
  | '\\' => some '\\'
  | '/' => some '/'
  | 'b' => some '\x08'
  | 'f' => some '\x0c'
  | 'n' => some '\n'
  | 'r' => some '\r'
  | 't' => some '\t'
  | _ => none

/-- Whether a 16-bit unit is the first or the second half of a surrogate pair. -/
def isLeading (n : Nat) : Bool := 0xD800 ≤ n && n < 0xDC00
def isTrailing (n : Nat) : Bool := 0xDC00 ≤ n && n < 0xE000

/-- Reads the second half of a pair whose first half is `first`. -/
def trailingUnit (first : Nat) : List Char → Except Fault (Char × List Char)
  | [] => .error ⟨.endInString, 0⟩
  | '\\' :: cs =>
    match cs with
    | [] => .error ⟨.endInString, 0⟩
    | 'u' :: cs => do
      let (second, rest) ← hexUnit cs
      if isTrailing second then
        return (Char.ofNat (0x10000 + (first - 0xD800) * 0x400 + (second - 0xDC00)), rest)
      else .error (.before .loneSurrogate rest)
    | cs => .error (.within .unfinishedSurrogate cs)
  | cs => .error (.within .unfinishedSurrogate cs)

def readEscape : List Char → Except Fault (Char × List Char)
  | [] => .error ⟨.endInString, 0⟩
  | 'u' :: cs => do
    let (first, rest) ← hexUnit cs
    if isTrailing first then .error (.before .loneSurrogate rest)
    else if isLeading first then trailingUnit first rest
    else return (Char.ofNat first, rest)
  | c :: cs =>
    match shortEscape? c with
    | some e => .ok (e, cs)
    | none => .error (.within .invalidEscape (c :: cs))

/-- Reads a string up to and with its closing quote; the opening one has been taken.  The
    fuel bounds the number of characters read. -/
def readString : Nat → List Char → Except Fault (List Char × List Char)
  | 0, _ => .error ⟨.endInString, 0⟩
  | _, [] => .error ⟨.endInString, 0⟩
  | fuel + 1, c :: cs =>
    if c = '"' then .ok ([], cs)
    else if c = '\\' then do
      let (e, rest) ← readEscape cs
      let (text, rest) ← readString fuel rest
      return (e :: text, rest)
    else if c.toNat < 0x20 then .error (.within .controlCharacter (c :: cs))
    else do
      let (text, rest) ← readString fuel cs
      return (c :: text, rest)

def skipEscape : List Char → Except Fault (List Char)
  | [] => .error ⟨.endInString, 0⟩
  | 'u' :: cs => (hexUnit cs).map (·.2)
  | c :: cs =>
    if (shortEscape? c).isSome then .ok cs else .error (.within .invalidEscape (c :: cs))

/-- Passes over a string up to and with its closing quote. -/
def skipString : Nat → List Char → Except Fault (List Char)
  | 0, _ => .error ⟨.endInString, 0⟩
  | _, [] => .error ⟨.endInString, 0⟩
  | fuel + 1, c :: cs =>
    if c = '"' then .ok cs
    else if c = '\\' then do skipString fuel (← skipEscape cs)
    else if c.toNat < 0x20 then .error (.before .controlCharacter (c :: cs))
    else skipString fuel cs

end Stocklist.Json
