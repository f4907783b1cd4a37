/-
  Stocklist/Csv/Rows.lean
  =======================
  **Rows of fields, each with the position at which its reading began.**

  Reading a row begins where the reading of the row before ended, so its position is
  that of the first byte not yet taken: before the empty lines that precede the row, and
  before the line feed that completes the line end of the row above.  The line of a
  position is one more than the number of line feeds before it.
-/
import Stocklist.Csv.Phase

namespace Stocklist.Csv

/-- A place in the input: the number of rows and bytes before it, and its line from 1. -/
structure Position where
  record : Nat
  line : Nat
  byte : Nat
deriving DecidableEq, Repr

def Position.start : Position := ⟨0, 1, 0⟩

/-- The place after one more byte. -/
def Position.advance (p : Position) (b : UInt8) : Position :=
  { p with line := if b = lineFeed then p.line + 1 else p.line, byte := p.byte + 1 }

/-- A row as bytes, with the place where its reading began. -/
structure Row where
  position : Position
  fields : List (List UInt8)
deriving DecidableEq, Repr

/-- The state of the reader between two bytes.  Fields and bytes still being read are
    kept with the last one first, and so are the rows. -/
structure Reader where
  phase : Phase
  /-- The place after the bytes taken so far. -/
  here : Position
  /-- The place where the reading of the current row began. -/
  origin : Position
  field : List UInt8
  fields : List (List UInt8)
  rows : List Row
deriving DecidableEq, Repr

namespace Reader

def startAt (p : Position) : Reader :=
  ⟨.rowStart, p, .start, [], [], []⟩

def currentRow (r : Reader) : Row :=
  ⟨r.origin, (r.field.reverse :: r.fields).reverse⟩

def step (r : Reader) (b : UInt8) : Reader :=
  let (phase, mark) := r.phase.step b
  let here := r.here.advance b
  match mark with
  | .skip => { r with phase, here }
  | .keep => { r with phase, here, field := b :: r.field }
  | .endField => { r with phase, here, field := [], fields := r.field.reverse :: r.fields }
  | .endRow =>
    let here := { here with record := here.record + 1 }
    ⟨phase, here, here, [], [], r.currentRow :: r.rows⟩

def run (r : Reader) (bs : List UInt8) : Reader :=
  bs.foldl step r

def endedRows (r : Reader) : List Row :=
  r.rows.reverse

/-- All rows, the end of the input ending the last one. -/
def allRows (r : Reader) : List Row :=
  if r.phase.isWithinRow then (r.currentRow :: r.rows).reverse else r.endedRows

end Reader

/-- The byte order mark that may lead a UTF-8 text. -/
def byteOrderMark : List UInt8 := [0xEF, 0xBB, 0xBF]

/-- The reader after all of the input.  A leading byte order mark is not content, but its
    bytes count. -/
def read (input : List UInt8) : Reader :=
  if byteOrderMark.isPrefixOf input then
    (Reader.startAt ⟨0, 1, byteOrderMark.length⟩).run (input.drop byteOrderMark.length)
  else (Reader.startAt .start).run input

end Stocklist.Csv
