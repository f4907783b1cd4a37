/-
  Stocklist/Csv/Phase.lean
  ========================
  **The comma-separated dialect as a machine over bytes.**

  Fields are separated by commas.  A line feed, a return or a return with a line feed
  ends a row, and empty rows are passed over.  A field that begins with a double quote
  runs to the next lone quote, whatever stands between; two quotes together stand for
  one.  What follows a closing quote is taken as it is, up to the end of the field, and a
  quote that does not begin a field is an ordinary byte.

  The machine reports for each byte what it does to the row being read (`Mark`), so rows
  and their positions are put together elsewhere.
-/

namespace Stocklist.Csv

/-- Where the machine stands between two bytes. -/
inductive Phase where
  /-- Before the first byte of a row. -/
  | rowStart
  /-- After a return that ended a row; a line feed would belong to it. -/
  | afterReturn
  /-- Before the first byte of a field. -/
  | fieldStart
  | bare
  | quoted
  /-- After a quote in a quoted field: the closing one, or the first of two. -/
  | quoteInQuoted
deriving DecidableEq, Repr

/-- What a byte does to the row being read. -/
inductive Mark where
  | skip
  | keep
  | endField
  | endRow
deriving DecidableEq, Repr

def comma : UInt8 := 0x2C
def quote : UInt8 := 0x22
def lineFeed : UInt8 := 0x0A
def carriageReturn : UInt8 := 0x0D

namespace Phase

/-- One byte in a field where commas and line ends count; any other byte is kept. -/
def outside (b : UInt8) : Phase × Mark :=
  if b = comma then (.fieldStart, .endField)
  else if b = carriageReturn then (.afterReturn, .endRow)
  else if b = lineFeed then (.rowStart, .endRow)
  else (.bare, .keep)

def firstOfField (b : UInt8) : Phase × Mark :=
  if b = quote then (.quoted, .skip) else outside b

/-- The first byte after a row: line ends do not begin a new one. -/
def firstOfRow (b : UInt8) : Phase × Mark :=
  if b = carriageReturn ∨ b = lineFeed then (.rowStart, .skip) else firstOfField b

def step (p : Phase) (b : UInt8) : Phase × Mark :=
  match p with
  | .rowStart => firstOfRow b
  | .afterReturn => if b = lineFeed then (.rowStart, .skip) else firstOfRow b
  | .fieldStart => firstOfField b
  | .bare => outside b
  | .quoted => if b = quote then (.quoteInQuoted, .skip) else (.quoted, .keep)
  | .quoteInQuoted => if b = quote then (.quoted, .keep) else outside b

/-- Whether the machine is within a row, which the end of the input then ends. -/
def isWithinRow : Phase → Bool
  | .rowStart | .afterReturn => false
  | .fieldStart | .bare | .quoted | .quoteInQuoted => true

end Phase

end Stocklist.Csv
