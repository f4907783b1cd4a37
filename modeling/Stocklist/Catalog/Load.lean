/-
  Stocklist/Catalog/Load.lean
  ===========================
  **A catalog from comma-separated rows.**

  Columns are known by their place: the identifier, the name, the price, the category,
  the sub-category, the container type and the margin; further columns are ignored.  The
  load gives one item per row or nothing at all.  Rows are read in order, and the first
  failure is reported.  Within a row a number of fields other than that of the first row
  comes first, then bytes that are not UTF-8, then a lack of columns.  The remarks on the
  rows before a failure stand.

  With `skipHeader` the first row only fixes the number of fields.  It is read in one go
  with the row after it, so a decoding failure in that row is placed where the header
  begins.
-/
import Stocklist.Catalog.Cell
import Stocklist.Csv.Rows
import Stocklist.Log
import Stocklist.Text.Utf8

namespace Stocklist.Catalog

open Csv (Position Row)

/-- The number of columns that every row must have. -/
def requiredColumns : Nat := 7

/-- How the rows of a source are taken. -/
structure LoadOptions where
  /-- The first row is a header and no item. -/
  skipHeader : Bool
deriving DecidableEq, Repr

/-- A stream of bytes: what it delivers, and the words with which it then fails, if it
    does not come to an end.  The bytes arrive in full reads, as those of a file do: a read
    gives fewer bytes than there is room for only if no more of them follow. -/
structure Source where
  bytes : List UInt8
  failure : Option String
deriving DecidableEq, Repr

/-- Why there is no catalog. -/
inductive LoadError where
  /-- The source could not be opened. -/
  | unopened (path : String) (reason : String)
  /-- The source failed while it was read. -/
  | broken (reason : String)
  | unequalWidths (position : Position) (expected found : Nat)
  | notUtf8 (position : Position) (field index : Nat)
  | shortRow (line found : Nat)
deriving DecidableEq, Repr

/-- What a failure to read the rows consists in, in words. -/
def LoadError.detail : LoadError → String
  | .unopened _ reason => reason
  | .broken reason => reason
  | .unequalWidths p expected found =>
    s!"CSV error: record {p.record} (line: {p.line}, byte: {p.byte}): " ++
      s!"found record with {found} fields, but the previous record has {expected} fields"
  | .notUtf8 p field index =>
    s!"CSV parse error: record {p.record} (line {p.line}, field: {field}, byte: {p.byte}): " ++
      s!"invalid utf-8: invalid UTF-8 in field {field} near byte index {index}"
  | .shortRow line found =>
    s!"catalog row at line {line} has {found} fields, expected at least {requiredColumns}"

def LoadError.message : LoadError → String
  | .unopened path reason => s!"failed to open catalog {path}: {reason}"
  | .shortRow line found => (LoadError.shortRow line found).detail
  | e => s!"failed to parse catalog csv: {e.detail}"

/-- The fields of a row as texts, or the number of the first field that is not UTF-8 and
    the length of its valid front.  The fields are counted from `i`. -/
def decodeFields (i : Nat) : List (List UInt8) → Except (Nat × Nat) (List String)
  | [] => .ok []
  | f :: fs =>
    match Utf8.decode? f with
    | none => .error (i, Utf8.validLength f)
    | some cs => (decodeFields (i + 1) fs).map (String.ofList cs :: ·)

def itemOfCells (line : Nat) : List String → Except LoadError (Item × List Remark)
  | id :: name :: price :: category :: subCategory :: containerType :: margin :: _ =>
    let (id, onId) := readId line id
    let (pricePerUnit, onPrice) := readFloat line .pricePerUnit price
    let (margin, onMargin) := readFloat line .margin margin
    .ok (⟨id, name, category, subCategory, containerType, pricePerUnit, margin⟩,
      onId ++ onPrice ++ onMargin)
  | cells => .error (.shortRow line cells.length)

/-- The item of a row that should have `width` fields; bytes that are not UTF-8 are placed
    at `position`. -/
def readRow (width : Nat) (position : Position) (row : Row) :
    Except LoadError (Item × List Remark) :=
  if row.fields.length ≠ width then
    .error (.unequalWidths row.position width row.fields.length)
  else
    match decodeFields 0 row.fields with
    | .error (field, index) => .error (.notUtf8 position field index)
    | .ok cells => itemOfCells row.position.line cells

/-- The items of the rows before the first that fails, and why that one fails. -/
structure Reading where
  items : List (Item × List Remark)
  failure : Option LoadError
deriving DecidableEq, Repr

/-- Puts a row in front of the rows that were read after it.  If it fails, they do not count. -/
def Reading.cons (row : Except LoadError (Item × List Remark)) (rest : Reading) : Reading :=
  match row with
  | .error e => ⟨[], some e⟩
  | .ok item => { rest with items := item :: rest.items }

/-- Reads rows that should all have `width` fields. -/
def readRows (width : Nat) : List Row → Reading
  | [] => ⟨[], none⟩
  | row :: rest => .cons (readRow width row.position row) (readRows width rest)

/-- Reads all rows.  The first row fixes the number of fields. -/
def readAll (options : LoadOptions) : List Row → Reading
  | [] => ⟨[], none⟩
  | first :: rest =>
    let width := first.fields.length
    if options.skipHeader then
      match rest with
      | [] => ⟨[], none⟩
      | second :: rest => .cons (readRow width first.position second) (readRows width rest)
    else readRows width (first :: rest)

/-- What a load comes to: the remarks on the rows that were read, in their order, and the
    catalog, if no row failed. -/
structure Loading where
  remarks : List Remark
  result : Except LoadError Catalog

/-- The failure that a reader of the source meets.  If the first read gives a byte order mark
    and nothing else, that is taken for all there is, and what would come next is not asked
    for.  In full reads this happens only if the mark is all that the source delivers. -/
def Source.metFailure (s : Source) : Option String :=
  if s.bytes = Csv.byteOrderMark then none else s.failure

/-- Loads the catalog that a source holds.  A source that fails gives no catalog, but a
    failure in a row that ended before is reported first. -/
def load (options : LoadOptions) (source : Source) : Loading :=
  let reader := Csv.read source.bytes
  let reading :=
    readAll options (if source.metFailure.isSome then reader.endedRows else reader.allRows)
  { remarks := reading.items.flatMap (·.2)
    result :=
      match reading.failure, source.metFailure with
      | some e, _ => .error e
      | none, some reason => .error (.broken reason)
      | none, none => .ok ⟨reading.items.map (·.1)⟩ }

/-! ### Catalogs in files -/

def reporter : String := "catalog_search::catalog::loader"

def Remark.entry (r : Remark) : Log.Entry :=
  ⟨.debug, reporter, r.message⟩

/-- The report on a catalog that was loaded from a file. -/
def loadedEntry (c : Catalog) : Log.Entry :=
  ⟨.info, reporter, s!"Loaded {c.size} records from disk."⟩

/-- Loads the catalog in a file, with reports.  What came of opening the file is given:
    its content as a source, or a reason why it cannot be opened. -/
def loadFile (options : LoadOptions) (path : String) (opened : Except String Source) :
    List Log.Entry × Except LoadError Catalog :=
  match opened with
  | .error reason => ([], .error (.unopened path reason))
  | .ok source =>
    let loading := load options source
    let closing :=
      match loading.result with
      | .ok c => [loadedEntry c]
      | .error _ => []
    (loading.remarks.map Remark.entry ++ closing, loading.result)

end Stocklist.Catalog
