/-
  Stocklist/Log/Filter.lean
  =========================
  **Which log entries are printed.**

  A filter is a list of directives with commas between them, some of them empty.  A
  directive is a level for all entries, or the beginning of a target with the level of the
  entries from there, as in `info,server=debug`; a target without a level admits
  everything.  A field in brackets restricts a directive to entries that have it, as in
  `[{message}]`.  A directive that is bound to a span or to the value of a field admits
  nothing here, because no entry of the program belongs to a span.

  The form of a directive is that of its text without the blanks around it, but what
  stands between its signs is taken from the whole text, as many bytes from the beginning.
  So a blank before a directive shifts what it says, and one after it belongs to it.

  The most specific directive that applies to an entry decides, and none means no.
-/
import Stocklist.Decimal.Text
import Stocklist.Log
import Stocklist.Pattern
import Stocklist.Text.Parts
import Stocklist.Text.Utf8

namespace Stocklist.Log

/-- The least important level that is admitted, or none. -/
abbrev Limit := Option Level

def Limit.admits (limit : Limit) (l : Level) : Bool :=
  match limit with
  | none => false
  | some least => l.verbosity ≤ least.verbosity

/-- The names of the limits, by the number that also stands for them. -/
def limitNames : List (String × Limit) :=
  [("off", none), ("error", some .error), ("warn", some .warn), ("info", some .info),
    ("debug", some .debug), ("trace", some .trace)]

def Limit.ofText? (text : String) : Option Limit :=
  match Numeral.readUInt64 text with
  | .ok n => limitNames[n.toNat]?.map (·.2)
  | .error _ => limitNames.lookup text.toLower

/-- What a directive admits. -/
structure Directive where
  /-- How the target of an entry begins. -/
  target? : Option String := none
  /-- A field that an entry has. -/
  field? : Option String := none
  /-- It applies only within a span, or where a field has a given value. -/
  isBound : Bool := false
  limit : Limit := some .trace
deriving DecidableEq, Repr

namespace Directive

def readLimit? (d : Directive) (cs : List Char) : Option Directive :=
  if cs.isEmpty then some d
  else (Limit.ofText? (String.ofList cs)).map fun limit => { d with limit }

/-- Reads what may follow a closing bracket, which ends at the byte `place` of the whole
    text. -/
def readRest? (d : Directive) (whole : List Char) (place : Nat) : List Char → Option Directive
  | [] => some d
  | '=' :: _ => (Utf8.dropBytes? (place + 1) whole).bind d.readLimit?
  | _ => none

/-- Whether a text may be asked for as the value of a field: it is a number or a pattern. -/
def isValue (cs : List Char) : Bool :=
  (Binary64.ofText? (String.ofList cs)).isSome || Pattern.isPattern cs

def readField? (d : Directive) (cs : List Char) : Option Directive :=
  match Text.parts '=' cs with
  | [name] => if name.isEmpty then none else some { d with field? := some (String.ofList name) }
  | name :: value :: _ =>
    if isValue value then some { d with field? := some (String.ofList name), isBound := true }
    else none
  | [] => none

/-- Reads the brackets of a directive after the opening one, which ends at the byte `place`
    of the whole text: the name of a span, and a field in braces. -/
def readSpan? (d : Directive) (whole : List Char) (place : Nat) (cs : List Char) :
    Option Directive :=
  let isName := fun c => c ≠ ']' && c ≠ '\x7b'
  let name := cs.takeWhile isName
  let place := place + Utf8.byteLength name + 1
  match cs.dropWhile isName with
  | ']' :: rest => { d with isBound := true }.readRest? whole place rest
  | '\x7b' :: more =>
    let size := Utf8.byteLength (more.takeWhile (· ≠ '\x7d'))
    match more.dropWhile (· ≠ '\x7d') with
    | '\x7d' :: ']' :: rest => do
      let field ← Utf8.takeBytes? size (← Utf8.dropBytes? place whole)
      let d ← { d with isBound := !name.isEmpty }.readField? field
      d.readRest? whole (place + size + 2) rest
    | _ => none
  | _ => none

/-- Whether a directive may start with a character, brackets apart. -/
def isStart (c : Char) : Bool :=
  c = '-' || c = ':' || c = '_' || Text.isLetterOrNumber c

def ofChars? (whole : List Char) : Option Directive :=
  let cs := Text.trim whole
  let isWord := fun c => c ≠ '=' && c ≠ '['
  let size := Utf8.byteLength (cs.takeWhile isWord)
  match cs with
  | [] => none
  | '[' :: rest => ({} : Directive).readSpan? whole 1 rest
  | c :: _ =>
    if !isStart c then none
    else
      match cs.dropWhile isWord with
      | [] =>
        let text := String.ofList whole
        match Limit.ofText? text with
        | some limit => some { limit }
        | none => some { target? := some text }
      | sign :: rest => do
        let target ← Utf8.takeBytes? size whole
        let d := { target? := some (String.ofList target) : Directive }
        if sign = '=' then d.readLimit? (← Utf8.dropBytes? (size + 1) whole)
        else d.readSpan? whole (size + 1) rest

def messageField : String := "message"

def applies (d : Directive) (e : Entry) : Bool :=
  !d.isBound && d.target?.all (·.toList.isPrefixOf e.target.toList) &&
    d.field?.all (· = messageField)

/-- How specific a directive is: the longer target counts first, then the field. -/
def weight (d : Directive) : Nat :=
  2 * (d.target?.map (·.utf8ByteSize + 1)).getD 0 + if d.field?.isSome then 1 else 0

end Directive

/-- Directives, of which a later one counts more than an equally specific one before. -/
structure Filter where
  directives : List Directive
deriving DecidableEq, Repr

namespace Filter

def informative : Filter := ⟨[{ limit := some .info }]⟩

def errorsOnly : Filter := ⟨[{ limit := some .error }]⟩

/-- The most specific directive that applies to an entry. -/
def decisive? (f : Filter) (e : Entry) : Option Directive :=
  (f.directives.filter (·.applies e)).foldl (fun best d =>
    match best with
    | none => some d
    | some b => if b.weight ≤ d.weight then some d else best) none

def admits (f : Filter) (e : Entry) : Bool :=
  match f.decisive? e with
  | some d => d.limit.admits e.level
  | none => false

/-- The filter that a text asks for.  One without directives asks for errors only. -/
def ofText? (text : String) : Option Filter :=
  match (Text.parts ',' text.toList).filter (· ≠ []) with
  | [] => some errorsOnly
  | parts => (parts.mapM Directive.ofChars?).map (⟨·⟩)

/-- The filter that an environment variable asks for.  One that is not set or makes no
    sense asks for the usual entries. -/
def ofVariable (value : Option String) : Filter :=
  (value.bind ofText?).getD informative

def lines (f : Filter) (entries : List Entry) : List String :=
  (entries.filter f.admits).map (·.line)

end Filter

end Stocklist.Log
