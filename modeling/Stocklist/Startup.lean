/-
  Stocklist/Startup.lean
  ======================
  **From the command line to a server that listens.**

  The program reads its settings, loads the catalog and takes its address, in this order,
  and gives up at the first step that fails.  Misuse of the command line has an exit code
  of its own.  Any other failure is told with all that caused it, from the outside in.
-/
import Stocklist.Catalog.Load
import Stocklist.Log.Filter
import Stocklist.Search.Page
import Stocklist.Settings.Explanation

namespace Stocklist

open Catalog (LoadError Source)

/-! ### Failures -/

/-- What could not be done, and what caused that, each cause with its own cause after it. -/
structure Failure where
  message : String
  causes : List String
deriving DecidableEq, Repr

namespace Failure

/-- A text with its lines after the first set in. -/
def indent (width : Nat) (text : String) : String :=
  String.ofList (text.toList.flatMap fun c =>
    if c = '\n' then '\n' :: List.replicate width ' ' else [c])

/-- The causes, one below the other, numbered if there are several. -/
def causeLines : List String → List String
  | [only] => [blanks 4 ++ indent 4 only]
  | causes => causes.zipIdx.map fun (cause, i) =>
    let number := toString i
    blanks (5 - number.length) ++ number ++ ": " ++ indent 7 cause

def report (f : Failure) : String :=
  "Error: " ++ f.message ++
    (if f.causes.isEmpty then "" else "\n\nCaused by:\n") ++
    String.intercalate "\n" (causeLines f.causes) ++ "\n"

def ofLoad (path : String) (e : LoadError) : Failure :=
  { message := "failed to load catalog from " ++ path
    causes := match e with
      | .shortRow .. => [e.message]
      | _ => [e.message, e.detail] }

def ofBind (address : SocketAddress) (reason : String) : Failure :=
  ⟨"failed to bind " ++ address.text, [reason]⟩

end Failure

/-! ### The start -/

/-- How the rows of the catalog are taken under these settings. -/
def Settings.loadOptions (s : Settings) : Catalog.LoadOptions :=
  ⟨s.skipHeader⟩

/-- How the items that a query finds are shown under these settings. -/
def Settings.searchSettings (s : Settings) : SearchSettings :=
  ⟨s.pageSize⟩

/-- What the program has printed, and the code with which it has ended, if it has. -/
structure Printed where
  output : String := ""
  errors : String := ""
  exitCode? : Option UInt32 := none
deriving DecidableEq, Repr

def Interruption.printed (environment : Setting → Option String) (i : Interruption) : Printed :=
  match i with
  | .misuse _ => { errors := i.output environment, exitCode? := some 2 }
  | .help | .version => { output := i.output environment, exitCode? := some 0 }

def Failure.printed (f : Failure) : Printed :=
  { errors := f.report, exitCode? := some 1 }

/-- Log entries as far as they are printed. -/
def Printed.ofEntries (filter : Log.Filter) (entries : List Log.Entry) : Printed :=
  { output := String.join ((filter.lines entries).map (· ++ "\n")) }

def Printed.append (a b : Printed) : Printed :=
  ⟨a.output ++ b.output, a.errors ++ b.errors, b.exitCode?⟩

/-- What surrounds the program. -/
structure Host where
  arguments : List String
  environment : String → Option String
  /-- What comes of opening a path: its content, or why it cannot be opened. -/
  openPath : String → Except String Source
  /-- Why an address cannot be taken, if so. -/
  refusal? : SocketAddress → Option String

namespace Host

def settingValues (h : Host) (s : Setting) : Option String :=
  h.environment s.variableName

def filterVariable : String := "RUST_LOG"

def filter (h : Host) : Log.Filter :=
  .ofVariable (h.environment filterVariable)

def settings (h : Host) : Except Interruption Settings :=
  Settings.read h.arguments h.settingValues

/-- Loads the catalog, with what is printed on the way. -/
def catalog (h : Host) (s : Settings) : Printed × Except LoadError Catalog :=
  let (entries, result) := Catalog.loadFile s.loadOptions s.data (h.openPath s.data)
  (.ofEntries h.filter entries, result)

def reporter : String := "catalog_search"

def listening (address : SocketAddress) : List Log.Entry :=
  [⟨.info, reporter, "Listening on " ++ address.text⟩,
    ⟨.info, reporter, "Press Ctrl+C to shutdown"⟩]

/-- What the program prints until it ends or listens. -/
def start (h : Host) : Printed :=
  match h.settings with
  | .error i => i.printed h.settingValues
  | .ok s =>
    match h.catalog s with
    | (printed, .error e) => printed.append (Failure.ofLoad s.data e).printed
    | (printed, .ok _) =>
      match h.refusal? s.bind with
      | some reason => printed.append (Failure.ofBind s.bind reason).printed
      | none => printed.append (.ofEntries h.filter (listening s.bind))

end Host

end Stocklist
