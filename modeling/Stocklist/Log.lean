/-
  Stocklist/Log.lean
  ==================
  **Log entries as values.**

  A computation that has something to report returns its entries; the outer layer
  decides which of them to print.
-/

namespace Stocklist.Log

inductive Level where
  | error
  | warn
  | info
  | debug
  | trace
deriving DecidableEq, Repr

namespace Level

def name : Level → String
  | error => "ERROR"
  | warn => "WARN"
  | info => "INFO"
  | debug => "DEBUG"
  | trace => "TRACE"

/-- How much detail an entry of the level adds; a greater number is less important. -/
def verbosity : Level → Nat
  | error => 1
  | warn => 2
  | info => 3
  | debug => 4
  | trace => 5

end Level

/-- A report, with the part of the program it comes from. -/
structure Entry where
  level : Level
  target : String
  message : String
deriving DecidableEq, Repr

def Entry.short (e : Entry) : String :=
  e.level.name ++ " " ++ e.message

def Entry.line (e : Entry) : String :=
  e.level.name ++ " " ++ e.target ++ ": " ++ e.message

end Stocklist.Log
