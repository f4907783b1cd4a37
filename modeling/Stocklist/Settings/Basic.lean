/-
  Stocklist/Settings/Basic.lean
  =============================
  **The settings of the program.**

  Each setting can be given as a command-line option or as an environment variable; one
  that is given in neither way has a default.  A value in words may be refused, and the
  same words are refused in the same way wherever they come from.
-/
import Stocklist.Numeral
import Stocklist.SocketAddress

namespace Stocklist

structure Settings where
  /-- The path of the catalog. -/
  data : String
  /-- The address to listen on. -/
  bind : SocketAddress
  /-- The number of items on a page. -/
  pageSize : UInt64
  /-- The first row of the catalog is a header. -/
  skipHeader : Bool
deriving DecidableEq, Repr

namespace Settings

def defaultPageSize : UInt64 := 20

def default : Settings :=
  { data := "db.csv", bind := .allInterfaces, pageSize := defaultPageSize, skipHeader := false }

end Settings

inductive Setting where
  | data
  | bind
  | pageSize
  | skipHeader
deriving DecidableEq, Repr

namespace Setting

/-- All settings, in the order in which they are explained. -/
def all : List Setting := [.data, .bind, .pageSize, .skipHeader]

def name : Setting → String
  | .data => "data"
  | .bind => "bind"
  | .pageSize => "page-size"
  | .skipHeader => "skip-header"

/-- What stands for the value in explanations, for the options that take one. -/
def placeholder? : Setting → Option String
  | .data => some "DATA"
  | .bind => some "BIND"
  | .pageSize => some "PAGE_SIZE"
  | .skipHeader => none

def takesValue (s : Setting) : Bool :=
  s.placeholder?.isSome

def variableName : Setting → String
  | .data => "CATALOG_DATA"
  | .bind => "CATALOG_BIND"
  | .pageSize => "CATALOG_PAGE_SIZE"
  | .skipHeader => "CATALOG_SKIP_HEADER"

end Setting

/-! ### Values -/

inductive ValueFault where
  /-- There must be something. -/
  | empty
  /-- Only two words are allowed. -/
  | notBoolean
  | notAddress
  | notNumber (fault : Numeral.Fault)
  | zeroPageSize
deriving DecidableEq, Repr

structure Given where
  data : Option String := none
  bind : Option SocketAddress := none
  pageSize : Option UInt64 := none
  skipHeader : Option Bool := none
deriving DecidableEq, Repr

def readPageSize (value : String) : Except ValueFault UInt64 :=
  match Numeral.readUInt64 value with
  | .error fault => .error (.notNumber fault)
  | .ok n => if n = 0 then .error .zeroPageSize else .ok n

/-- Reads a truth value, in small letters only. -/
def readBoolean (value : String) : Except ValueFault Bool :=
  match value with
  | "true" => .ok true
  | "false" => .ok false
  | "" => .error .empty
  | _ => .error .notBoolean

namespace Given

def has (g : Given) : Setting → Bool
  | .data => g.data.isSome
  | .bind => g.bind.isSome
  | .pageSize => g.pageSize.isSome
  | .skipHeader => g.skipHeader.isSome

/-- Gives a setting the value that a text stands for. -/
def put (g : Given) (s : Setting) (value : String) : Except ValueFault Given :=
  match s with
  | .data => if value = "" then .error .empty else .ok { g with data := some value }
  | .bind =>
    match SocketAddress.ofText? value with
    | none => .error .notAddress
    | some address => .ok { g with bind := some address }
  | .pageSize => (readPageSize value).map fun n => { g with pageSize := some n }
  | .skipHeader => (readBoolean value).map fun b => { g with skipHeader := some b }

def settings (g : Given) : Settings :=
  { data := g.data.getD Settings.default.data
    bind := g.bind.getD Settings.default.bind
    pageSize := g.pageSize.getD Settings.default.pageSize
    skipHeader := g.skipHeader.getD Settings.default.skipHeader }

end Given

end Stocklist
