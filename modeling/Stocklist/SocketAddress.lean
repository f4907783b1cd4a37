/-
  Stocklist/SocketAddress.lean
  ============================
  **Addresses to listen on: a host and a port.**

  A host is four bytes in decimal, or eight groups of sixteen bits in hexadecimal and in
  brackets.  Two colons stand for one or more groups that are zero, the last two groups
  may be written as four bytes, and a percent sign introduces a scope.

  An address is written in one way: groups in small letters without leading zeros, two
  colons for the first of the longest runs of two or more zero groups, and no scope if
  that is zero.  Four bytes are written only where six groups mark them as such.
-/
import Stocklist.Decimal.Shortest
import Stocklist.Numeral
import Stocklist.Text.Hex
import Stocklist.Text.Parts

namespace Stocklist

inductive HostAddress where
  | v4 (bytes : Vector UInt8 4)
  | v6 (groups : Vector UInt16 8) (scope : UInt32)
deriving DecidableEq, Repr

structure SocketAddress where
  host : HostAddress
  port : UInt16
deriving DecidableEq, Repr

namespace SocketAddress

/-! ### Reading -/

/-- A number of at most `limit`, in decimal digits with leading zeros or without. -/
def number? (limit : Nat) (cs : List Char) : Option Nat :=
  (Numeral.magnitude? limit .tooLarge cs).toOption

/-- A byte in up to three digits, without leading zeros. -/
def byte? (cs : List Char) : Option UInt8 :=
  if cs.length > 3 || (cs.length > 1 && cs.head? = some '0') then none
  else (number? (UInt8.size - 1) cs).map UInt8.ofNat

def bytes? (cs : List Char) : Option (Vector UInt8 4) := do
  match ← (Text.parts '.' cs).mapM byte? with
  | [a, b, c, d] => some #v[a, b, c, d]
  | _ => none

/-- A group in up to four digits. -/
def group? (cs : List Char) : Option UInt16 :=
  if cs.isEmpty || cs.length > 4 then none
  else (cs.mapM Text.hexValue?).map fun ds => UInt16.ofNat (ds.foldl (fun n d => 16 * n + d) 0)

def groupOfBytes (high low : UInt8) : UInt16 :=
  UInt16.ofNat (256 * high.toNat + low.toNat)

/-- Groups of which the last may stand for two, as four bytes. -/
def groupsOfParts? : List (List Char) → Option (List UInt16)
  | [] => some []
  | [last] =>
    match bytes? last with
    | some b => some [groupOfBytes b[0] b[1], groupOfBytes b[2] b[3]]
    | none => (group? last).map ([·])
  | part :: more => do return (← group? part) :: (← groupsOfParts? more)

/-- Groups with colons between them, or nothing at all. -/
def groups? (cs : List Char) : Option (List UInt16) :=
  if cs.isEmpty then some [] else groupsOfParts? (Text.parts ':' cs)

/-- The text before and after the first two colons in a row. -/
def splitGap : List Char → Option (List Char × List Char)
  | ':' :: ':' :: rest => some ([], rest)
  | c :: rest => (splitGap rest).map fun (before, after) => (c :: before, after)
  | [] => none

/-- The eight groups of a list, if it has as many. -/
def eight? (groups : List UInt16) : Option (Vector UInt16 8) :=
  if h : groups.toArray.size = 8 then some ⟨groups.toArray, h⟩ else none

/-- Eight groups, some of which may be left out.  Those before the gap have no dots. -/
def allGroups? (cs : List Char) : Option (Vector UInt16 8) := do
  match splitGap cs with
  | none => eight? (← groups? cs)
  | some (before, after) =>
    let head ← groups? before
    let tail ← groups? after
    if before.contains '.' || head.length + tail.length > 7 then none
    else eight? (head ++ List.replicate (8 - head.length - tail.length) 0 ++ tail)

/-- What stands between the brackets. -/
def bracketed? (cs : List Char) : Option HostAddress := do
  let groups ← allGroups? (cs.takeWhile (· ≠ '%'))
  match cs.dropWhile (· ≠ '%') with
  | '%' :: scope => return .v6 groups (UInt32.ofNat (← number? (UInt32.size - 1) scope))
  | _ => return .v6 groups 0

def port? (cs : List Char) : Option UInt16 :=
  (number? (UInt16.size - 1) cs).map UInt16.ofNat

def ofText? (text : String) : Option SocketAddress := do
  match text.toList with
  | '[' :: cs =>
    match cs.dropWhile (· ≠ ']') with
    | ']' :: ':' :: port => return ⟨← bracketed? (cs.takeWhile (· ≠ ']')), ← port? port⟩
    | _ => none
  | cs =>
    match Text.parts ':' cs with
    | [bytes, port] => return ⟨.v4 (← bytes? bytes), ← port? port⟩
    | _ => none

/-! ### Writing -/

/-- A run of zero groups, by its first group and its length. -/
structure ZeroRun where
  start : Nat
  length : Nat
deriving DecidableEq, Repr

def leadingZeros (groups : List UInt16) : Nat :=
  (groups.takeWhile (· = 0)).length

/-- The first of the longest runs of zeros in groups that are counted from `i`. -/
def longestRun (i : Nat) : List UInt16 → ZeroRun
  | [] => ⟨i, 0⟩
  | g :: rest =>
    let here := leadingZeros (g :: rest)
    let later := longestRun (i + 1) rest
    if later.length > here then later else ⟨i, here⟩

def groupsText (groups : List UInt16) : List Char :=
  Text.join ':' (groups.map fun g => Text.hexDigits g.toNat)

def bytesText (bytes : List UInt8) : List Char :=
  Text.join '.' (bytes.map fun b => Decimal.digits b.toNat)

def allGroupsText (groups : List UInt16) : List Char :=
  match groups with
  | [0, 0, 0, 0, 0, 0xFFFF, high, low] =>
    "::ffff:".toList ++ bytesText ([high, low].flatMap fun g =>
      [UInt8.ofNat (g.toNat / 256), UInt8.ofNat (g.toNat % 256)])
  | _ =>
    let run := longestRun 0 groups
    if run.length > 1 then
      groupsText (groups.take run.start) ++ "::".toList ++
        groupsText (groups.drop (run.start + run.length))
    else groupsText groups

def hostText : HostAddress → List Char
  | .v4 bytes => bytesText bytes.toList
  | .v6 groups scope =>
    let scopeText := if scope = 0 then [] else '%' :: Decimal.digits scope.toNat
    '[' :: allGroupsText groups.toList ++ scopeText ++ [']']

def text (a : SocketAddress) : String :=
  String.ofList (hostText a.host ++ ':' :: Decimal.digits a.port.toNat)

def allInterfaces : SocketAddress := ⟨.v4 #v[0, 0, 0, 0], 8080⟩

end SocketAddress

end Stocklist
