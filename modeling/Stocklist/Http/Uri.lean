/-
  Stocklist/Http/Uri.lean
  =======================
  **What a request names as its resource.**

  A request names its resource by an asterisk, by a path that starts with a slash, by an
  authority alone, or by a scheme, an authority and a path.  A question mark ends the path
  and starts the query; a hash ends the address, whatever comes after it.

  A text without a scheme must be an authority throughout.  The scheme is what stands
  before the first colon, if two slashes follow.  An authority is checked in form only:
  its brackets, its colons, its percent signs and its end.
-/
import Stocklist.Text.Utf8

namespace Stocklist.Http

/-- A path and the query after it. -/
structure Target where
  path : String
  query : Option String
deriving DecidableEq, Repr

/-- The resource that a request names. -/
inductive Uri where
  | asterisk
  | origin (target : Target)
  | authority (authority : String)
  | absolute (scheme : String) (authority : String) (target : Target)
deriving DecidableEq, Repr

/-- The query; one that is absent counts as empty. -/
def Uri.query : Uri → String
  | .origin target | .absolute _ _ target => target.query.getD ""
  | .asterisk | .authority _ => ""

/-! ### Paths and queries -/

def isPathChar (c : Char) : Bool :=
  '!' ≤ c && c ≠ '#' && c ≠ '<' && c ≠ '>' && c ≠ '?' && c ≠ '\x60' && c ≠ '\x7f'

/-- Whether a character may stand in a query as it is.  A further question mark may. -/
def isQueryChar (c : Char) : Bool :=
  '!' ≤ c && c ≠ '"' && c ≠ '#' && c ≠ '<' && c ≠ '>' && c ≠ '\x7f'

/-- Whether a text is over, but for a part that a hash cuts off. -/
def isOver : List Char → Bool
  | [] => true
  | c :: _ => c = '#'

def Target.ofChars? (cs : List Char) : Option Target :=
  let path := String.ofList (cs.takeWhile isPathChar)
  match cs.dropWhile isPathChar with
  | '?' :: rest =>
    if isOver (rest.dropWhile isQueryChar) then
      some ⟨path, some (String.ofList (rest.takeWhile isQueryChar))⟩
    else none
  | rest => if isOver rest then some ⟨path, none⟩ else none

/-! ### Authorities -/

def endsAuthority (c : Char) : Bool :=
  c = '/' || c = '?' || c = '#'

def isAuthorityChar (c : Char) : Bool :=
  c.isAlphanum || "!$%&'()*+,-.:;=@[]_~".toList.contains c

/-- What matters of the part of an authority that has been read: its brackets, and the
    colons and percent signs since the last bracket or at-sign that closes a part. -/
structure AuthorityState where
  opened : Bool := false
  closed : Bool := false
  colons : Nat := 0
  percent : Bool := false
  /-- The last character was an at-sign. -/
  atSign : Bool := false
deriving DecidableEq, Repr

/-- The most colons in a row of parts, as in an address of eight groups with a port. -/
def maxColons : Nat := 8

def AuthorityState.step? (s : AuthorityState) (c : Char) : Option AuthorityState :=
  let s := { s with atSign := false }
  if c = ':' then
    if s.colons < maxColons then some { s with colons := s.colons + 1 } else none
  else if c = '[' then
    if s.percent || s.opened then none else some { s with opened := true }
  else if c = ']' then
    if s.opened && !s.closed then some { s with closed := true, colons := 0, percent := false }
    else none
  else if c = '@' then some { s with colons := 0, percent := false, atSign := true }
  else if c = '%' then some { s with percent := true }
  else if isAuthorityChar c then some s
  else none

/-- Whether an authority may end here: its brackets are closed, one colon at most stands
    before a port, and something without a percent sign follows the last at-sign. -/
def AuthorityState.isFinal (s : AuthorityState) : Bool :=
  s.opened = s.closed && s.colons ≤ 1 && !s.percent && !s.atSign

def isAuthority (cs : List Char) : Bool :=
  match cs.foldlM AuthorityState.step? {} with
  | some s => !cs.isEmpty && s.isFinal
  | none => false

/-! ### Schemes -/

def isSchemeChar (c : Char) : Bool :=
  c.isAlphanum || c = '+' || c = '-' || c = '.' || c = '~'

def maxScheme : Nat := 64

/-- The part of a text before the first colon and the part after the two slashes that
    follow, if it starts like that. -/
def splitScheme (cs : List Char) : Option (List Char × List Char) :=
  match cs.dropWhile isSchemeChar with
  | ':' :: '/' :: '/' :: rest => some (cs.takeWhile isSchemeChar, rest)
  | _ => none

/-! ### Addresses -/

/-- Reads a text that does not start with a slash. -/
def Uri.ofParts? (cs : List Char) : Option Uri :=
  match splitScheme cs with
  | none => if isAuthority cs then some (.authority (String.ofList cs)) else none
  | some (scheme, rest) =>
    let authority := rest.takeWhile (!endsAuthority ·)
    if scheme.length ≤ maxScheme && isAuthority authority then
      (Target.ofChars? (rest.dropWhile (!endsAuthority ·))).map fun target =>
        .absolute (String.ofList scheme) (String.ofList authority) target
    else none

def maxLength : Nat := 65534

/-- Reads what a request names as its resource. -/
def Uri.ofText? (text : String) : Option Uri :=
  if text.utf8ByteSize > maxLength then none
  else
    match text.toList with
    | ['*'] => some .asterisk
    | '/' :: rest => (Target.ofChars? ('/' :: rest)).map .origin
    | cs => Uri.ofParts? cs

end Stocklist.Http
