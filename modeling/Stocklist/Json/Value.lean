/-
  Stocklist/Json/Value.lean
  =========================
  **JSON values, with the places where a text breaks off.**

  A text is read as far as it goes: a value that is broken off is a value too, with the
  breach in the place where reading stopped.  So a reader of values meets the faults of
  the text in the order in which they stand in it, among its own objections, and one
  that passes over a member meets only the faults that matter to it.
-/
import Stocklist.Json.Number
import Stocklist.Json.Text

namespace Stocklist.Json

mutual

/-- A value.  Arrays and objects know the text from their opening bracket on. -/
inductive Value where
  | null
  | bool (b : Bool)
  | number (n : Number)
  | string (s : String)
  /-- A number too large or a string with half of a surrogate pair: it has an end but no
      value. -/
  | unreadable (fault : Fault)
  | array (ahead : List Char) (items : Items)
  | object (ahead : List Char) (members : Members)
  | broken (breach : Breach)

/-- The items of an array up to its end or to a breach between two of them. -/
inductive Items where
  | close
  | broken (breach : Breach)
  | cons (head : Value) (tail : Items)

/-- The members of an object up to its end or to a breach between two of them.  A name
    may be unreadable. -/
inductive Members where
  | close
  | broken (breach : Breach)
  | cons (name : Except Fault String) (value : Value) (tail : Members)

end

/-! ### Faults in order -/

mutual

/-- The first fault for a reader that passes over the value. -/
def Value.looseFault? : Value → Option Fault
  | .broken b => some b.loose
  | .array _ items => items.looseFault?
  | .object _ members => members.looseFault?
  | .null | .bool _ | .number _ | .string _ | .unreadable _ => none

def Items.looseFault? : Items → Option Fault
  | .close => none
  | .broken b => some b.loose
  | .cons v rest => v.looseFault?.or rest.looseFault?

def Members.looseFault? : Members → Option Fault
  | .close => none
  | .broken b => some b.loose
  | .cons _ v rest => v.looseFault?.or rest.looseFault?

end

mutual

/-- The first fault for a reader that wants all of the value and enters fewer than
    `depth` arrays and objects one inside the other. -/
def Value.strictFault? (depth : Nat) : Value → Option Fault
  | .broken b => some b.strict
  | .unreadable f => some f
  | .array ahead items =>
    if depth ≤ 1 then some (.within .tooDeep ahead) else items.strictFault? (depth - 1)
  | .object ahead members =>
    if depth ≤ 1 then some (.within .tooDeep ahead) else members.strictFault? (depth - 1)
  | .null | .bool _ | .number _ | .string _ => none

def Items.strictFault? (depth : Nat) : Items → Option Fault
  | .close => none
  | .broken b => some b.strict
  | .cons v rest => (v.strictFault? depth).or (rest.strictFault? depth)

def Members.strictFault? (depth : Nat) : Members → Option Fault
  | .close => none
  | .broken b => some b.strict
  | .cons (.error f) _ _ => some f
  | .cons (.ok _) v rest => (v.strictFault? depth).or (rest.strictFault? depth)

end

/-! ### Reading -/

def isBlank (c : Char) : Bool :=
  c = ' ' || c = '\n' || c = '\t' || c = '\r'

def skipBlanks (cs : List Char) : List Char :=
  cs.dropWhile isBlank

/-- What has been read of a text: a part of it, and the rest unless reading has stopped. -/
abbrev Reading (α : Type) := α × Option (List Char)

def readWord (v : Value) : List Char → List Char → Reading Value
  | [], cs => (v, some cs)
  | _ :: _, [] => (.broken (.both ⟨.endInValue, 0⟩), none)
  | w :: ws, c :: cs =>
    if w = c then readWord v ws cs else (.broken (.both (.within .expectedWord (c :: cs))), none)

def readNumber (negative : Bool) (cs : List Char) : Reading Value :=
  match numberText negative cs with
  | .error b => (.broken b, none)
  | .ok (t, rest) =>
    match t.value rest with
    | .ok n => (.number n, some rest)
    | .error f => (.unreadable f, some rest)

/-- Reads a string after its opening quote: its text, or the fault that makes it
    unreadable, or the breach at which it is broken off. -/
def readText (cs : List Char) : Except Breach (Except Fault String × List Char) :=
  match readString cs.length cs with
  | .ok (s, rest) => .ok (.ok (String.ofList s), rest)
  | .error strict =>
    match skipString cs.length cs with
    | .ok rest => .ok (.error strict, rest)
    | .error loose => .error ⟨strict, loose⟩

def readStringValue (cs : List Char) : Reading Value :=
  match readText cs with
  | .ok (.ok s, rest) => (.string s, some rest)
  | .ok (.error f, rest) => (.unreadable f, some rest)
  | .error b => (.broken b, none)

mutual

/-- Reads a value that begins with the first character of a text without leading blanks.
    The fuel bounds the number of values and separators read. -/
def readValue : Nat → List Char → Reading Value
  | 0, cs => (.broken (.both (.before .tooDeep cs)), none)
  | _, [] => (.broken (.both ⟨.endInValue, 0⟩), none)
  | fuel + 1, c :: cs =>
    match c with
    | 'n' => readWord .null "ull".toList cs
    | 't' => readWord (.bool true) "rue".toList cs
    | 'f' => readWord (.bool false) "alse".toList cs
    | '"' => readStringValue cs
    | '-' => readNumber true cs
    | '[' =>
      let (items, rest) := readItems fuel (skipBlanks cs)
      (.array (c :: cs) items, rest)
    | '\x7b' =>
      let (members, rest) := readMembers fuel (skipBlanks cs)
      (.object (c :: cs) members, rest)
    | c =>
      if '0' ≤ c ∧ c ≤ '9' then readNumber false (c :: cs)
      else (.broken (.both (.within .expectedValue (c :: cs))), none)

def readItems : Nat → List Char → Reading Items
  | 0, cs => (.broken (.both (.before .tooDeep cs)), none)
  | _, [] => (.broken (.both ⟨.endInArray, 0⟩), none)
  | fuel + 1, c :: cs => if c = ']' then (.close, some cs) else readItem fuel (c :: cs)

def readItem : Nat → List Char → Reading Items
  | 0, cs => (.broken (.both (.before .tooDeep cs)), none)
  | fuel + 1, cs =>
    match readValue fuel cs with
    | (v, none) => (.cons v .close, none)
    | (v, some rest) =>
      let (items, rest) := afterItem fuel (skipBlanks rest)
      (.cons v items, rest)

/-- Reads what follows an item.  After a comma there must be another one. -/
def afterItem : Nat → List Char → Reading Items
  | 0, cs => (.broken (.both (.before .tooDeep cs)), none)
  | _, [] => (.broken (.both ⟨.endInArray, 0⟩), none)
  | fuel + 1, c :: cs =>
    if c = ']' then (.close, some cs)
    else if c = ',' then
      let next := skipBlanks cs
      if next.head? = some ']' then
        (.cons (.broken (.both (.within .trailingComma next))) .close, none)
      else readItem fuel next
    else (.broken (.both (.within .expectedCommaOrBracket (c :: cs))), none)

def readMembers : Nat → List Char → Reading Members
  | 0, cs => (.broken (.both (.before .tooDeep cs)), none)
  | _, [] => (.broken (.both ⟨.endInObject, 0⟩), none)
  | fuel + 1, c :: cs => if c = '\x7d' then (.close, some cs) else readMember fuel (c :: cs)

def readMember : Nat → List Char → Reading Members
  | 0, cs => (.broken (.both (.before .tooDeep cs)), none)
  | _, [] => (.broken (.both ⟨.endInValue, 0⟩), none)
  | fuel + 1, c :: cs =>
    if c = '"' then
      match readText cs with
      | .error b => (.broken b, none)
      | .ok (name, rest) =>
        match readMemberValue fuel (skipBlanks rest) with
        | (v, none) => (.cons name v .close, none)
        | (v, some rest) =>
          let (members, rest) := afterMember fuel (skipBlanks rest)
          (.cons name v members, rest)
    else (.broken (.both (.within .keyNotString (c :: cs))), none)

def readMemberValue : Nat → List Char → Reading Value
  | 0, cs => (.broken (.both (.before .tooDeep cs)), none)
  | _, [] => (.broken (.both ⟨.endInObject, 0⟩), none)
  | fuel + 1, c :: cs =>
    if c = ':' then readValue fuel (skipBlanks cs)
    else (.broken (.both (.within .expectedColon (c :: cs))), none)

/-- Reads what follows a member.  After a comma there must be another one. -/
def afterMember : Nat → List Char → Reading Members
  | 0, cs => (.broken (.both (.before .tooDeep cs)), none)
  | _, [] => (.broken (.both ⟨.endInObject, 0⟩), none)
  | fuel + 1, c :: cs =>
    if c = '\x7d' then (.close, some cs)
    else if c = ',' then
      let next := skipBlanks cs
      if next.head? = some '\x7d' then
        (.broken (.both (.within .trailingComma next)), none)
      else readMember fuel next
    else (.broken (.both (.within .expectedCommaOrBrace (c :: cs))), none)

end

/-- A text read as one value, with the fault of what follows the value, if anything does. -/
structure Document where
  value : Value
  trailing : Option Fault

def Document.ofText (text : List Char) : Document :=
  match readValue (4 * text.length + 4) (skipBlanks text) with
  | (v, none) => ⟨v, none⟩
  | (v, some rest) =>
    match skipBlanks rest with
    | [] => ⟨v, none⟩
    | rest => ⟨v, some (.within .trailingCharacters rest)⟩

def depthLimit : Nat := 128

/-- The fault that keeps a text from being a value, if there is one. -/
def fault? (text : List Char) : Option Fault :=
  let d := Document.ofText text
  (d.value.strictFault? depthLimit).or d.trailing

end Stocklist.Json
