/-
  Stocklist/Wire/Decode.lean
  ==========================
  **Items and result pages from JSON texts.**

  A decoder goes through a value in the order of the text and stops at the first thing
  that is wrong: a fault of the text, or a value that does not suit its place.  The
  members of an object may come in any order, each name once; other names are passed
  over.  An array of the field values in their order is taken as well.
-/
import Stocklist.Decimal.Notation
import Stocklist.Json.Value
import Stocklist.Search.Page
import Stocklist.Text.Quoted

namespace Stocklist.Wire

open Json (Fault Value Items Members Number)

/-! ### What can be wrong with a value -/

inductive Found where
  | null
  | bool (b : Bool)
  | natural (n : UInt64)
  | negative (n : Int64)
  | float (x : Binary64)
  | string (s : String)
  | array
  | object
deriving DecidableEq, Repr

def Found.describe : Found → String
  | .null => "null"
  | .bool b => "boolean `" ++ toString b ++ "`"
  | .natural n => "integer `" ++ toString n.toNat ++ "`"
  | .negative n => "integer `" ++ toString n.toInt ++ "`"
  | .float x => "floating point `" ++ x.text ++ "`"
  | .string s => "string " ++ Text.quoted s
  | .array => "sequence"
  | .object => "map"

inductive Wanted where
  | integer
  | natural
  | float
  | string
  | list
  | item
  | page
deriving DecidableEq, Repr

def Wanted.describe : Wanted → String
  | .integer => "i64"
  | .natural => "usize"
  | .float => "f64"
  | .string => "a string"
  | .list => "a sequence"
  | .item => "struct Record"
  | .page => "struct ResultPage"

inductive DecodeError where
  | fault (f : Fault)
  | wrongType (found : Found) (wanted : Wanted)
  | wrongValue (found : Found) (wanted : Wanted)
  | missingField (name : String)
  | duplicateField (name : String)
  /-- An array of fields that ends after `found` of them. -/
  | tooShort (found : Nat) (wanted : Wanted)
deriving DecidableEq, Repr

def fieldCount : Nat := 7

/-- An objection in words.  Faults of the text have none here. -/
def DecodeError.message : DecodeError → String
  | .fault f => f.cause.message
  | .wrongType found wanted => s!"invalid type: {found.describe}, expected {wanted.describe}"
  | .wrongValue found wanted => s!"invalid value: {found.describe}, expected {wanted.describe}"
  | .missingField name => s!"missing field `{name}`"
  | .duplicateField name => s!"duplicate field `{name}`"
  | .tooShort found wanted =>
    s!"invalid length {found}, expected {wanted.describe} with {fieldCount} elements"

abbrev Decoded (α : Type) := Except DecodeError α

/-- Refuses a value that is not of the wanted type.  One that is broken off or unreadable
    is refused for that. -/
def refuse {α : Type} (v : Value) (wanted : Wanted) : Decoded α :=
  match v with
  | .null => .error (.wrongType .null wanted)
  | .bool b => .error (.wrongType (.bool b) wanted)
  | .number (.natural n) => .error (.wrongType (.natural n) wanted)
  | .number (.negative n) => .error (.wrongType (.negative n) wanted)
  | .number (.float x) => .error (.wrongType (.float x) wanted)
  | .string s => .error (.wrongType (.string s) wanted)
  | .unreadable f => .error (.fault f)
  | .array .. => .error (.wrongType .array wanted)
  | .object .. => .error (.wrongType .object wanted)
  | .broken b => .error (.fault b.strict)

/-! ### Scalars -/

def decodeString : Value → Decoded String
  | .string s => .ok s
  | v => refuse v .string

/-- A signed word; a natural number beyond its range is a wrong value. -/
def decodeInteger : Value → Decoded Int64
  | .number (.negative n) => .ok n
  | .number (.natural n) =>
    if n.toNat ≤ Int64.maxValue.toInt.toNat then .ok (Int64.ofInt n.toNat)
    else .error (.wrongValue (.natural n) .integer)
  | v => refuse v .integer

/-- A natural word; a negative number is a wrong value. -/
def decodeNatural : Value → Decoded UInt64
  | .number (.natural n) => .ok n
  | .number (.negative n) => .error (.wrongValue (.negative n) .natural)
  | v => refuse v .natural

/-- A double; integers are rounded to one. -/
def decodeFloat : Value → Decoded Binary64
  | .number (.float x) => .ok x
  | .number (.natural n) => .ok (.ofMagnitude false (Magnitude.ofNat n.toNat))
  | .number (.negative n) => .ok (.ofMagnitude true (Magnitude.ofNat n.toInt.natAbs))
  | v => refuse v .float

/-! ### Objects and arrays of fields -/

def skip (v : Value) : Decoded Unit :=
  match v.looseFault? with
  | none => .ok ()
  | some f => .error (.fault f)

/-- Fills the slot of a field with a value; it must be empty. -/
def fill {α : Type} (name : String) (slot : Option α) (decode : Value → Decoded α) (v : Value) :
    Decoded (Option α) :=
  if slot.isSome then .error (.duplicateField name) else (decode v).map some

/-- The content of a slot at the end of its object. -/
def need {α : Type} (name : String) (slot : Option α) : Decoded α :=
  match slot with
  | some a => .ok a
  | none => .error (.missingField name)

/-- Goes through the members of an object, with `take` for the effect of a member. -/
def foldMembers {σ : Type} (take : σ → String → Value → Decoded σ) (s : σ) :
    Members → Decoded σ
  | .close => .ok s
  | .broken b => .error (.fault b.strict)
  | .cons (.error f) _ _ => .error (.fault f)
  | .cons (.ok name) v rest => do foldMembers take (← take s name v) rest

/-- Takes the field at index `i` from an array of fields. -/
def nextField {α : Type} (i : Nat) (wanted : Wanted) (decode : Value → Decoded α) :
    Items → Decoded (α × Items)
  | .close => .error (.tooShort i wanted)
  | .broken b => .error (.fault b.strict)
  | .cons v rest => (decode v).map (·, rest)

/-- Demands that an array of fields ends here. -/
def noMoreFields : Items → Decoded Unit
  | .close => .ok ()
  | .broken b => .error (.fault b.strict)
  | .cons .. => .error (.fault ⟨.trailingCharacters, 0⟩)

def decodeList {α : Type} (decode : Value → Decoded α) : Items → Decoded (List α)
  | .close => .ok []
  | .broken b => .error (.fault b.strict)
  | .cons v rest => do
    let a ← decode v
    return a :: (← decodeList decode rest)

/-! ### Items -/

structure ItemDraft where
  id : Option Int64 := none
  name : Option String := none
  category : Option String := none
  subCategory : Option String := none
  containerType : Option String := none
  pricePerUnit : Option Binary64 := none
  margin : Option Binary64 := none

def ItemDraft.take (d : ItemDraft) (name : String) (v : Value) : Decoded ItemDraft :=
  match name with
  | "id" => return { d with id := ← fill name d.id decodeInteger v }
  | "name" => return { d with name := ← fill name d.name decodeString v }
  | "category" => return { d with category := ← fill name d.category decodeString v }
  | "sub_category" => return { d with subCategory := ← fill name d.subCategory decodeString v }
  | "container_type" =>
    return { d with containerType := ← fill name d.containerType decodeString v }
  | "price_per_unit" => return { d with pricePerUnit := ← fill name d.pricePerUnit decodeFloat v }
  | "margin" => return { d with margin := ← fill name d.margin decodeFloat v }
  | _ => do skip v; return d

/-- The item of a full draft; the first field that is missing is reported. -/
def ItemDraft.finish (d : ItemDraft) : Decoded Item := do
  let id ← need "id" d.id
  let name ← need "name" d.name
  let category ← need "category" d.category
  let subCategory ← need "sub_category" d.subCategory
  let containerType ← need "container_type" d.containerType
  let pricePerUnit ← need "price_per_unit" d.pricePerUnit
  let margin ← need "margin" d.margin
  return { id, name, category, subCategory, containerType, pricePerUnit, margin }

def itemOfFields (fields : Items) : Decoded Item := do
  let (id, fields) ← nextField 0 .item decodeInteger fields
  let (name, fields) ← nextField 1 .item decodeString fields
  let (category, fields) ← nextField 2 .item decodeString fields
  let (subCategory, fields) ← nextField 3 .item decodeString fields
  let (containerType, fields) ← nextField 4 .item decodeString fields
  let (pricePerUnit, fields) ← nextField 5 .item decodeFloat fields
  let (margin, fields) ← nextField 6 .item decodeFloat fields
  noMoreFields fields
  return { id, name, category, subCategory, containerType, pricePerUnit, margin }

def decodeItem : Value → Decoded Item
  | .object _ members => do (← foldMembers ItemDraft.take {} members).finish
  | .array _ fields => itemOfFields fields
  | v => refuse v .item

/-! ### Pages -/

def decodeResults : Value → Decoded (List Item)
  | .array _ items => decodeList decodeItem items
  | v => refuse v .list

structure PageDraft where
  query : Option String := none
  results : Option (List Item) := none
  prev : Option Int64 := none
  next : Option Int64 := none
  rangeLeft : Option UInt64 := none
  rangeRight : Option UInt64 := none
  count : Option UInt64 := none

def PageDraft.take (d : PageDraft) (name : String) (v : Value) : Decoded PageDraft :=
  match name with
  | "query" => return { d with query := ← fill name d.query decodeString v }
  | "results" => return { d with results := ← fill name d.results decodeResults v }
  | "prev" => return { d with prev := ← fill name d.prev decodeInteger v }
  | "next" => return { d with next := ← fill name d.next decodeInteger v }
  | "rangeLeft" => return { d with rangeLeft := ← fill name d.rangeLeft decodeNatural v }
  | "rangeRight" => return { d with rangeRight := ← fill name d.rangeRight decodeNatural v }
  | "count" => return { d with count := ← fill name d.count decodeNatural v }
  | _ => do skip v; return d

/-- The page of a full draft; the first field that is missing is reported. -/
def PageDraft.finish (d : PageDraft) : Decoded ResultPage := do
  let query ← need "query" d.query
  let results ← need "results" d.results
  let prev ← need "prev" d.prev
  let next ← need "next" d.next
  let rangeLeft ← need "rangeLeft" d.rangeLeft
  let rangeRight ← need "rangeRight" d.rangeRight
  let count ← need "count" d.count
  return { query, results, prev, next, rangeLeft, rangeRight, count }

def pageOfFields (fields : Items) : Decoded ResultPage := do
  let (query, fields) ← nextField 0 .page decodeString fields
  let (results, fields) ← nextField 1 .page decodeResults fields
  let (prev, fields) ← nextField 2 .page decodeInteger fields
  let (next, fields) ← nextField 3 .page decodeInteger fields
  let (rangeLeft, fields) ← nextField 4 .page decodeNatural fields
  let (rangeRight, fields) ← nextField 5 .page decodeNatural fields
  let (count, fields) ← nextField 6 .page decodeNatural fields
  noMoreFields fields
  return { query, results, prev, next, rangeLeft, rangeRight, count }

def decodePage : Value → Decoded ResultPage
  | .object _ members => do (← foldMembers PageDraft.take {} members).finish
  | .array _ fields => pageOfFields fields
  | v => refuse v .page

/-! ### Texts -/

/-- Decodes a text that holds one value and nothing after it. -/
def ofText {α : Type} (decode : Value → Decoded α) (text : String) : Decoded α := do
  let d := Json.Document.ofText text.toList
  let a ← decode d.value
  match d.trailing with
  | none => return a
  | some f => .error (.fault f)

def itemOfText (text : String) : Decoded Item := ofText decodeItem text

def pageOfText (text : String) : Decoded ResultPage := ofText decodePage text

end Stocklist.Wire
