/-
  Stocklist/Proofs/Json/Grammar.lean
  ==================================
  **Which texts are JSON, and of which values.**

  `v.Written cs` says that `cs` is a JSON text of the value `v`: by the rules of the format,
  for values of any depth, with any blanks between the tokens and with every spelling of
  numbers and strings.  No reader has a part in it.  What a value holds for the sake of faults
  only is left open: the text from an opening bracket on, and the fault of a number too large
  or of a string with half of a surrogate pair.  A value with a breach in it has no text.
-/
import Stocklist.Json.Value

namespace Stocklist.Json

open Numeral (digit?)
open Text (hexValue?)

def AllBlank (cs : List Char) : Prop :=
  ∀ c ∈ cs, isBlank c

/-! ### Strings -/

/-- A part of a string: a character, as it is or after a short escape, or a 16-bit unit. -/
inductive Piece where
  | char (c : Char)
  | unit (n : Nat)

/-- A 16-bit unit in four hexadecimal digits. -/
inductive UnitWritten : Nat → List Char → Prop where
  | intro {a b c d : Char} {w x y z : Nat} :
      hexValue? a = some w → hexValue? b = some x → hexValue? c = some y → hexValue? d = some z →
        UnitWritten (((w * 16 + x) * 16 + y) * 16 + z) [a, b, c, d]

/-- What stands between the quotes of a string, piece by piece. -/
inductive Pieces : List Piece → List Char → Prop where
  | nil : Pieces [] []
  | plain {c : Char} {ps : List Piece} {cs : List Char} :
      c ≠ '"' → c ≠ '\\' → 0x20 ≤ c.toNat → Pieces ps cs → Pieces (.char c :: ps) (c :: cs)
  | short {c e : Char} {ps : List Piece} {cs : List Char} :
      shortEscape? c = some e → Pieces ps cs → Pieces (.char e :: ps) ('\\' :: c :: cs)
  | unit {n : Nat} {ds : List Char} {ps : List Piece} {cs : List Char} :
      UnitWritten n ds → Pieces ps cs → Pieces (.unit n :: ps) ('\\' :: 'u' :: (ds ++ cs))

/-- The characters that pieces stand for; there are none for half of a surrogate pair. -/
def characters? : List Piece → Option (List Char)
  | [] => some []
  | .char c :: ps => (characters? ps).map (c :: ·)
  | .unit n :: ps =>
    if isTrailing n then none
    else if isLeading n then
      match ps with
      | .unit m :: ps =>
        if isTrailing m then
          (characters? ps).map (Char.ofNat (0x10000 + (n - 0xD800) * 0x400 + (m - 0xDC00)) :: ·)
        else none
      | _ => none
    else (characters? ps).map (Char.ofNat n :: ·)

/-- A string in its quotes: its text, or a fault in place of one. -/
inductive TextWritten : Except Fault String → List Char → Prop where
  | text {ps : List Piece} {cs s : List Char} :
      Pieces ps cs → characters? ps = some s →
        TextWritten (.ok (String.ofList s)) ('"' :: (cs ++ ['"']))
  | halfPair {ps : List Piece} {cs : List Char} {f : Fault} :
      Pieces ps cs → characters? ps = none → TextWritten (.error f) ('"' :: (cs ++ ['"']))

/-! ### Numbers -/

/-- One or more digits, with their values. -/
def DigitsWritten (ds : List Nat) (cs : List Char) : Prop :=
  ds ≠ [] ∧ cs.map digit? = ds.map some

inductive FractionWritten : Option (List Nat) → List Char → Prop where
  | none : FractionWritten none []
  | some {ds : List Nat} {cs : List Char} :
      DigitsWritten ds cs → FractionWritten (some ds) ('.' :: cs)

inductive ExponentWritten : Option (Bool × List Nat) → List Char → Prop where
  | none : ExponentWritten none []
  | unsigned {mark : Char} {ds : List Nat} {cs : List Char} :
      mark = 'e' ∨ mark = 'E' → DigitsWritten ds cs →
        ExponentWritten (some (false, ds)) (mark :: cs)
  | plus {mark : Char} {ds : List Nat} {cs : List Char} :
      mark = 'e' ∨ mark = 'E' → DigitsWritten ds cs →
        ExponentWritten (some (false, ds)) (mark :: '+' :: cs)
  | minus {mark : Char} {ds : List Nat} {cs : List Char} :
      mark = 'e' ∨ mark = 'E' → DigitsWritten ds cs →
        ExponentWritten (some (true, ds)) (mark :: '-' :: cs)

/-- The parts of a number after its sign.  Only a zero that stands alone may be in front. -/
inductive NumberText.Written : NumberText → List Char → Prop where
  | intro {negative : Bool} {whole : List Nat} {fraction : Option (List Nat)}
      {exponent : Option (Bool × List Nat)} {ws fs es : List Char} :
      DigitsWritten whole ws → whole = [0] ∨ whole.head? ≠ some 0 →
        FractionWritten fraction fs → ExponentWritten exponent es →
        NumberText.Written ⟨negative, whole, fraction, exponent⟩ (ws ++ (fs ++ es))

def signText (negative : Bool) : List Char :=
  if negative then ['-'] else []

/-- A number: its value, or a fault in place of one that is too large. -/
inductive NumberWritten : Except Fault Number → List Char → Prop where
  | number {t : NumberText} {n : Number} {cs : List Char} :
      t.Written cs → t.value [] = .ok n → NumberWritten (.ok n) (signText t.negative ++ cs)
  | tooLarge {t : NumberText} {f g : Fault} {cs : List Char} :
      t.Written cs → t.value [] = .error g → NumberWritten (.error f) (signText t.negative ++ cs)

/-! ### Values -/

mutual

/-- `v.Written cs`: the text `cs` is a JSON text of the value `v`. -/
inductive Value.Written : Value → List Char → Prop where
  | nullWord : Value.Written .null "null".toList
  | trueWord : Value.Written (.bool true) "true".toList
  | falseWord : Value.Written (.bool false) "false".toList
  | number {n : Number} {cs : List Char} :
      NumberWritten (.ok n) cs → Value.Written (.number n) cs
  | tooLarge {f : Fault} {cs : List Char} :
      NumberWritten (.error f) cs → Value.Written (.unreadable f) cs
  | string {s : String} {cs : List Char} : TextWritten (.ok s) cs → Value.Written (.string s) cs
  | halfPair {f : Fault} {cs : List Char} :
      TextWritten (.error f) cs → Value.Written (.unreadable f) cs
  | emptyArray {ahead bs : List Char} :
      AllBlank bs → Value.Written (.array ahead .close) ('[' :: (bs ++ [']']))
  | array {ahead cs : List Char} {items : Items} :
      Items.Listed items cs → Value.Written (.array ahead items) ('[' :: (cs ++ [']']))
  | emptyObject {ahead bs : List Char} :
      AllBlank bs → Value.Written (.object ahead .close) ('\x7b' :: (bs ++ ['\x7d']))
  | object {ahead cs : List Char} {members : Members} :
      Members.Listed members cs →
        Value.Written (.object ahead members) ('\x7b' :: (cs ++ ['\x7d']))

/-- A text of a value with blanks around it. -/
inductive Value.Padded : Value → List Char → Prop where
  | intro {v : Value} {bs cs es : List Char} :
      AllBlank bs → Value.Written v cs → AllBlank es → Value.Padded v (bs ++ (cs ++ es))

/-- A name, a colon and a value, with blanks around each. -/
inductive Value.Named : Except Fault String → Value → List Char → Prop where
  | intro {name : Except Fault String} {v : Value} {bs key es cs : List Char} :
      AllBlank bs → TextWritten name key → AllBlank es → Value.Padded v cs →
        Value.Named name v (bs ++ (key ++ (es ++ ':' :: cs)))

/-- One or more items with commas between them. -/
inductive Items.Listed : Items → List Char → Prop where
  | last {v : Value} {cs : List Char} : Value.Padded v cs → Items.Listed (.cons v .close) cs
  | more {v : Value} {items : Items} {cs ds : List Char} :
      Value.Padded v cs → Items.Listed items ds → Items.Listed (.cons v items) (cs ++ ',' :: ds)

/-- One or more members with commas between them. -/
inductive Members.Listed : Members → List Char → Prop where
  | last {name : Except Fault String} {v : Value} {cs : List Char} :
      Value.Named name v cs → Members.Listed (.cons name v .close) cs
  | more {name : Except Fault String} {v : Value} {members : Members} {cs ds : List Char} :
      Value.Named name v cs → Members.Listed members ds →
        Members.Listed (.cons name v members) (cs ++ ',' :: ds)

end

/-- The text is a JSON text of the value and holds nothing else. -/
def Value.WrittenIn (v : Value) (text : String) : Prop :=
  v.Padded text.toList

end Stocklist.Json
