/-
  Stocklist/Proofs/Json/Value.lean
  ================================
  **Written values are read, each up to its own end.**

  `ReadsAs P cs` says that the text `cs`, in front of anything that may follow a value, is
  read as a value of which `P` holds, and that nothing of what follows is taken.  It holds of
  written strings and numbers, and it carries over to arrays and objects
  (`readsAs_arrayText`, `readsAs_objectText`).  As the fuel counts values and separators, two
  for each character are enough.
-/
import Mathlib.Tactic
import Stocklist.Json.Value
import Stocklist.Proofs.Json.Number
import Stocklist.Proofs.Json.Text
import Stocklist.Wire.Encode

namespace Stocklist.Json

open Decimal (Spelling digits)
open Text (join)
open Wire (arrayText objectText stringText)

/-! ### What may follow a value -/

/-- A text that begins with what may follow a value inside an array or an object, or that is
    at its end. -/
def ValueEnds (rest : List Char) : Prop :=
  ∀ c ∈ rest.head?, c = ',' ∨ c = ']' ∨ c = '\x7d'

theorem valueEnds_nil : ValueEnds [] := by
  intro c hc
  cases hc

theorem valueEnds_comma (rest : List Char) : ValueEnds (',' :: rest) := by
  intro c hc
  exact Or.inl (Option.some.inj hc).symm

theorem valueEnds_bracket (rest : List Char) : ValueEnds (']' :: rest) := by
  intro c hc
  exact Or.inr (Or.inl (Option.some.inj hc).symm)

theorem valueEnds_brace (rest : List Char) : ValueEnds ('\x7d' :: rest) := by
  intro c hc
  exact Or.inr (Or.inr (Option.some.inj hc).symm)

theorem ValueEnds.noNumberAhead {rest : List Char} (h : ValueEnds rest) : NoNumberAhead rest := by
  intro c hc
  rcases h c hc with rfl | rfl | rfl
  · exact ⟨rfl, by decide⟩
  · exact ⟨rfl, by decide⟩
  · exact ⟨rfl, by decide⟩

theorem skipBlanks_cons {c : Char} (h : isBlank c = false) (cs : List Char) :
    skipBlanks (c :: cs) = c :: cs := by
  rw [skipBlanks, List.dropWhile_cons_of_neg (by simp [h])]

/-! ### Reading a value in front of a text -/

/-- The text is read as a value of which `P` holds, whatever may follow it. -/
structure ReadsAs (P : Value → Prop) (cs : List Char) : Prop where
  head : ∃ c tail, cs = c :: tail ∧ isBlank c = false ∧ c ≠ ']'
  read : ∀ rest fuel, ValueEnds rest → 2 * cs.length ≤ fuel →
    ∃ v, readValue fuel (cs ++ rest) = (v, some rest) ∧ P v

theorem ReadsAs.mono {P Q : Value → Prop} {cs : List Char} (h : ReadsAs P cs)
    (hPQ : ∀ v, P v → Q v) : ReadsAs Q cs := by
  refine ⟨h.head, ?_⟩
  intro rest fuel hrest hfuel
  obtain ⟨v, hv, hP⟩ := h.read rest fuel hrest hfuel
  exact ⟨v, hv, hPQ v hP⟩

theorem ReadsAs.weaken {P : Value → Prop} {cs : List Char} (h : ReadsAs P cs) :
    ReadsAs (fun _ => True) cs :=
  h.mono fun _ _ => trivial

/-- A text whose first character decides how it is read. -/
theorem readsAs_of_cons {P : Value → Prop} {c : Char} {tail : List Char}
    (hblank : isBlank c = false) (hbracket : c ≠ ']')
    (h : ∀ rest fuel, ValueEnds rest → 2 * tail.length + 1 ≤ fuel →
      ∃ v, readValue (fuel + 1) (c :: (tail ++ rest)) = (v, some rest) ∧ P v) :
    ReadsAs P (c :: tail) := by
  refine ⟨⟨c, tail, rfl, hblank, hbracket⟩, ?_⟩
  intro rest fuel hrest hfuel
  rw [List.length_cons] at hfuel
  obtain ⟨fuel, rfl⟩ : ∃ n, fuel = n + 1 := ⟨fuel - 1, by omega⟩
  exact h rest fuel hrest (by omega)

theorem readsAs_null : ReadsAs (· = .null) "null".toList := by
  apply readsAs_of_cons rfl (by decide)
  intro rest fuel _ _
  exact ⟨.null, rfl, rfl⟩

/-! ### Strings -/

theorem readsAs_stringText (s : String) : ReadsAs (· = .string s) (stringText s) := by
  rw [stringText, quote, List.cons_append]
  apply readsAs_of_cons rfl (by decide)
  intro rest fuel _ _
  refine ⟨.string s, ?_, rfl⟩
  have hread := readText_escape s rest
  simp [readValue, readStringValue, hread]

/-! ### Numbers -/

theorem readNumber_of_ok {negative : Bool} {s : Spelling} {rest : List Char} {n : Number}
    (hs : s.Legible) (hrest : NoNumberAhead rest)
    (hn : (ofSpelling negative s).value rest = .ok n) :
    readNumber negative (s.text ++ rest) = (.number n, some rest) := by
  simp only [readNumber, numberText_spelling negative hs hrest, hn]

theorem isDigit_head {s : Spelling} (hs : s.Legible) :
    ∃ c tail, s.text = c :: tail ∧ c.isDigit := by
  have hwhole : ∃ c cs, s.whole = c :: cs := by
    rcases hs.whole_eq with h | ⟨c, cs, h, -⟩
    · exact ⟨'0', [], h⟩
    · exact ⟨c, cs, h⟩
  obtain ⟨c, cs, h⟩ := hwhole
  refine ⟨c, cs ++ Spelling.fractionText s.fraction ++ Spelling.exponentText s.exponent, ?_, ?_⟩
  · rw [Spelling.text, h, List.cons_append, List.cons_append]
  · apply hs.isDigit
    rw [h]
    exact List.mem_append_left _ List.mem_cons_self

theorem ne_of_isDigit {c d : Char} (hc : c.isDigit) (hd : d.isDigit = false) : c ≠ d := by
  rintro rfl
  rw [hc] at hd
  cases hd

/-- The first digit of a number is no other character that begins a value. -/
theorem readValue_digit {c : Char} (hc : c.isDigit) (fuel : Nat) (cs : List Char) :
    readValue (fuel + 1) (c :: cs) = readNumber false (c :: cs) := by
  rw [readValue]
  · exact if_pos (Char.isDigit_iff_toNat.mp hc)
  all_goals exact ne_of_isDigit hc rfl

theorem isBlank_of_isDigit {c : Char} (hc : c.isDigit) : isBlank c = false := by
  simp [isBlank, ne_of_isDigit hc (d := ' ') rfl, ne_of_isDigit hc (d := '\n') rfl,
    ne_of_isDigit hc (d := '\t') rfl, ne_of_isDigit hc (d := '\r') rfl]

/-- A number without a sign. -/
theorem readsAs_spelling {s : Spelling} {n : Number} (hs : s.Legible)
    (hn : ∀ rest, (ofSpelling false s).value rest = .ok n) : ReadsAs (· = .number n) s.text := by
  obtain ⟨c, tail, htext, hc⟩ := isDigit_head hs
  rw [htext]
  apply readsAs_of_cons (isBlank_of_isDigit hc) (ne_of_isDigit hc rfl)
  intro rest fuel hrest _
  refine ⟨.number n, ?_, rfl⟩
  rw [readValue_digit hc, ← List.cons_append, ← htext]
  exact readNumber_of_ok hs hrest.noNumberAhead (hn rest)

/-- A number with a minus sign. -/
theorem readsAs_neg_spelling {s : Spelling} {n : Number} (hs : s.Legible)
    (hn : ∀ rest, (ofSpelling true s).value rest = .ok n) :
    ReadsAs (· = .number n) ('-' :: s.text) := by
  apply readsAs_of_cons rfl (by decide)
  intro rest fuel hrest _
  refine ⟨.number n, ?_, rfl⟩
  rw [readValue]
  exact readNumber_of_ok hs hrest.noNumberAhead (hn rest)

/-! ### Arrays -/

section Arrays

variable {α : Type} {P : α → Value → Prop} {text : α → List Char}

/-- The items of an array that has been read up to its end. -/
inductive Items.From (P : α → Value → Prop) : List α → Items → Prop where
  | close : Items.From P [] .close
  | cons {a : α} {v : Value} {more : List α} {items : Items} :
      P a v → Items.From P more items → Items.From P (a :: more) (.cons v items)

theorem join_head {a : α} (h : ReadsAs (P a) (text a)) (more : List α) (rest : List Char) :
    ∃ c tail, join ',' ((a :: more).map text) ++ rest = c :: tail ∧ isBlank c = false ∧
      c ≠ ']' := by
  obtain ⟨c, tail, htext, hblank, hbracket⟩ := h.head
  refine ⟨c, join ',' (tail :: more.map text) ++ rest, ?_, hblank, hbracket⟩
  rw [List.map_cons, htext, Text.join_cons_cons, List.cons_append]

theorem exists_readItem {a : α} {more : List α} (h : ∀ x ∈ a :: more, ReadsAs (P x) (text x))
    (rest : List Char) (fuel : Nat)
    (hfuel : 2 * (join ',' ((a :: more).map text)).length + 2 ≤ fuel) :
    ∃ items, readItem fuel (join ',' ((a :: more).map text) ++ ']' :: rest) =
      (items, some rest) ∧ Items.From P (a :: more) items := by
  induction more generalizing a fuel with
  | nil =>
    rw [List.map_singleton, join] at hfuel ⊢
    obtain ⟨fuel, rfl⟩ : ∃ n, fuel = n + 2 := ⟨fuel - 2, by omega⟩
    obtain ⟨v, hv, hP⟩ := (h a List.mem_cons_self).read (']' :: rest) (fuel + 1)
      (valueEnds_bracket rest) (by omega)
    refine ⟨.cons v .close, ?_, .cons hP .close⟩
    simp only [readItem, hv, skipBlanks_cons (c := ']') rfl, afterItem, if_true]
  | cons b more ih =>
    rw [List.map_cons, List.map_cons, join] at hfuel ⊢
    rw [← List.map_cons] at hfuel ⊢
    rw [List.length_append, List.length_cons] at hfuel
    obtain ⟨fuel, rfl⟩ : ∃ n, fuel = n + 2 := ⟨fuel - 2, by omega⟩
    have hone : 0 < (text a).length := by
      obtain ⟨c, tail, htext, -⟩ := (h a List.mem_cons_self).head
      rw [htext]
      exact Nat.succ_pos _
    obtain ⟨items, hitems, hfrom⟩ :=
      ih (fun x hx => h x (List.mem_cons_of_mem a hx)) fuel (by omega)
    obtain ⟨c, tail, hjoin, hblank, hbracket⟩ :=
      join_head (h b (List.mem_cons_of_mem a List.mem_cons_self)) more (']' :: rest)
    obtain ⟨v, hv, hP⟩ := (h a List.mem_cons_self).read
      (',' :: (join ',' ((b :: more).map text) ++ ']' :: rest)) (fuel + 1) (valueEnds_comma _)
      (by omega)
    refine ⟨.cons v items, ?_, .cons hP hfrom⟩
    rw [hjoin] at hitems hv
    rw [List.append_assoc, List.cons_append, hjoin]
    simp only [readItem, hv, skipBlanks_cons (c := ',') rfl, afterItem, skipBlanks_cons hblank,
      List.head?_cons, Option.some.injEq, hbracket, if_false, if_true, hitems]
    rfl

/-- **An array is read as its items.** -/
theorem readsAs_arrayText {as : List α} (h : ∀ a ∈ as, ReadsAs (P a) (text a)) :
    ReadsAs (fun v => ∃ ahead items, v = .array ahead items ∧ Items.From P as items)
      (arrayText (as.map text)) := by
  rw [arrayText, List.cons_append]
  apply readsAs_of_cons rfl (by decide)
  intro rest fuel _ hfuel
  rw [List.append_assoc, List.singleton_append]
  rw [List.length_append, List.length_singleton] at hfuel
  obtain ⟨fuel, rfl⟩ : ∃ n, fuel = n + 1 := ⟨fuel - 1, by omega⟩
  cases as with
  | nil =>
    refine ⟨.array ('[' :: ']' :: rest) .close, ?_, _, .close, rfl, .close⟩
    simp [readValue, readItems, join, skipBlanks_cons (c := ']') rfl]
  | cons a more =>
    obtain ⟨items, hitems, hfrom⟩ := exists_readItem h rest fuel (by omega)
    obtain ⟨c, tail, hjoin, hblank, hbracket⟩ :=
      join_head (h a List.mem_cons_self) more (']' :: rest)
    refine ⟨.array ('[' :: c :: tail) items, ?_, _, items, rfl, hfrom⟩
    rw [hjoin] at hitems ⊢
    have hread : readItems (fuel + 1) (c :: tail) = (items, some rest) := by
      rw [readItems, if_neg hbracket, hitems]
    simp only [readValue, skipBlanks_cons hblank, hread]

end Arrays

/-! ### Objects -/

/-- A member of an object: its name, its written value and what that is to be read as. -/
structure Member where
  name : String
  value : List Char
  meaning : Value → Prop

namespace Member

def text (m : Member) : List Char :=
  quote m.name.toList ++ ':' :: m.value

def IsReadable (m : Member) : Prop :=
  ReadsAs m.meaning m.value

end Member

/-- The members of an object that has been read up to its end. -/
inductive Members.From : List Member → Members → Prop where
  | close : Members.From [] .close
  | cons {m : Member} {v : Value} {more : List Member} {members : Members} :
      m.meaning v → Members.From more members →
        Members.From (m :: more) (.cons (.ok m.name) v members)

theorem exists_readMemberValue {m : Member} (h : m.IsReadable) {rest : List Char}
    (hrest : ValueEnds rest) (fuel : Nat) (hfuel : 2 * m.value.length ≤ fuel) :
    ∃ v, readMemberValue (fuel + 1) (':' :: (m.value ++ rest)) = (v, some rest) ∧ m.meaning v := by
  obtain ⟨c, tail, hvalue, hblank, -⟩ := h.head
  obtain ⟨v, hv, hmeaning⟩ := h.read rest fuel hrest hfuel
  refine ⟨v, ?_, hmeaning⟩
  have hskip : skipBlanks (m.value ++ rest) = m.value ++ rest := by
    rw [hvalue, List.cons_append, skipBlanks_cons hblank]
  rw [readMemberValue, if_pos rfl, hskip, hv]

theorem text_append (m : Member) (rest : List Char) :
    m.text ++ rest = '"' :: (escape m.name.toList ++ '"' :: ':' :: (m.value ++ rest)) := by
  simp [Member.text, quote]

/-- A member is read up to what follows it. -/
theorem exists_readMember {m : Member} (h : m.IsReadable) {rest : List Char}
    (hrest : ValueEnds rest) (fuel : Nat) (hfuel : 2 * m.value.length ≤ fuel) :
    ∃ v, m.meaning v ∧ readMember (fuel + 2) (m.text ++ rest) =
      let (members, rest) := afterMember (fuel + 1) (skipBlanks rest)
      (.cons (.ok m.name) v members, rest) := by
  obtain ⟨v, hv, hmeaning⟩ := exists_readMemberValue h hrest fuel hfuel
  refine ⟨v, hmeaning, ?_⟩
  rw [text_append, readMember, if_pos rfl, readText_escape]
  simp only [skipBlanks_cons (c := ':') rfl, hv]

theorem two_mul_length_value (m : Member) : 2 * m.value.length + 6 ≤ 2 * m.text.length := by
  rw [Member.text, quote]
  simp only [List.length_append, List.length_cons, List.length_nil]
  omega

theorem exists_join_text (m : Member) (more : List Member) (rest : List Char) :
    ∃ tail, join ',' ((m :: more).map Member.text) ++ rest = '"' :: tail := by
  rw [List.map_cons, Member.text, quote, List.cons_append, List.cons_append, Text.join_cons_cons]
  exact ⟨_, rfl⟩

theorem exists_readMembers {m : Member} {more : List Member}
    (h : ∀ x ∈ m :: more, x.IsReadable) (rest : List Char) (fuel : Nat)
    (hfuel : 2 * (join ',' ((m :: more).map Member.text)).length ≤ fuel) :
    ∃ members, readMember fuel (join ',' ((m :: more).map Member.text) ++ '\x7d' :: rest) =
      (members, some rest) ∧ Members.From (m :: more) members := by
  have hvalue := two_mul_length_value m
  induction more generalizing m fuel with
  | nil =>
    rw [List.map_singleton, join] at hfuel ⊢
    obtain ⟨fuel, rfl⟩ : ∃ n, fuel = n + 2 := ⟨fuel - 2, by omega⟩
    obtain ⟨v, hmeaning, hv⟩ := exists_readMember (h m List.mem_cons_self)
      (valueEnds_brace rest) fuel (by omega)
    refine ⟨_, hv.trans ?_, .cons hmeaning .close⟩
    simp only [skipBlanks_cons (c := '\x7d') rfl, afterMember, if_true]
  | cons b more ih =>
    rw [List.map_cons, List.map_cons, join] at hfuel ⊢
    rw [← List.map_cons] at hfuel ⊢
    rw [List.length_append, List.length_cons] at hfuel
    obtain ⟨fuel, rfl⟩ : ∃ n, fuel = n + 2 := ⟨fuel - 2, by omega⟩
    obtain ⟨members, hmembers, hfrom⟩ := ih (fun x hx => h x (List.mem_cons_of_mem m hx))
      fuel (by omega) (two_mul_length_value b)
    obtain ⟨v, hmeaning, hv⟩ := exists_readMember (h m List.mem_cons_self)
      (valueEnds_comma (join ',' ((b :: more).map Member.text) ++ '\x7d' :: rest))
      fuel (by omega)
    refine ⟨.cons (.ok m.name) v members, ?_, .cons hmeaning hfrom⟩
    obtain ⟨tail, hjoin⟩ := exists_join_text b more ('\x7d' :: rest)
    rw [hjoin] at hmembers hv
    rw [List.append_assoc, List.cons_append, hjoin, hv]
    simp only [skipBlanks_cons (c := ',') rfl, afterMember, skipBlanks_cons (c := '"') rfl,
      List.head?_cons, Option.some.injEq, Char.reduceEq, if_false, if_true, hmembers]

/-- **An object is read as its members.** -/
theorem readsAs_objectText {m : Member} {more : List Member}
    (h : ∀ x ∈ m :: more, x.IsReadable) :
    ReadsAs (fun v => ∃ ahead members, v = .object ahead members ∧
        Members.From (m :: more) members)
      (objectText ((m :: more).map fun x => (x.name, x.value))) := by
  have htext : objectText ((m :: more).map fun x => (x.name, x.value)) =
      '\x7b' :: (join ',' ((m :: more).map Member.text) ++ ['\x7d']) := by
    rw [objectText, List.map_map]
    rfl
  rw [htext]
  apply readsAs_of_cons rfl (by decide)
  intro rest fuel _ hfuel
  rw [List.append_assoc, List.singleton_append]
  rw [List.length_append, List.length_singleton] at hfuel
  obtain ⟨fuel, rfl⟩ : ∃ n, fuel = n + 1 := ⟨fuel - 1, by omega⟩
  obtain ⟨members, hmembers, hfrom⟩ := exists_readMembers h rest fuel (by omega)
  obtain ⟨tail, hjoin⟩ := exists_join_text m more ('\x7d' :: rest)
  refine ⟨.object ('\x7b' :: '"' :: tail) members, ?_, _, members, rfl, hfrom⟩
  rw [hjoin] at hmembers ⊢
  have hread : readMembers (fuel + 1) ('"' :: tail) = (members, some rest) := by
    rw [readMembers, if_neg (by decide), hmembers]
  simp only [readValue, skipBlanks_cons (c := '"') rfl, hread]

end Stocklist.Json
