/-
  Stocklist/Proofs/Json/Number.lean
  =================================
  **A written number is taken apart into its parts.**

  In front of a text that does not go on with the number, a spelling gives back its parts
  (`numberText_spelling`).  As long as the digits fit one word, none of them is dropped, so
  an integer has the value of its digits (`value_digits`), and a number with a point or an
  exponent is scaled as the decimal that it denotes (`value_spelling`).
-/
import Mathlib.Tactic
import Stocklist.Json.Number
import Stocklist.Proofs.Decimal.Notation
import Stocklist.Proofs.Numeral

namespace Stocklist.Json

open Nat (ofDigitChars)
open Numeral (digit? takeDigits)
open Decimal (Spelling digits)

/-- The value of a digit. -/
def digitValue (c : Char) : Nat :=
  c.toNat - '0'.toNat

/-! ### Runs of digits -/

/-- A text that does not go on with a digit. -/
def NoDigitAhead (rest : List Char) : Prop :=
  ∀ c ∈ rest.head?, digit? c = none

theorem noDigitAhead_cons {c : Char} (h : digit? c = none) (rest : List Char) :
    NoDigitAhead (c :: rest) := by
  intro d hd
  rw [List.head?_cons, Option.mem_some_iff] at hd
  exact hd ▸ h

theorem digit?_of_isDigit {c : Char} (h : c.isDigit) : digit? c = some (digitValue c) := by
  have hrange := Char.isDigit_iff_toNat.mp h
  exact if_pos hrange

theorem takeDigits_append {cs rest : List Char} (hcs : ∀ c ∈ cs, c.isDigit)
    (hrest : NoDigitAhead rest) : takeDigits (cs ++ rest) = (cs.map digitValue, rest) := by
  induction cs with
  | nil =>
    cases rest with
    | nil => rfl
    | cons c rest => simp [takeDigits, hrest c rfl]
  | cons c cs ih =>
    have hc := digit?_of_isDigit (hcs c List.mem_cons_self)
    simp [takeDigits, hc, ih fun d hd => hcs d (List.mem_cons_of_mem c hd)]

theorem someDigits_append {cs rest : List Char} (hne : cs ≠ []) (hcs : ∀ c ∈ cs, c.isDigit)
    (hrest : NoDigitAhead rest) : someDigits (cs ++ rest) = .ok (cs.map digitValue, rest) := by
  cases cs with
  | nil => exact absurd rfl hne
  | cons c cs =>
    rw [someDigits, takeDigits_append hcs hrest]
    rfl

theorem foldl_digitValue (cs : List Char) (n : Nat) :
    (cs.map digitValue).foldl (fun n d => 10 * n + d) n = ofDigitChars 10 cs n :=
  List.foldl_map

/-- The values of the digits of a number make up the number. -/
theorem ofDigits_digits (n : ℕ) : Numeral.ofDigits ((digits n).map digitValue) = n := by
  rw [Numeral.ofDigits, foldl_digitValue, Decimal.ofDigitChars_digits]

/-! ### The parts of a number -/

/-- A text that goes on neither with the digits nor with another part of a number. -/
def NoNumberAhead (rest : List Char) : Prop :=
  ∀ c ∈ rest.head?, digit? c = none ∧ c ≠ '.' ∧ c ≠ 'e' ∧ c ≠ 'E'

theorem NoNumberAhead.noDigitAhead {rest : List Char} (h : NoNumberAhead rest) :
    NoDigitAhead rest :=
  fun c hc => (h c hc).1

theorem wholeDigits_append {cs rest : List Char} (hcs : ∀ c ∈ cs, c.isDigit)
    (hwhole : cs = ['0'] ∨ ∃ d ds, cs = d :: ds ∧ d ≠ '0') (hrest : NoDigitAhead rest) :
    wholeDigits (cs ++ rest) = .ok (cs.map digitValue, rest) := by
  rcases hwhole with rfl | ⟨d, ds, rfl, hd⟩
  · have hnone : takeDigits ([] ++ rest) = ([], rest) :=
      takeDigits_append (List.forall_mem_nil _) hrest
    rw [List.nil_append] at hnone
    simp [wholeDigits, hnone]
    rfl
  · have hsome : wholeDigits (d :: ds ++ rest) = someDigits (d :: ds ++ rest) := by
      rw [List.cons_append, wholeDigits]
      intro tail htail
      exact hd (List.cons.inj htail).1
    rw [hsome, someDigits_append (List.cons_ne_nil d ds) hcs hrest]

/-- The values of digits after a point, if there are any. -/
def fractionValues : List Char → Option (List Nat)
  | [] => none
  | ds => some (ds.map digitValue)

def exponentValues (e : Int) : Bool × List Nat :=
  (decide (e < 0), (digits e.natAbs).map digitValue)

theorem fractionDigits_append {ds rest : List Char} (hds : ∀ c ∈ ds, c.isDigit)
    (hdigit : NoDigitAhead rest) (hpoint : ∀ c ∈ rest.head?, c ≠ '.') :
    fractionDigits (Spelling.fractionText ds ++ rest) = .ok (fractionValues ds, rest) := by
  cases ds with
  | nil =>
    cases rest with
    | nil => rfl
    | cons c rest =>
      have hc := hpoint c rfl
      rw [Spelling.fractionText, List.nil_append, fractionDigits]
      · rfl
      · intro tail htail
        exact hc (List.cons.inj htail).1
  | cons d ds =>
    rw [Spelling.fractionText]
    · rw [List.cons_append, fractionDigits, someDigits_append (List.cons_ne_nil d ds) hds hdigit]
      rfl
    · exact List.cons_ne_nil d ds

theorem exponentDigits_append (e : Option Int) {rest : List Char} (hrest : NoNumberAhead rest) :
    exponentDigits (Spelling.exponentText e ++ rest) = .ok (e.map exponentValues, rest) := by
  cases e with
  | none =>
    cases rest with
    | nil => rfl
    | cons c rest =>
      obtain ⟨-, -, he, hE⟩ := hrest c rfl
      simp [Spelling.exponentText, exponentDigits, he, hE]
  | some e =>
    have hdigits : someDigits (digits e.natAbs ++ rest) = _ :=
      someDigits_append Nat.toDigits_ne_nil (fun c hc => Decimal.isDigit_of_mem_digits hc)
        hrest.noDigitAhead
    by_cases hneg : e < 0
    · simp [Spelling.exponentText, exponentDigits, exponentValues, hneg, hdigits, Except.map]
    · simp [Spelling.exponentText, exponentDigits, exponentValues, hneg, hdigits, Except.map]

/-- The values of the parts of a spelling. -/
def ofSpelling (negative : Bool) (s : Spelling) : NumberText where
  negative := negative
  whole := s.whole.map digitValue
  fraction := fractionValues s.fraction
  exponent := s.exponent.map exponentValues

theorem head?_exponentText_append (e : Option Int) {rest : List Char} (hrest : NoNumberAhead rest) :
    ∀ c ∈ (Spelling.exponentText e ++ rest).head?, digit? c = none ∧ c ≠ '.' := by
  intro c hc
  cases e with
  | none =>
    obtain ⟨hdigit, hpoint, -⟩ := hrest c hc
    exact ⟨hdigit, hpoint⟩
  | some e =>
    obtain rfl : 'e' = c := Option.some.inj hc
    exact ⟨rfl, by decide⟩

theorem noDigitAhead_fractionText_append (ds : List Char) {rest : List Char}
    (hrest : NoDigitAhead rest) : NoDigitAhead (Spelling.fractionText ds ++ rest) := by
  cases ds with
  | nil => exact hrest
  | cons d ds => exact noDigitAhead_cons rfl _

/-- **A written number is taken apart into its parts.** -/
theorem numberText_spelling (negative : Bool) {s : Spelling} (hs : s.Legible) {rest : List Char}
    (hrest : NoNumberAhead rest) :
    numberText negative (s.text ++ rest) = .ok (ofSpelling negative s, rest) := by
  have hexponent := head?_exponentText_append s.exponent hrest
  have hwhole : wholeDigits (s.whole ++ (Spelling.fractionText s.fraction ++
      (Spelling.exponentText s.exponent ++ rest))) = _ :=
    wholeDigits_append (fun c hc => hs.isDigit c (List.mem_append_left _ hc)) hs.whole_eq
      (noDigitAhead_fractionText_append _ fun c hc => (hexponent c hc).1)
  have hfraction : fractionDigits (Spelling.fractionText s.fraction ++
      (Spelling.exponentText s.exponent ++ rest)) = _ :=
    fractionDigits_append (fun c hc => hs.isDigit c (List.mem_append_right _ hc))
      (fun c hc => (hexponent c hc).1) (fun c hc => (hexponent c hc).2)
  rw [numberText, Spelling.text, List.append_assoc, List.append_assoc, hwhole]
  simp only [bind, Except.bind, hfraction, exponentDigits_append _ hrest]
  rfl

/-! ### The value -/

/-- No digit is left as long as a word can hold them all. -/
theorem extend_of_lt {n : Nat} {ds : List Nat}
    (h : ds.foldl (fun n d => 10 * n + d) n < UInt64.size) :
    extend n ds = (ds.foldl (fun n d => 10 * n + d) n, ds.length, 0) := by
  induction ds generalizing n with
  | nil => rfl
  | cons d ds ih =>
    have hfirst : 10 * n + d < UInt64.size :=
      (Numeral.le_foldl_digits (10 * n + d) ds).trans_lt h
    rw [extend, if_pos hfirst, ih h]
    rfl

theorem boundedExponent_of_le {n : Nat} {ds : List Nat}
    (h : ds.foldl (fun n d => 10 * n + d) n ≤ exponentLimit) :
    boundedExponent n ds = .ok (ds.foldl (fun n d => 10 * n + d) n) := by
  induction ds generalizing n with
  | nil => rfl
  | cons d ds ih =>
    have hfirst : 10 * n + d ≤ exponentLimit :=
      (Numeral.le_foldl_digits (10 * n + d) ds).trans h
    rw [boundedExponent, if_pos hfirst, ih h]
    rfl

theorem extend_digitValue {cs : List Char} {n : Nat} (h : ofDigitChars 10 cs n < UInt64.size) :
    extend n (cs.map digitValue) = (ofDigitChars 10 cs n, cs.length, 0) := by
  rw [extend_of_lt (by rwa [foldl_digitValue]), foldl_digitValue, List.length_map]

theorem le_ofDigitChars (cs : List Char) (n : Nat) : n ≤ ofDigitChars 10 cs n := by
  rw [← foldl_digitValue]
  exact Numeral.le_foldl_digits n _

theorem boundedExponent_digits {n : Nat} (h : n ≤ exponentLimit) :
    boundedExponent 0 ((digits n).map digitValue) = .ok n := by
  rw [boundedExponent_of_le (by rwa [foldl_digitValue, Decimal.ofDigitChars_digits]),
    foldl_digitValue, Decimal.ofDigitChars_digits]

theorem getD_fractionValues (ds : List Char) :
    (fractionValues ds).getD [] = ds.map digitValue := by
  cases ds with
  | nil => rfl
  | cons d ds => rfl

/-- **A number with a point or an exponent is scaled as the decimal that it denotes.** -/
theorem float_ofSpelling (negative : Bool) {s : Spelling} (ahead : List Char)
    (hvalue : s.value.coefficient < UInt64.size)
    (hexponent : ∀ e ∈ s.exponent, e.natAbs ≤ exponentLimit) :
    (ofSpelling negative s).float ahead =
      inRange negative ahead (scale s.value.coefficient s.value.exponent) := by
  rw [Spelling.value, Nat.ofDigitChars_append] at hvalue
  have hwhole := extend_digitValue ((le_ofDigitChars s.fraction _).trans_lt hvalue)
  have hfraction := extend_digitValue hvalue
  rw [NumberText.float, ofSpelling]
  simp only [getD_fractionValues, hwhole, hfraction, Spelling.value, Nat.ofDigitChars_append]
  cases he : s.exponent with
  | none => simp
  | some e =>
    have hbound := boundedExponent_digits (hexponent e he)
    simp only [Option.map_some, exponentValues, hbound, Option.getD_some]
    by_cases hneg : e < 0
    · have hsum : ((0 : ℕ) : ℤ) - s.fraction.length - e.natAbs = e - s.fraction.length := by omega
      simp only [hneg, decide_true, if_true, hsum]
    · have hsum : ((0 : ℕ) : ℤ) - s.fraction.length + e.natAbs = e - s.fraction.length := by omega
      simp only [hneg, decide_false, Bool.false_eq_true, if_false, hsum]

theorem value_ofSpelling (negative : Bool) {s : Spelling} (ahead : List Char) (hs : s.Marked) :
    (ofSpelling negative s).value ahead = ((ofSpelling negative s).float ahead).map .float := by
  have hparts : ¬ ((ofSpelling negative s).fraction.isNone ∧
      (ofSpelling negative s).exponent.isNone) := by
    rintro ⟨hfraction, hexponent⟩
    rcases hs with hs | hs
    · cases hf : s.fraction with
      | nil => exact hs hf
      | cons d ds =>
        rw [ofSpelling, hf] at hfraction
        cases hfraction
    · rw [ofSpelling, Option.isNone_map, Option.isNone_iff_eq_none] at hexponent
      rw [hexponent] at hs
      cases hs
  rw [NumberText.value]
  apply if_neg
  rintro ⟨hfraction, hexponent, -⟩
  exact hparts ⟨hfraction, hexponent⟩

/-- An integer has the value of its digits. -/
theorem value_digits {n : Nat} (ahead : List Char) (hn : n < UInt64.size) :
    (ofSpelling false ⟨digits n, [], none⟩).value ahead = .ok (.natural (UInt64.ofNat n)) := by
  have hextend : extend 0 ((digits n).map digitValue) = (n, (digits n).length, 0) := by
    rw [extend_digitValue (by rwa [Decimal.ofDigitChars_digits]), Decimal.ofDigitChars_digits]
  rw [NumberText.value, ofSpelling]
  dsimp only
  rw [hextend]
  exact if_pos ⟨rfl, rfl, rfl, fun hneg => absurd hneg (by decide)⟩

theorem value_neg_digits {n : Nat} (ahead : List Char) (hpos : 0 < n)
    (hn : n ≤ Int64.minValue.toInt.natAbs) :
    (ofSpelling true ⟨digits n, [], none⟩).value ahead = .ok (.negative (Int64.ofInt (-n))) := by
  have hlt : n < UInt64.size := hn.trans_lt (by decide)
  have hextend : extend 0 ((digits n).map digitValue) = (n, (digits n).length, 0) := by
    rw [extend_digitValue (by rwa [Decimal.ofDigitChars_digits]), Decimal.ofDigitChars_digits]
  rw [NumberText.value, ofSpelling]
  dsimp only
  rw [hextend]
  exact if_pos ⟨rfl, rfl, rfl, fun _ => ⟨hpos, hn⟩⟩

end Stocklist.Json
