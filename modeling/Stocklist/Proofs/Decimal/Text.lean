/-
  Stocklist/Proofs/Decimal/Text.lean
  ==================================
  **A double that is written reads back as itself.**

  The reader of floating-point texts takes a spelling apart into the parts that it was put
  together from, an exponent with its sign among them, so it reads the decimal that the
  parts denote (`ofText?_spelling`).  That decimal has the value of the shortest one of a
  magnitude, which rounds to the magnitude.  The sign stands before it, and nothing else
  that begins the text of a number can be taken for a sign (`ofText?_text`).
-/
import Mathlib.Tactic
import Stocklist.Decimal.Text
import Stocklist.Proofs.Json.Float

namespace Stocklist

open Decimal (Spelling digits)
open Json (digitValue NoDigitAhead)
open Nat (ofDigitChars)
open Numeral (ofDigits takeDigits)

/-! ### The parts of a text -/

namespace Decimal

theorem ofDigits_map_digitValue (cs : List Char) :
    ofDigits (cs.map digitValue) = ofDigitChars 10 cs 0 :=
  Json.foldl_digitValue cs 0

theorem digits?_digits (n : ℕ) : digits? (digits n) = some n := by
  have htake : takeDigits (digits n ++ []) = ((digits n).map digitValue, []) :=
    Json.takeDigits_append (fun c hc => isDigit_of_mem_digits hc) (by simp [NoDigitAhead])
  have hvalue : ofDigits ((digits n).map digitValue) = n := Json.ofDigits_digits n
  rw [List.append_nil] at htake
  rw [digits?, htake]
  cases hdigits : (digits n).map digitValue with
  | nil => exact absurd (List.map_eq_nil_iff.mp hdigits) Nat.toDigits_ne_nil
  | cons d ds =>
    rw [hdigits] at hvalue
    exact congrArg some hvalue

theorem exponent?_exponentText (e : Option ℤ) :
    exponent? (Spelling.exponentText e) = some (e.getD 0) := by
  cases e with
  | none => rfl
  | some e =>
    by_cases hneg : e < 0
    · have hvalue : -(e.natAbs : ℤ) = e := by omega
      rw [Spelling.exponentText, if_pos hneg, exponent?, if_pos (Or.inl rfl)]
      simp only [digits?_digits]
      exact congrArg some hvalue
    · have hvalue : (e.natAbs : ℤ) = e := by omega
      rw [Spelling.exponentText, if_neg hneg, exponent?, if_pos (Or.inl rfl)]
      simp only [digits?_digits]
      exact congrArg some hvalue

theorem noDigitAhead_exponentText (e : Option ℤ) :
    NoDigitAhead (Spelling.exponentText e) := by
  cases e with
  | none => simp [NoDigitAhead, Spelling.exponentText]
  | some e => exact Json.noDigitAhead_cons rfl _

/-- The values of the digits after a point, if there is one, and what follows them. -/
def takeFraction : List Char → List ℕ × List Char
  | '.' :: ds => takeDigits ds
  | rest => ([], rest)

theorem takeFraction_append {ds : List Char} (hds : ∀ c ∈ ds, c.isDigit) (e : Option ℤ) :
    takeFraction (Spelling.fractionText ds ++ Spelling.exponentText e) =
      (ds.map digitValue, Spelling.exponentText e) := by
  cases ds with
  | nil =>
    cases e with
    | none => rfl
    | some e => rfl
  | cons d ds => exact Json.takeDigits_append hds (noDigitAhead_exponentText e)

/-- A text with digits before the point is read in three parts. -/
theorem ofText?_eq {cs rest : List Char} {whole : List ℕ} (h : takeDigits cs = (whole, rest))
    (hne : whole ≠ []) :
    ofText? cs = (exponent? (takeFraction rest).2).map fun e =>
      ⟨ofDigits (whole ++ (takeFraction rest).1), e - (takeFraction rest).1.length⟩ := by
  rw [ofText?, h]
  apply if_neg
  rintro ⟨hempty, -⟩
  exact hne (List.isEmpty_iff.mp hempty)

/-- **A spelling is read as the decimal that its parts denote.** -/
theorem ofText?_spelling {s : Spelling} (hs : s.Legible) : ofText? s.text = some s.value := by
  have hwhole : takeDigits (s.whole ++ (Spelling.fractionText s.fraction ++
      Spelling.exponentText s.exponent)) = _ :=
    Json.takeDigits_append (fun c hc => hs.isDigit c (List.mem_append_left _ hc))
      (Json.noDigitAhead_fractionText_append _ (noDigitAhead_exponentText s.exponent))
  have hne : s.whole.map digitValue ≠ [] := by
    rcases hs.whole_eq with h | ⟨c, cs, h, -⟩ <;> simp [h]
  have hfraction : ∀ c ∈ s.fraction, c.isDigit :=
    fun c hc => hs.isDigit c (List.mem_append_right _ hc)
  rw [Spelling.text, List.append_assoc, ofText?_eq hwhole hne, takeFraction_append hfraction,
    exponent?_exponentText, ← List.map_append, ofDigits_map_digitValue, List.length_map]
  rfl

end Decimal

/-! ### Doubles -/

namespace Binary64

/-- What is read after the sign. -/
theorem unsigned?_text (negative : Bool) (m : Magnitude) :
    unsigned? negative (Decimal.shortest m).text = some (finite negative m) := by
  rw [unsigned?, ← Decimal.text_spelling, Decimal.ofText?_spelling (Decimal.legible_spelling _)]
  simp only [Json.round_value, ofMagnitude]

/-- **Every finite double reads back from its text**, zero with its sign. -/
theorem ofText?_text {x : Binary64} (h : x.isFinite) : ofText? x.text = some x := by
  cases x with
  | infinite negative => cases h
  | nan => cases h
  | finite negative m =>
    rw [text, ofText?, String.toList_ofList]
    cases negative with
    | true => exact unsigned?_text true m
    | false =>
      obtain ⟨c, cs, htext, hc⟩ := Json.isDigit_head (Decimal.legible_spelling (Decimal.shortest m))
      rw [Decimal.text_spelling] at htext
      -- A number begins with a digit, so its first character is no sign.
      have hminus : c ≠ '-' := Json.ne_of_isDigit hc rfl
      have hplus : c ≠ '+' := Json.ne_of_isDigit hc rfl
      rw [if_neg (by decide), ← unsigned?_text false m, htext]
      split
      · next heq => exact absurd (List.cons.inj heq).1 hminus
      · next heq => exact absurd (List.cons.inj heq).1 hplus
      · rfl

end Binary64

end Stocklist
