/-
  Stocklist/Proofs/Decimal/Notation.lean
  ======================================
  **A decimal and the parts of its text.**

  The text of a decimal is a number in parts (`Spelling`): digits before the point, digits
  after it and an exponent.  Both notations are spellings (`text_spelling`), one that every
  reader of numbers can take apart (`legible_spelling`), and what the parts denote is the
  decimal (`units_spelling`), with hardly more digits than it has
  (`coefficient_spelling_le`).
-/
import Mathlib.Tactic
import Stocklist.Decimal.Notation
import Stocklist.Proofs.Decimal.Shortest

namespace Stocklist.Decimal

open Nat (ofDigitChars)

/-! ### Spellings -/

/-- A written number in parts.  One without digits after the point has no point. -/
structure Spelling where
  whole : List Char
  fraction : List Char
  exponent : Option Int
deriving DecidableEq, Repr

namespace Spelling

def fractionText : List Char → List Char
  | [] => []
  | ds => '.' :: ds

def exponentText : Option Int → List Char
  | none => []
  | some e => 'e' :: (if e < 0 then '-' else '+') :: digits e.natAbs

def text (s : Spelling) : List Char :=
  s.whole ++ fractionText s.fraction ++ exponentText s.exponent

/-- What the parts denote. -/
def value (s : Spelling) : Decimal where
  coefficient := ofDigitChars 10 (s.whole ++ s.fraction) 0
  exponent := s.exponent.getD 0 - s.fraction.length

/-- A spelling that can be taken apart: a zero before the point stands alone. -/
structure Legible (s : Spelling) : Prop where
  isDigit : ∀ c ∈ s.whole ++ s.fraction, c.isDigit
  whole_eq : s.whole = ['0'] ∨ ∃ c cs, s.whole = c :: cs ∧ c ≠ '0'

/-- A spelling that has a point or an exponent. -/
def Marked (s : Spelling) : Prop :=
  s.fraction ≠ [] ∨ s.exponent.isSome

end Spelling

/-- The parts of positional notation. -/
def positionalSpelling (ds : List Char) (e : Int) : Spelling :=
  if e < 0 then ⟨['0'], List.replicate (-e - 1).toNat '0' ++ ds, none⟩
  else if ds.length ≤ e.toNat + 1 then
    ⟨ds ++ List.replicate (e.toNat + 1 - ds.length) '0', ['0'], none⟩
  else ⟨ds.take (e.toNat + 1), ds.drop (e.toNat + 1), none⟩

def scientificSpelling (ds : List Char) (e : Int) : Spelling :=
  ⟨ds.take 1, ds.drop 1, some e⟩

/-- The power of ten that the first digit of a decimal stands for. -/
def leading (d : Decimal) : Int :=
  d.exponent + (digits d.coefficient).length - 1

/-- The parts of the text of a decimal. -/
def spelling (d : Decimal) : Spelling :=
  if d.coefficient = 0 then ⟨['0'], ['0'], none⟩
  else if -5 ≤ d.leading ∧ d.leading ≤ 15 then
    positionalSpelling (trimZeros (digits d.coefficient)) d.leading
  else scientificSpelling (trimZeros (digits d.coefficient)) d.leading

theorem fractionText_of_ne_nil {ds : List Char} (h : ds ≠ []) :
    Spelling.fractionText ds = '.' :: ds := by
  cases ds with
  | nil => exact absurd rfl h
  | cons d ds => rfl

theorem text_positionalSpelling {ds : List Char} (e : Int) (h : ds ≠ []) :
    (positionalSpelling ds e).text = positional ds e := by
  by_cases hneg : e < 0
  · rw [positionalSpelling, if_pos hneg, positional, if_pos hneg, Spelling.text,
      fractionText_of_ne_nil (by simp [h])]
    simp [Spelling.exponentText]
  · by_cases hlen : ds.length ≤ e.toNat + 1
    · simp [positionalSpelling, positional, hneg, hlen, Spelling.text, Spelling.fractionText,
        Spelling.exponentText]
    · have hdrop : ds.drop (e.toNat + 1) ≠ [] := by
        rw [ne_eq, List.drop_eq_nil_iff]
        exact hlen
      have hpad : e.toNat + 1 - ds.length = 0 := by omega
      simp [positionalSpelling, positional, hneg, hlen, Spelling.text, hdrop, hpad,
        fractionText_of_ne_nil hdrop, Spelling.exponentText]

theorem text_scientificSpelling (ds : List Char) (e : Int) :
    (scientificSpelling ds e).text = scientific ds e := by
  rcases ds with _ | ⟨d, _ | ⟨f, fs⟩⟩
  · rfl
  · rfl
  · rfl

/-! ### Digits -/

section Digits

variable {n : ℕ}

theorem isDigit_of_mem_digits {c : Char} (h : c ∈ digits n) : c.isDigit :=
  Nat.isDigit_of_mem_toDigits (by decide) (by decide) h

theorem ofDigitChars_digits (n : ℕ) : ofDigitChars 10 (digits n) 0 = n :=
  Nat.ofDigitChars_ten_toDigits

/-- No number but zero begins with a zero. -/
theorem exists_digits_eq_cons (hn : n ≠ 0) : ∃ c cs, digits n = c :: cs ∧ c ≠ '0' := by
  induction n using Nat.strong_induction_on with
  | _ n ih =>
    rw [digits]
    by_cases hten : n < 10
    · refine ⟨n.digitChar, [], Nat.toDigits_of_lt_base hten, ?_⟩
      interval_cases n <;> simp_all
    · obtain ⟨c, cs, hcs, hc⟩ := ih (n / 10) (by omega) (by omega)
      refine ⟨c, cs ++ [(n % 10).digitChar], ?_, hc⟩
      rw [Nat.toDigits_of_base_le (by decide) (not_lt.mp hten), ← List.cons_append, ← hcs, digits]

theorem ofDigitChars_lt {cs : List Char} (h : ∀ c ∈ cs, c.isDigit) :
    ofDigitChars 10 cs 0 < 10 ^ cs.length := by
  induction cs with
  | nil => simp
  | cons c cs ih =>
    have hc : c.toNat - '0'.toNat ≤ 9 := by
      have hdigit := Char.isDigit_iff_toNat.mp (h c List.mem_cons_self)
      have hnine : '9'.toNat = 57 := rfl
      have hzero : '0'.toNat = 48 := rfl
      omega
    have htail := ih fun d hd => h d (List.mem_cons_of_mem c hd)
    rw [Nat.ofDigitChars_cons, Nat.ofDigitChars_eq_ofDigitChars_zero, List.length_cons, pow_succ]
    have hmul : 10 ^ cs.length * (10 * 0 + (c.toNat - '0'.toNat)) ≤ 10 ^ cs.length * 9 :=
      Nat.mul_le_mul_left _ (by omega)
    omega

/-- A list of digits is the trimmed one with zeros after it. -/
theorem eq_trimZeros_append (ds : List Char) :
    ∃ j, ds = trimZeros ds ++ List.replicate j '0' := by
  refine ⟨(ds.reverse.takeWhile (· = '0')).length, ?_⟩
  have hzeros : ∀ c ∈ ds.reverse.takeWhile (· = '0'), c = '0' := by
    intro c hc
    simpa using List.all_eq_true.mp List.all_takeWhile c hc
  rw [← List.reverse_inj, List.reverse_append, trimZeros, List.reverse_reverse,
    List.reverse_replicate, ← List.eq_replicate_of_mem hzeros]
  exact List.takeWhile_append_dropWhile.symm

theorem exists_trimZeros_eq_cons (hn : n ≠ 0) :
    ∃ c cs, trimZeros (digits n) = c :: cs ∧ c ≠ '0' := by
  obtain ⟨j, hj⟩ := eq_trimZeros_append (digits n)
  obtain ⟨c, cs, hcs, hc⟩ := exists_digits_eq_cons hn
  rw [hcs] at hj
  cases ht : trimZeros (digits n) with
  | nil =>
    rw [← hcs, ht, List.nil_append] at hj
    have hmem : c ∈ List.replicate j '0' := by
      rw [← hj, hcs]
      exact List.mem_cons_self
    exact absurd (List.eq_of_mem_replicate hmem) hc
  | cons x xs =>
    rw [← hcs, ht, hcs, List.cons_append, List.cons.injEq] at hj
    exact ⟨x, xs, rfl, hj.1 ▸ hc⟩

theorem isDigit_of_mem_trimZeros {c : Char} (h : c ∈ trimZeros (digits n)) : c.isDigit := by
  obtain ⟨j, hj⟩ := eq_trimZeros_append (digits n)
  apply isDigit_of_mem_digits (n := n)
  rw [hj]
  exact List.mem_append_left _ h

/-- The zeros that are trimmed are a power of ten. -/
theorem exists_trimZeros_mul (n : ℕ) :
    ∃ j, n = ofDigitChars 10 (trimZeros (digits n)) 0 * 10 ^ j ∧
      (digits n).length = (trimZeros (digits n)).length + j := by
  obtain ⟨j, hj⟩ := eq_trimZeros_append (digits n)
  refine ⟨j, ?_, ?_⟩
  · have hvalue := congrArg (ofDigitChars 10 · 0) hj
    rw [ofDigitChars_digits, Nat.ofDigitChars_append, Nat.ofDigitChars_replicate_zero] at hvalue
    rw [mul_comm]
    exact hvalue
  · have hlength := congrArg List.length hj
    rwa [List.length_append, List.length_replicate] at hlength

theorem toNat_sub_ne_zero {c : Char} (hdigit : c.isDigit) (hc : c ≠ '0') :
    c.toNat - '0'.toNat ≠ 0 ∧ c.toNat - '0'.toNat < 10 := by
  have hrange := Char.isDigit_iff_toNat.mp hdigit
  have hne : c.toNat ≠ '0'.toNat := fun h => hc (Char.toNat_inj.mp h)
  have hzero : '0'.toNat = 48 := rfl
  have hnine : '9'.toNat = 57 := rfl
  omega

theorem not_ten_dvd_trimZeros (hn : n ≠ 0) :
    ¬ 10 ∣ ofDigitChars 10 (trimZeros (digits n)) 0 := by
  obtain ⟨c, cs, hcs, -⟩ := exists_trimZeros_eq_cons hn
  have hdrop : (digits n).reverse.dropWhile (· = '0') ≠ [] := by
    intro hnil
    rw [trimZeros, hnil] at hcs
    cases hcs
  have hlast : trimZeros (digits n) =
      ((digits n).reverse.dropWhile (· = '0')).tail.reverse ++
        [((digits n).reverse.dropWhile (· = '0')).head hdrop] := by
    rw [trimZeros, ← List.reverse_cons, List.cons_head_tail]
  have hne := List.head_dropWhile_not (· = '0') hdrop
  have hdigit : (((digits n).reverse.dropWhile (· = '0')).head hdrop).isDigit := by
    apply isDigit_of_mem_trimZeros (n := n)
    rw [hlast]
    exact List.mem_append_right _ List.mem_cons_self
  have hvalue := toNat_sub_ne_zero hdigit (by simpa using hne)
  rw [hlast, Nat.ofDigitChars_append, Nat.ofDigitChars_cons, Nat.ofDigitChars_nil]
  omega

end Digits

/-! ### The text of a decimal -/

variable {d : Decimal}

theorem text_spelling (d : Decimal) : d.spelling.text = d.text := by
  by_cases hzero : d.coefficient = 0
  · rw [spelling, text, if_pos hzero, if_pos hzero]
    rfl
  · obtain ⟨c, cs, hcs, -⟩ := exists_trimZeros_eq_cons hzero
    have hne : trimZeros (digits d.coefficient) ≠ [] := by
      rw [hcs]
      exact List.cons_ne_nil c cs
    rw [spelling, text, if_neg hzero, if_neg hzero]
    by_cases hrange : -5 ≤ d.leading ∧ d.leading ≤ 15
    · rw [if_pos hrange, text_positionalSpelling _ hne]
      exact (if_pos hrange).symm
    · rw [if_neg hrange, text_scientificSpelling]
      exact (if_neg hrange).symm

theorem legible_positionalSpelling {c : Char} {cs : List Char} (e : Int)
    (hdigits : ∀ x ∈ c :: cs, x.isDigit) (hc : c ≠ '0') :
    (positionalSpelling (c :: cs) e).Legible := by
  rw [positionalSpelling]
  split_ifs with hneg hlen
  · refine ⟨?_, Or.inl rfl⟩
    intro x hx
    simp only [List.mem_append, List.mem_replicate, List.mem_singleton] at hx
    rcases hx with rfl | ⟨-, rfl⟩ | hx
    · rfl
    · rfl
    · exact hdigits x hx
  · refine ⟨?_, Or.inr ⟨c, _, List.cons_append, hc⟩⟩
    intro x hx
    simp only [List.mem_append, List.mem_replicate, List.mem_singleton] at hx
    rcases hx with (hx | ⟨-, rfl⟩) | rfl
    · exact hdigits x hx
    · rfl
    · rfl
  · refine ⟨?_, Or.inr ⟨c, _, List.take_succ_cons, hc⟩⟩
    intro x hx
    rw [List.take_append_drop] at hx
    exact hdigits x hx

theorem legible_scientificSpelling {c : Char} {cs : List Char} (e : Int)
    (hdigits : ∀ x ∈ c :: cs, x.isDigit) (hc : c ≠ '0') :
    (scientificSpelling (c :: cs) e).Legible := by
  refine ⟨?_, Or.inr ⟨c, _, List.take_succ_cons, hc⟩⟩
  intro x hx
  rw [scientificSpelling, List.take_append_drop] at hx
  exact hdigits x hx

theorem legible_spelling (d : Decimal) : d.spelling.Legible := by
  by_cases hzero : d.coefficient = 0
  · rw [spelling, if_pos hzero]
    exact ⟨by simp, Or.inl rfl⟩
  · obtain ⟨c, cs, hcs, hc⟩ := exists_trimZeros_eq_cons hzero
    have hdigits : ∀ x ∈ c :: cs, x.isDigit := by
      intro x hx
      rw [← hcs] at hx
      exact isDigit_of_mem_trimZeros hx
    rw [spelling, if_neg hzero, hcs]
    split_ifs
    · exact legible_positionalSpelling _ hdigits hc
    · exact legible_scientificSpelling _ hdigits hc

theorem marked_spelling (d : Decimal) : d.spelling.Marked := by
  simp only [spelling, positionalSpelling, scientificSpelling]
  split_ifs with hzero hrange hneg hlen
  · exact Or.inl (List.cons_ne_nil _ _)
  · obtain ⟨c, cs, hcs, -⟩ := exists_trimZeros_eq_cons hzero
    refine Or.inl ?_
    rw [hcs]
    exact List.append_ne_nil_of_right_ne_nil _ (List.cons_ne_nil c cs)
  · exact Or.inl (List.cons_ne_nil _ _)
  · refine Or.inl ?_
    rw [ne_eq, List.drop_eq_nil_iff]
    exact hlen
  · exact Or.inr rfl

theorem legible_digits (n : ℕ) : (⟨digits n, [], none⟩ : Spelling).Legible := by
  refine ⟨?_, ?_⟩
  · intro c hc
    rw [List.append_nil] at hc
    exact isDigit_of_mem_digits hc
  · by_cases hzero : n = 0
    · left
      rw [hzero]
      rfl
    · exact Or.inr (exists_digits_eq_cons hzero)

theorem text_digits (n : ℕ) : (⟨digits n, [], none⟩ : Spelling).text = digits n := by
  simp [Spelling.text, Spelling.fractionText, Spelling.exponentText]

/-! ### What the text denotes -/

theorem units_left_injective {a b : ℕ} {e : ℤ}
    (h : (⟨a, e⟩ : Decimal).units = (⟨b, e⟩ : Decimal).units) : a = b := by
  have hunit := unit_pos e
  rw [units, units, mul_assoc, mul_assoc] at h
  exact_mod_cast mul_right_cancel₀ hunit.ne' h

theorem units_mul_ten_pow (n i : ℕ) (e : ℤ) :
    (⟨n * 10 ^ i, e⟩ : Decimal).units = (⟨n, e + i⟩ : Decimal).units := by
  rw [units_eq_mul, units]
  push_cast
  ring

theorem value_spelling_of_eq_zero (h : d.coefficient = 0) : d.spelling.value = ⟨0, -1⟩ := by
  rw [spelling, if_pos h]
  rfl

theorem value_scientificSpelling {ds : List Char} (e : Int) (h : ds ≠ []) :
    (scientificSpelling ds e).value = ⟨ofDigitChars 10 ds 0, e + 1 - ds.length⟩ := by
  have hlength : 0 < ds.length := List.length_pos_iff.mpr h
  simp only [scientificSpelling, Spelling.value, List.take_append_drop, List.length_drop,
    Option.getD_some, mk.injEq, true_and]
  omega

/-- Only a whole number with zeros before the point takes more digits than it has. -/
theorem value_positionalSpelling (ds : List Char) (e : Int) :
    (positionalSpelling ds e).value = ⟨ofDigitChars 10 ds 0, e + 1 - ds.length⟩ ∨
      ∃ i : ℕ, e + 1 - ds.length = i ∧
        (positionalSpelling ds e).value = ⟨ofDigitChars 10 ds 0 * 10 ^ (i + 1), -1⟩ := by
  rw [positionalSpelling]
  split_ifs with hneg hlen
  · left
    simp only [Spelling.value, Nat.ofDigitChars_append, Nat.ofDigitChars_replicate_zero,
      List.length_append, List.length_replicate, Option.getD_none, mk.injEq]
    constructor
    · simp [Nat.ofDigitChars_cons]
    · push_cast
      omega
  · right
    refine ⟨e.toNat + 1 - ds.length, by omega, ?_⟩
    simp only [Spelling.value, Nat.ofDigitChars_append, Nat.ofDigitChars_replicate_zero,
      Nat.ofDigitChars_cons, Nat.ofDigitChars_nil, List.length_singleton, Option.getD_none,
      mk.injEq]
    constructor
    · rw [pow_succ, Nat.sub_self]
      ring
    · rfl
  · left
    simp only [Spelling.value, List.take_append_drop, List.length_drop, Option.getD_none,
      mk.injEq, true_and]
    omega

/-- **What is written of a decimal:** its digits without the zeros at their end, or, for a whole
    number below `10 ^ 16`, all of it with one zero after the point. -/
theorem value_spelling_cases (hd : d.coefficient ≠ 0) :
    ∃ t j : ℕ, d.coefficient = t * 10 ^ j ∧ ¬ 10 ∣ t ∧
      (d.spelling.value = ⟨t, d.exponent + j⟩ ∨
        ∃ i : ℕ, d.exponent + j = i ∧ t * 10 ^ i < 10 ^ 16 ∧
          d.spelling.value = ⟨t * 10 ^ (i + 1), -1⟩) := by
  obtain ⟨j, hj, hlength⟩ := exists_trimZeros_mul d.coefficient
  refine ⟨_, j, hj, not_ten_dvd_trimZeros hd, ?_⟩
  obtain ⟨c, cs, hcs, -⟩ := exists_trimZeros_eq_cons hd
  have hne : trimZeros (digits d.coefficient) ≠ [] := by
    rw [hcs]
    exact List.cons_ne_nil c cs
  have hlt : ofDigitChars 10 (trimZeros (digits d.coefficient)) 0 <
      10 ^ (trimZeros (digits d.coefficient)).length :=
    ofDigitChars_lt fun x hx => isDigit_of_mem_trimZeros hx
  have hexponent : d.leading + 1 - (trimZeros (digits d.coefficient)).length = d.exponent + j := by
    rw [leading, hlength]
    push_cast
    ring
  rw [spelling, if_neg hd]
  split_ifs with hrange
  · rcases value_positionalSpelling (trimZeros (digits d.coefficient)) d.leading with
      hvalue | ⟨i, hi, hvalue⟩
    · left
      rw [hvalue, hexponent]
    · right
      refine ⟨i, by omega, ?_, hvalue⟩
      calc ofDigitChars 10 (trimZeros (digits d.coefficient)) 0 * 10 ^ i
          < 10 ^ (trimZeros (digits d.coefficient)).length * 10 ^ i :=
            Nat.mul_lt_mul_of_pos_right hlt (by positivity)
        _ = 10 ^ ((trimZeros (digits d.coefficient)).length + i) := (pow_add _ _ _).symm
        _ ≤ 10 ^ 16 := Nat.pow_le_pow_right (by decide) (by omega)
  · left
    rw [value_scientificSpelling _ hne, hexponent]

/-- **The text of a decimal denotes it.** -/
theorem units_spelling (d : Decimal) : d.spelling.value.units = d.units := by
  by_cases hzero : d.coefficient = 0
  · rw [value_spelling_of_eq_zero hzero, units, units, hzero]
    simp
  · obtain ⟨t, j, hc, -, hvalue | ⟨i, hi, -, hvalue⟩⟩ := value_spelling_cases hzero
    · rw [hvalue, ← units_mul_ten_pow, ← hc]
    · have hd : d.units = (⟨t, d.exponent + j⟩ : Decimal).units := by
        rw [← units_mul_ten_pow, ← hc]
      rw [hvalue, hd, units_mul_ten_pow, hi]
      congr 2
      push_cast
      ring

theorem coefficient_spelling_ne_zero (hd : d.coefficient ≠ 0) :
    d.spelling.value.coefficient ≠ 0 := by
  obtain ⟨t, j, hc, hdvd, hvalue⟩ := value_spelling_cases hd
  have ht : t ≠ 0 := by
    rintro rfl
    exact hdvd (dvd_zero 10)
  rcases hvalue with hvalue | ⟨i, -, -, hvalue⟩
  · rw [hvalue]
    exact ht
  · rw [hvalue]
    exact mul_ne_zero ht (by positivity)

/-- The text of a decimal of seventeen digits has at most seventeen digits. -/
theorem coefficient_spelling_le (hd : d.coefficient ≤ 10 ^ 17) :
    d.spelling.value.coefficient ≤ 10 ^ 17 := by
  by_cases hzero : d.coefficient = 0
  · rw [value_spelling_of_eq_zero hzero]
    exact Nat.zero_le _
  · obtain ⟨t, j, hc, -, hvalue | ⟨i, -, hlt, hvalue⟩⟩ := value_spelling_cases hzero
    · rw [hvalue]
      have hle : t ≤ t * 10 ^ j := Nat.le_mul_of_pos_right _ (by positivity)
      change t ≤ 10 ^ 17
      omega
    · rw [hvalue]
      change t * 10 ^ (i + 1) ≤ 10 ^ 17
      rw [pow_succ, ← mul_assoc]
      omega

/-- What is written of a decimal of up to fifteen digits: significand and power of ten have at
    most 53 bits. -/
theorem spelling_of_few_digits {c k : ℕ} (hd : d.coefficient ≠ 0) (hc : c < 10 ^ 15) (hk : k ≤ 22)
    (hunits : d.units = (⟨c, -k⟩ : Decimal).units) :
    ∃ a b : ℕ, d.spelling.value.coefficient = a * 2 ^ b ∧ a < 2 ^ 53 ∧
      -22 ≤ d.spelling.value.exponent ∧ d.spelling.value.exponent ≤ 22 := by
  obtain ⟨t, j, hcoefficient, hdvd, hvalue⟩ := value_spelling_cases hd
  have ht : t ≠ 0 := by
    rintro rfl
    exact hdvd (dvd_zero 10)
  have hsame : (⟨t, d.exponent + j⟩ : Decimal).units = (⟨c, -k⟩ : Decimal).units := by
    rw [← units_mul_ten_pow, ← hcoefficient, hunits]
  -- The grid of `c` is at least as fine as that of `t`, for `t` is no multiple of ten.
  have hfine : -(k : ℤ) ≤ d.exponent + j := by
    by_contra hlt
    obtain ⟨i, hi⟩ : ∃ i : ℕ, -(k : ℤ) = d.exponent + j + (i + 1 : ℕ) :=
      ⟨(-(k : ℤ) - (d.exponent + j) - 1).toNat, by omega⟩
    rw [hi, ← units_mul_ten_pow c] at hsame
    have heq := units_left_injective hsame
    apply hdvd
    rw [heq, pow_succ]
    exact Dvd.intro_left _ (mul_assoc _ _ _)
  obtain ⟨i, hi⟩ : ∃ i : ℕ, d.exponent + j = -k + i := ⟨(d.exponent + j + k).toNat, by omega⟩
  rw [hi, ← units_mul_ten_pow t] at hsame
  have heq : t * 10 ^ i = c := units_left_injective hsame
  have hle : t ≤ c := heq ▸ Nat.le_mul_of_pos_right _ (by positivity)
  have hi15 : i < 15 := by
    have hpow : 10 ^ i ≤ c := heq ▸ Nat.le_mul_of_pos_left _ (Nat.pos_of_ne_zero ht)
    exact (Nat.pow_lt_pow_iff_right (by decide)).mp (hpow.trans_lt hc)
  rcases hvalue with hvalue | ⟨l, hl, -, hvalue⟩
  · rw [hvalue]
    exact ⟨t, 0, by rw [pow_zero, mul_one], by omega, by change -22 ≤ d.exponent + j; omega,
      by change d.exponent + j ≤ 22; omega⟩
  · rw [hvalue]
    refine ⟨5 * (t * 10 ^ l), 1, ?_, ?_, by norm_num, by norm_num⟩
    · rw [pow_succ]
      ring
    · have hpow : t * 10 ^ l ≤ t * 10 ^ i :=
        Nat.mul_le_mul_left _ (Nat.pow_le_pow_right (by decide) (by omega))
      omega

theorem eq_leading_of_mem_exponent {e : ℤ} (h : d.spelling.exponent = some e) : e = d.leading := by
  simp only [spelling, positionalSpelling, scientificSpelling] at h
  split_ifs at h
  exact (Option.some.inj h).symm

end Stocklist.Decimal
