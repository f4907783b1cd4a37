/-
  Stocklist/Proofs/Json/Token.lean
  ================================
  **Strings and numbers are read by their grammar, and by nothing else.**

  Every spelling of a string or of a number is read up to its own end, with the value that the
  grammar gives it (`exists_readText`, `exists_readNumber`), and whatever is read to an end is
  such a spelling (`written_of_readText`, `written_of_readNumber`).  A reader that only passes
  over a string takes the same texts, as it needs the pieces and not the characters.
-/
import Mathlib.Tactic
import Stocklist.Proofs.Json.Grammar
import Stocklist.Proofs.Json.Value
import Stocklist.Proofs.Result

namespace Stocklist.Json

open Numeral (digit? takeDigits)
open Text (hexValue?)
open Utf8 (byteLength)

/-! ### Faults made alike -/

/-- One fault in place of all. -/
def Fault.any : Fault :=
  ⟨.endInValue, 0⟩

/-- A result without the cause and the place of its fault. -/
def plainly {α : Type} (r : Except Fault α) : Except Fault α :=
  r.mapError fun _ => .any

/-! ### Units in hexadecimal digits -/

theorem length_le_byteLength (cs : List Char) : cs.length ≤ byteLength cs := by
  induction cs with
  | nil => exact Nat.le_refl 0
  | cons c cs ih =>
    have hone := c.utf8Size_pos
    rw [byteLength] at ih ⊢
    rw [List.foldr_cons, List.length_cons]
    omega

theorem hexUnit_written {n : Nat} {ds : List Char} (h : UnitWritten n ds) (rest : List Char) :
    hexUnit (ds ++ rest) = .ok (n, rest) := by
  cases h with
  | @intro a b c d _ _ _ _ ha hb hc hd =>
    have hbytes : ¬ byteLength ((a :: b :: c :: d :: rest).take 4) < 4 :=
      not_lt.mpr (length_le_byteLength [a, b, c, d])
    rw [List.cons_append, List.cons_append, List.cons_append, List.singleton_append, hexUnit,
      if_neg hbytes]
    simp only [ha, hb, hc, hd]

theorem written_of_hexUnit {cs rest : List Char} {n : Nat} (h : hexUnit cs = .ok (n, rest)) :
    ∃ ds, UnitWritten n ds ∧ cs = ds ++ rest := by
  unfold hexUnit at h
  split_ifs at h
  split at h
  · split at h
    · next ha hb hc hd =>
      cases h
      exact ⟨_, .intro ha hb hc hd, rfl⟩
    · cases h
  · cases h

/-! ### Escapes -/

section Escapes

variable {c e : Char} {n : Nat} {ds : List Char}

theorem readEscape_short (h : shortEscape? c = some e) (cs : List Char) :
    readEscape (c :: cs) = .ok (e, cs) := by
  have hu : c ≠ 'u' := by
    rintro rfl
    cases h
  rw [readEscape]
  · simp only [h]
  · exact hu

theorem skipEscape_short (h : shortEscape? c = some e) (cs : List Char) :
    skipEscape (c :: cs) = .ok cs := by
  have hu : c ≠ 'u' := by
    rintro rfl
    cases h
  rw [skipEscape]
  · simp [h]
  · exact hu

/-- What is read of a unit depends on whether it is a half of a pair. -/
theorem readEscape_unit (h : UnitWritten n ds) (rest : List Char) :
    readEscape ('u' :: (ds ++ rest)) =
      if isTrailing n then .error (.before .loneSurrogate rest)
      else if isLeading n then trailingUnit n rest
      else .ok (Char.ofNat n, rest) := by
  rw [readEscape, hexUnit_written h]
  rfl

theorem skipEscape_unit (h : UnitWritten n ds) (rest : List Char) :
    skipEscape ('u' :: (ds ++ rest)) = .ok rest := by
  rw [skipEscape, hexUnit_written h]
  rfl

theorem trailingUnit_unit (h : UnitWritten n ds) (first : Nat) (rest : List Char) :
    trailingUnit first ('\\' :: 'u' :: (ds ++ rest)) =
      if isTrailing n then
        .ok (Char.ofNat (0x10000 + (first - 0xD800) * 0x400 + (n - 0xDC00)), rest)
      else .error (.before .loneSurrogate rest) := by
  rw [trailingUnit, hexUnit_written h]
  rfl

/-- The first half of a pair must be followed by the second. -/
theorem exists_trailingUnit_error {ps : List Piece} {cs : List Char} (h : Pieces ps cs)
    (hps : ∀ m qs, ps = .unit m :: qs → isTrailing m = false) (first : Nat) (rest : List Char) :
    ∃ f, trailingUnit first (cs ++ '"' :: rest) = .error f := by
  cases h with
  | nil => exact ⟨_, rfl⟩
  | plain _ hbackslash _ _ =>
    rw [List.cons_append, trailingUnit]
    · exact ⟨_, rfl⟩
    · exact List.cons_ne_nil _ _
    · intro tail htail
      exact hbackslash (List.cons.inj htail).1
  | @short c e _ _ he _ =>
    have hu : c ≠ 'u' := by
      rintro rfl
      cases he
    rw [List.cons_append, List.cons_append, trailingUnit]
    · exact ⟨_, rfl⟩
    · exact List.cons_ne_nil _ _
    · intro tail htail
      exact hu (List.cons.inj htail).1
  | unit hm _ =>
    have htrailing := hps _ _ rfl
    rw [List.cons_append, List.cons_append, List.append_assoc, trailingUnit_unit hm, htrailing]
    exact ⟨_, rfl⟩

/-- What an escape that is passed over has been. -/
theorem of_skipEscape {cs rest : List Char} (h : skipEscape cs = .ok rest) :
    (∃ c e, shortEscape? c = some e ∧ cs = c :: rest) ∨
      ∃ n ds, UnitWritten n ds ∧ cs = 'u' :: (ds ++ rest) := by
  unfold skipEscape at h
  split at h
  · cases h
  · next cs =>
    right
    cases hunit : hexUnit cs with
    | error f =>
      rw [hunit] at h
      cases h
    | ok r =>
      obtain ⟨n, tail⟩ := r
      rw [hunit] at h
      cases h
      obtain ⟨ds, hn, rfl⟩ := written_of_hexUnit hunit
      exact ⟨n, ds, hn, rfl⟩
  · next c cs _ =>
    left
    split_ifs at h with hsome
    cases h
    obtain ⟨e, he⟩ := Option.isSome_iff_exists.mp hsome
    exact ⟨c, e, he, rfl⟩

theorem of_trailingUnit {first : Nat} {cs rest : List Char}
    (h : trailingUnit first cs = .ok (e, rest)) :
    ∃ n ds, UnitWritten n ds ∧ cs = '\\' :: 'u' :: (ds ++ rest) := by
  unfold trailingUnit at h
  split at h
  · cases h
  · split at h
    · cases h
    · next cs =>
      cases hunit : hexUnit cs with
      | error f =>
        rw [hunit] at h
        cases h
      | ok r =>
        obtain ⟨n, tail⟩ := r
        obtain ⟨ds, hn, rfl⟩ := written_of_hexUnit hunit
        simp only [hunit, bind, Except.bind] at h
        split_ifs at h
        obtain ⟨-, rfl⟩ := Prod.mk.inj (Except.ok.inj h)
        exact ⟨n, ds, hn, rfl⟩
    · cases h
  · cases h

/-- What an escape that is read has been: a pair is two of them. -/
theorem of_readEscape {cs rest : List Char} (h : readEscape cs = .ok (e, rest)) :
    (∃ c, shortEscape? c = some e ∧ cs = c :: rest) ∨
      (∃ n ds, UnitWritten n ds ∧ cs = 'u' :: (ds ++ rest)) ∨
      ∃ n m ds es, UnitWritten n ds ∧ UnitWritten m es ∧
        cs = 'u' :: (ds ++ '\\' :: 'u' :: (es ++ rest)) := by
  unfold readEscape at h
  split at h
  · cases h
  · next cs =>
    right
    cases hunit : hexUnit cs with
    | error f =>
      rw [hunit] at h
      cases h
    | ok r =>
      obtain ⟨n, tail⟩ := r
      obtain ⟨ds, hn, rfl⟩ := written_of_hexUnit hunit
      simp only [hunit, bind, Except.bind] at h
      split_ifs at h
      · obtain ⟨m, es, hm, rfl⟩ := of_trailingUnit h
        exact Or.inr ⟨n, m, ds, es, hn, hm, rfl⟩
      · cases h
        exact Or.inl ⟨n, ds, hn, rfl⟩
  · next c cs _ =>
    left
    split at h
    · next he =>
      cases h
      exact ⟨c, he, rfl⟩
    · cases h

end Escapes

/-! ### Strings -/

/-- Whoever passes over a string takes its pieces one by one. -/
theorem skipString_pieces {ps : List Piece} {cs : List Char} (h : Pieces ps cs) (rest : List Char)
    {fuel : Nat} (hfuel : cs.length < fuel) : skipString fuel (cs ++ '"' :: rest) = .ok rest := by
  induction h generalizing fuel with
    obtain ⟨fuel, rfl⟩ := Nat.exists_eq_succ_of_ne_zero (Nat.ne_zero_of_lt hfuel)
  | nil => rfl
  | plain hquote hbackslash hcontrol _ ih =>
    rw [List.cons_append, skipString, if_neg hquote, if_neg hbackslash, if_neg hcontrol.not_gt]
    exact ih (Nat.succ_lt_succ_iff.mp hfuel)
  | short he _ ih =>
    rw [List.length_cons, List.length_cons] at hfuel
    rw [List.cons_append, List.cons_append, skipString, if_neg (by decide), if_pos rfl,
      skipEscape_short he]
    exact ih (by omega)
  | unit hn _ ih =>
    rw [List.length_cons, List.length_cons, List.length_append] at hfuel
    rw [List.cons_append, List.cons_append, List.append_assoc, skipString, if_neg (by decide),
      if_pos rfl, skipEscape_unit hn]
    exact ih (by omega)

theorem readString_plain {c : Char} (hquote : c ≠ '"') (hbackslash : c ≠ '\\')
    (hcontrol : 0x20 ≤ c.toNat) (fuel : Nat) (cs : List Char) :
    readString (fuel + 1) (c :: cs) =
      (readString fuel cs).map fun (text, rest) => (c :: text, rest) := by
  rw [readString, if_neg hquote, if_neg hbackslash, if_neg hcontrol.not_gt]
  simp only [bind, Except.bind]
  cases readString fuel cs <;> rfl

/-- An escape that is refused leaves no string. -/
theorem readString_error {cs : List Char} {f : Fault} (h : readEscape cs = .error f)
    (fuel : Nat) : readString (fuel + 1) ('\\' :: cs) = .error f := by
  rw [readString, if_neg (by decide), if_pos rfl, h]
  rfl

/-- What a step of the reader adds. -/
theorem toOption_readString_cons {c : Char} {cs tail rest : List Char} {text : Option (List Char)}
    {fuel : Nat} (hstep : readString (fuel + 1) cs =
      (readString fuel tail).map fun (text, rest) => (c :: text, rest))
    (htail : (readString fuel tail).toOption = text.map (·, rest)) :
    (readString (fuel + 1) cs).toOption = (text.map (c :: ·)).map (·, rest) := by
  rw [hstep, toOption_map, htail, Option.map_map, Option.map_map]
  rfl

section Units

variable {n m : Nat} {ds es cs : List Char} (fuel : Nat) (tail : List Char)

/-- A unit that is no half of a pair is a character. -/
theorem readString_unit (hn : UnitWritten n ds) (htrailing : ¬ isTrailing n)
    (hleading : ¬ isLeading n) :
    readString (fuel + 1) ('\\' :: 'u' :: (ds ++ cs) ++ tail) =
      (readString fuel (cs ++ tail)).map fun (text, rest) => (Char.ofNat n :: text, rest) := by
  have hread := readEscape_unit hn (cs ++ tail)
  rw [if_neg htrailing, if_neg hleading] at hread
  rw [List.cons_append, List.cons_append, List.append_assoc, readString_backslash hread]

/-- The two halves of a pair are one character. -/
theorem readString_pair (hn : UnitWritten n ds) (htrailing : ¬ isTrailing n)
    (hleading : isLeading n) (hm : UnitWritten m es) (hsecond : isTrailing m) :
    readString (fuel + 1) ('\\' :: 'u' :: (ds ++ '\\' :: 'u' :: (es ++ cs)) ++ tail) =
      (readString fuel (cs ++ tail)).map fun (text, rest) =>
        (Char.ofNat (0x10000 + (n - 0xD800) * 0x400 + (m - 0xDC00)) :: text, rest) := by
  have hread := readEscape_unit hn ('\\' :: 'u' :: (es ++ (cs ++ tail)))
  rw [if_neg htrailing, if_pos hleading, trailingUnit_unit hm, if_pos hsecond] at hread
  simp only [List.cons_append, List.append_assoc]
  exact readString_backslash hread

/-- The second half of a pair without the first leaves no string. -/
theorem toOption_readString_second (hn : UnitWritten n ds) (htrailing : isTrailing n) :
    (readString (fuel + 1) ('\\' :: 'u' :: (ds ++ cs) ++ tail)).toOption = none := by
  have hread := readEscape_unit hn (cs ++ tail)
  rw [if_pos htrailing] at hread
  rw [List.cons_append, List.cons_append, List.append_assoc, readString_error hread]
  rfl

/-- The first half of a pair alone leaves no string. -/
theorem toOption_readString_first {ps : List Piece} (hn : UnitWritten n ds)
    (htrailing : ¬ isTrailing n) (hleading : isLeading n) (h : Pieces ps cs)
    (hps : ∀ m qs, ps = .unit m :: qs → isTrailing m = false) :
    (readString (fuel + 1) ('\\' :: 'u' :: (ds ++ cs) ++ '"' :: tail)).toOption = none := by
  obtain ⟨f, hf⟩ := exists_trailingUnit_error h hps n tail
  have hread := readEscape_unit hn (cs ++ '"' :: tail)
  rw [if_neg htrailing, if_pos hleading, hf] at hread
  rw [List.cons_append, List.cons_append, List.append_assoc, readString_error hread]
  rfl

end Units

/-- **A string is read as the characters of its pieces, or refused if they have none.** -/
theorem readString_pieces {ps : List Piece} {cs : List Char} (h : Pieces ps cs) (rest : List Char)
    {fuel : Nat} (hfuel : cs.length < fuel) :
    (readString fuel (cs ++ '"' :: rest)).toOption = (characters? ps).map (·, rest) := by
  -- By the recursion of `characters?`, which takes the two halves of a pair at once.
  fun_induction characters? ps generalizing cs fuel with
    obtain ⟨fuel, rfl⟩ := Nat.exists_eq_succ_of_ne_zero (Nat.ne_zero_of_lt hfuel)
  | case1 =>
    cases h
    rfl
  | case2 c ps ih =>
    cases h with
    | plain hquote hbackslash hcontrol htail =>
      exact toOption_readString_cons (readString_plain hquote hbackslash hcontrol _ _)
        (ih htail (Nat.succ_lt_succ_iff.mp hfuel))
    | short he htail =>
      rw [List.length_cons, List.length_cons] at hfuel
      exact toOption_readString_cons (readString_backslash (readEscape_short he _))
        (ih htail (by omega))
  | case3 n ps htrailing =>
    obtain _ | _ | _ | ⟨hn, -⟩ := h
    exact toOption_readString_second fuel _ hn htrailing
  | case4 n htrailing hleading m ps hm ih =>
    obtain _ | _ | _ | ⟨hn, _ | _ | _ | ⟨hm', htail⟩⟩ := h
    simp only [List.length_cons, List.length_append] at hfuel
    exact toOption_readString_cons (readString_pair fuel _ hn htrailing hleading hm' hm)
      (ih htail (by omega))
  | case5 n htrailing hleading m ps hm =>
    obtain _ | _ | _ | ⟨hn, htail⟩ := h
    apply toOption_readString_first fuel rest hn htrailing hleading htail
    rintro _ _ ⟨⟩
    exact Bool.eq_false_iff.mpr hm
  | case6 n ps htrailing hleading hps =>
    obtain _ | _ | _ | ⟨hn, htail⟩ := h
    apply toOption_readString_first fuel rest hn htrailing hleading htail
    intro m qs heq
    exact absurd heq (hps m qs)
  | case7 n ps htrailing hleading ih =>
    obtain _ | _ | _ | ⟨hn, htail⟩ := h
    simp only [List.length_cons, List.length_append] at hfuel
    exact toOption_readString_cons (readString_unit fuel _ hn htrailing hleading)
      (ih htail (by omega))

theorem pieces_of_skipString {fuel : Nat} {cs rest : List Char}
    (h : skipString fuel cs = .ok rest) : ∃ ps body, Pieces ps body ∧ cs = body ++ '"' :: rest := by
  induction fuel generalizing cs with
  | zero => cases h
  | succ fuel ih =>
    cases cs with
    | nil => cases h
    | cons c cs =>
      rw [skipString] at h
      split_ifs at h with hquote hbackslash hcontrol
      · cases h
        exact ⟨[], [], .nil, by rw [hquote, List.nil_append]⟩
      · cases hescape : skipEscape cs with
        | error f =>
          rw [hescape] at h
          cases h
        | ok tail =>
          rw [hescape] at h
          obtain ⟨ps, body, hps, rfl⟩ := ih h
          rcases of_skipEscape hescape with ⟨c', e, he, rfl⟩ | ⟨n, ds, hn, rfl⟩
          · exact ⟨_, _, .short he hps, by rw [hbackslash]; rfl⟩
          · exact ⟨_, _, .unit hn hps, by rw [hbackslash]; simp⟩
      · obtain ⟨ps, body, hps, rfl⟩ := ih h
        exact ⟨_, _, .plain hquote hbackslash (not_lt.mp hcontrol) hps, rfl⟩

/-- What a string that is read is made of.  Reading takes the two halves of a pair at once. -/
theorem pieces_of_readString {fuel : Nat} {cs rest s : List Char}
    (h : readString fuel cs = .ok (s, rest)) :
    ∃ ps body, Pieces ps body ∧ cs = body ++ '"' :: rest := by
  induction fuel generalizing cs s with
  | zero => cases h
  | succ fuel ih =>
    cases cs with
    | nil => cases h
    | cons c cs =>
      by_cases hquote : c = '"'
      · subst hquote
        cases h
        exact ⟨[], [], .nil, rfl⟩
      by_cases hbackslash : c = '\\'
      · subst hbackslash
        cases hescape : readEscape cs with
        | error f =>
          rw [readString_error hescape] at h
          cases h
        | ok r =>
          obtain ⟨e, tail⟩ := r
          rw [readString_backslash hescape, Numeral.map_eq_ok_iff] at h
          obtain ⟨⟨s, _⟩, htail, heq⟩ := h
          cases heq
          obtain ⟨ps, body, hps, rfl⟩ := ih htail
          rcases of_readEscape hescape with ⟨c, he, rfl⟩ | ⟨n, ds, hn, rfl⟩ |
            ⟨n, m, ds, es, hn, hm, rfl⟩
          · exact ⟨_, _, .short he hps, rfl⟩
          · exact ⟨_, _, .unit hn hps, by simp⟩
          · exact ⟨_, _, .unit hn (.unit hm hps), by simp⟩
      · have hcontrol : ¬ c.toNat < 0x20 := by
          intro hlt
          rw [readString, if_neg hquote, if_neg hbackslash, if_pos hlt] at h
          cases h
        rw [readString_plain hquote hbackslash (not_lt.mp hcontrol), Numeral.map_eq_ok_iff] at h
        obtain ⟨⟨s, _⟩, htail, heq⟩ := h
        cases heq
        obtain ⟨ps, body, hps, rfl⟩ := ih htail
        exact ⟨_, _, .plain hquote hbackslash (not_lt.mp hcontrol) hps, rfl⟩

/-- What is read of pieces in front of their closing quote. -/
theorem readText_pieces {ps : List Piece} {cs : List Char} (h : Pieces ps cs) (rest : List Char) :
    match characters? ps with
    | some s => readText (cs ++ '"' :: rest) = .ok (.ok (String.ofList s), rest)
    | none => ∃ f, readText (cs ++ '"' :: rest) = .ok (.error f, rest) := by
  have hfuel : cs.length < (cs ++ '"' :: rest).length := by
    rw [List.length_append, List.length_cons]
    omega
  have hread := readString_pieces h rest hfuel
  have hskip := skipString_pieces h rest hfuel
  cases hs : characters? ps with
  | some s =>
    rw [hs, Option.map_some, toOption_eq_some_iff] at hread
    simp only [readText, hread]
  | none =>
    rw [hs, Option.map_none, toOption_eq_none_iff] at hread
    obtain ⟨f, hread⟩ := hread
    exact ⟨f, by simp only [readText, hread, hskip]⟩

/-- **A string is read as the grammar has it.** -/
theorem exists_readText {r : Except Fault String} {key : List Char} (h : TextWritten r key)
    (rest : List Char) :
    ∃ r' tail, key = '"' :: tail ∧ readText (tail ++ rest) = .ok (r', rest) ∧
      plainly r' = plainly r := by
  cases h with
  | @text ps cs s hps hs =>
    have hread := readText_pieces hps rest
    rw [hs] at hread
    exact ⟨_, _, rfl, by rwa [List.append_assoc], rfl⟩
  | @halfPair ps cs f hps hs =>
    have hread := readText_pieces hps rest
    rw [hs] at hread
    obtain ⟨g, hread⟩ := hread
    exact ⟨.error g, _, rfl, by rwa [List.append_assoc], rfl⟩

/-- **What is read as a string is one by the grammar.** -/
theorem written_of_readText {cs rest : List Char} {r : Except Fault String}
    (h : readText cs = .ok (r, rest)) :
    ∃ tail, TextWritten r ('"' :: tail) ∧ cs = tail ++ rest := by
  have hpieces : ∃ ps body, Pieces ps body ∧ cs = body ++ '"' :: rest := by
    rw [readText] at h
    split at h
    · next hread =>
      cases h
      exact pieces_of_readString hread
    · split at h
      · next hskip =>
        cases h
        exact pieces_of_skipString hskip
      · cases h
  obtain ⟨ps, body, hps, rfl⟩ := hpieces
  have hread := readText_pieces hps rest
  cases hs : characters? ps with
  | some s =>
    rw [hs, h] at hread
    cases hread
    exact ⟨_, .text hps hs, by simp⟩
  | none =>
    rw [hs, h] at hread
    obtain ⟨f, hread⟩ := hread
    cases hread
    exact ⟨_, .halfPair hps hs, by simp⟩

/-! ### Digits -/

theorem isDigit_of_digit? {c : Char} {d : Nat} (h : digit? c = some d) :
    c.isDigit ∧ d = digitValue c := by
  rw [digit?] at h
  split_ifs at h with hrange
  exact ⟨Char.isDigit_iff_toNat.mpr hrange, (Option.some.inj h).symm⟩

theorem map_digit?_eq_iff {cs : List Char} {ds : List Nat} :
    cs.map digit? = ds.map some ↔ (∀ c ∈ cs, c.isDigit) ∧ ds = cs.map digitValue := by
  constructor
  · intro h
    induction cs generalizing ds with
    | nil => exact ⟨List.forall_mem_nil _, by simpa using h.symm⟩
    | cons c cs ih =>
      obtain ⟨d, ds, rfl, hc, hcs⟩ := Numeral.map_digit?_cons_eq_iff.mp h
      obtain ⟨hdigit, rfl⟩ := isDigit_of_digit? hc
      obtain ⟨hdigits, rfl⟩ := ih hcs
      exact ⟨List.forall_mem_cons.mpr ⟨hdigit, hdigits⟩, rfl⟩
  · rintro ⟨hdigits, rfl⟩
    rw [List.map_map]
    exact List.map_congr_left fun c hc => digit?_of_isDigit (hdigits c hc)

theorem eq_zero_of_digitValue {c : Char} (hc : c.isDigit) (hzero : digitValue c = 0) : c = '0' := by
  obtain ⟨hle, -⟩ := Char.isDigit_iff_toNat.mp hc
  rw [digitValue] at hzero
  exact Char.toNat_inj.mp (Nat.le_antisymm (Nat.sub_eq_zero_iff_le.mp hzero) hle)

theorem DigitsWritten.ne_nil {ds : List Nat} {cs : List Char} (h : DigitsWritten ds cs) :
    cs ≠ [] := by
  rintro rfl
  exact h.1 (by simpa using h.2.symm)

theorem someDigits_written {ds : List Nat} {cs rest : List Char} (h : DigitsWritten ds cs)
    (hrest : NoDigitAhead rest) : someDigits (cs ++ rest) = .ok (ds, rest) := by
  obtain ⟨hdigits, rfl⟩ := map_digit?_eq_iff.mp h.2
  exact someDigits_append h.ne_nil hdigits hrest

theorem of_takeDigits {cs rest : List Char} {ds : List Nat} (h : takeDigits cs = (ds, rest)) :
    ∃ ws, ws.map digit? = ds.map some ∧ cs = ws ++ rest := by
  induction cs generalizing ds with
  | nil =>
    cases h
    exact ⟨[], rfl, rfl⟩
  | cons c cs ih =>
    rw [takeDigits] at h
    split at h
    · next d hc =>
      cases h
      obtain ⟨ws, hws, hcs⟩ := ih rfl
      exact ⟨c :: ws, Numeral.map_digit?_cons_eq_iff.mpr ⟨d, _, rfl, hc, hws⟩, by
        rw [List.cons_append, ← hcs]⟩
    · cases h
      exact ⟨[], rfl, rfl⟩

theorem of_someDigits {ds : List Nat} {cs rest : List Char} (h : someDigits cs = .ok (ds, rest)) :
    ∃ ws, DigitsWritten ds ws ∧ cs = ws ++ rest := by
  unfold someDigits at h
  split at h
  · cases h
  · next hne htake =>
    cases h
    obtain ⟨ws, hws, rfl⟩ := of_takeDigits htake
    refine ⟨ws, ⟨?_, hws⟩, rfl⟩
    rintro rfl
    exact hne rfl

/-! ### The parts of a number -/

theorem wholeDigits_written {ds : List Nat} {cs rest : List Char} (h : DigitsWritten ds cs)
    (hwhole : ds = [0] ∨ ds.head? ≠ some 0) (hrest : NoDigitAhead rest) :
    wholeDigits (cs ++ rest) = .ok (ds, rest) := by
  obtain ⟨hdigits, rfl⟩ := map_digit?_eq_iff.mp h.2
  apply wholeDigits_append hdigits _ hrest
  obtain ⟨c, cs, rfl⟩ := List.exists_cons_of_ne_nil h.ne_nil
  have hc := hdigits c List.mem_cons_self
  rcases hwhole with hzero | hne
  · rw [List.map_cons, List.cons.injEq, List.map_eq_nil_iff] at hzero
    obtain ⟨hzero, rfl⟩ := hzero
    exact Or.inl (by rw [eq_zero_of_digitValue hc hzero])
  · refine Or.inr ⟨c, cs, rfl, ?_⟩
    rintro rfl
    exact hne rfl

theorem fractionDigits_written {ds : Option (List Nat)} {cs rest : List Char}
    (h : FractionWritten ds cs) (hdigit : NoDigitAhead rest) (hpoint : ∀ c ∈ rest.head?, c ≠ '.') :
    fractionDigits (cs ++ rest) = .ok (ds, rest) := by
  cases h with
  | none => exact fractionDigits_append (List.forall_mem_nil _) hdigit hpoint
  | some hds =>
    rw [List.cons_append, fractionDigits, someDigits_written hds hdigit]
    rfl

theorem exponentDigits_written {e : Option (Bool × List Nat)} {cs rest : List Char}
    (h : ExponentWritten e cs) (hrest : NoNumberAhead rest) :
    exponentDigits (cs ++ rest) = .ok (e, rest) := by
  cases h with
  | none => exact exponentDigits_append none hrest
  | @unsigned mark ds cs hmark hds =>
    have hread := someDigits_written hds hrest.noDigitAhead
    obtain ⟨hdigits, -⟩ := map_digit?_eq_iff.mp hds.2
    obtain ⟨c, cs, rfl⟩ := List.exists_cons_of_ne_nil hds.ne_nil
    have hc := hdigits c List.mem_cons_self
    rw [List.cons_append, exponentDigits, if_pos hmark]
    · rw [hread]
      rfl
    · intro tail htail
      exact ne_of_isDigit hc rfl (List.cons.inj htail).1
    · intro tail htail
      exact ne_of_isDigit hc rfl (List.cons.inj htail).1
  | plus hmark hds =>
    rw [List.cons_append, List.cons_append, exponentDigits, if_pos hmark]
    simp only [someDigits_written hds hrest.noDigitAhead]
    rfl
  | minus hmark hds =>
    rw [List.cons_append, List.cons_append, exponentDigits, if_pos hmark]
    simp only [someDigits_written hds hrest.noDigitAhead]
    rfl

/-- What goes on neither with a point nor with an exponent. -/
theorem head?_exponent_append {e : Option (Bool × List Nat)} {cs rest : List Char}
    (h : ExponentWritten e cs) (hrest : NoNumberAhead rest) :
    ∀ c ∈ (cs ++ rest).head?, digit? c = none ∧ c ≠ '.' := by
  have hmark : ∀ mark : Char, mark = 'e' ∨ mark = 'E' → digit? mark = none ∧ mark ≠ '.' := by
    rintro mark (rfl | rfl) <;> exact ⟨rfl, by decide⟩
  intro c hc
  cases h with
  | none =>
    obtain ⟨hdigit, hpoint, -⟩ := hrest c hc
    exact ⟨hdigit, hpoint⟩
  | unsigned h _ => exact hmark c (by cases hc; exact h)
  | plus h _ => exact hmark c (by cases hc; exact h)
  | minus h _ => exact hmark c (by cases hc; exact h)

theorem noDigitAhead_fraction_append {ds : Option (List Nat)} {cs rest : List Char}
    (h : FractionWritten ds cs) (hrest : NoDigitAhead rest) : NoDigitAhead (cs ++ rest) := by
  cases h with
  | none => exact hrest
  | some _ => exact noDigitAhead_cons rfl _

/-- **The parts of a number are read as the grammar has them.** -/
theorem numberText_written {t : NumberText} {cs rest : List Char} (h : t.Written cs)
    (hrest : NoNumberAhead rest) : numberText t.negative (cs ++ rest) = .ok (t, rest) := by
  cases h with
  | @intro negative whole fraction exponent ws fs es hwhole hzero hfraction hexponent =>
    have hhead := head?_exponent_append hexponent hrest
    have hdigit : NoDigitAhead (es ++ rest) := fun c hc => (hhead c hc).1
    have hws := wholeDigits_written hwhole hzero (noDigitAhead_fraction_append hfraction hdigit)
    have hfs := fractionDigits_written hfraction hdigit fun c hc => (hhead c hc).2
    rw [List.append_assoc, List.append_assoc, numberText, hws]
    simp only [bind, Except.bind, hfs, exponentDigits_written hexponent hrest]
    rfl

theorem of_wholeDigits {ds : List Nat} {cs rest : List Char} (h : wholeDigits cs = .ok (ds, rest)) :
    ∃ ws, DigitsWritten ds ws ∧ (ds = [0] ∨ ds.head? ≠ some 0) ∧ cs = ws ++ rest := by
  unfold wholeDigits at h
  split at h
  · split at h
    · cases h
      exact ⟨['0'], ⟨List.cons_ne_nil _ _, rfl⟩, Or.inl rfl, rfl⟩
    · cases h
  · next hne =>
    obtain ⟨ws, hws, rfl⟩ := of_someDigits h
    refine ⟨ws, hws, Or.inr ?_, rfl⟩
    obtain ⟨hdigits, rfl⟩ := map_digit?_eq_iff.mp hws.2
    obtain ⟨c, ws, rfl⟩ := List.exists_cons_of_ne_nil hws.ne_nil
    intro hzero
    have hc := eq_zero_of_digitValue (hdigits c List.mem_cons_self) (Option.some.inj hzero)
    exact hne _ (by rw [hc]; rfl)

theorem of_fractionDigits {ds : Option (List Nat)} {cs rest : List Char}
    (h : fractionDigits cs = .ok (ds, rest)) : ∃ fs, FractionWritten ds fs ∧ cs = fs ++ rest := by
  unfold fractionDigits at h
  split at h
  · obtain ⟨⟨ds, _⟩, hds, heq⟩ := Numeral.map_eq_ok_iff.mp h
    cases heq
    obtain ⟨ws, hws, rfl⟩ := of_someDigits hds
    exact ⟨_, .some hws, rfl⟩
  · cases h
    exact ⟨[], .none, rfl⟩

theorem of_exponentDigits {e : Option (Bool × List Nat)} {cs rest : List Char}
    (h : exponentDigits cs = .ok (e, rest)) : ∃ es, ExponentWritten e es ∧ cs = es ++ rest := by
  unfold exponentDigits at h
  split at h
  · cases h
    exact ⟨[], .none, rfl⟩
  · split_ifs at h with hmark
    · split at h
      all_goals
        obtain ⟨⟨ds, _⟩, hds, heq⟩ := Numeral.map_eq_ok_iff.mp h
        cases heq
        obtain ⟨ws, hws, rfl⟩ := of_someDigits hds
      · exact ⟨_, .minus hmark hws, rfl⟩
      · exact ⟨_, .plus hmark hws, rfl⟩
      · exact ⟨_, .unsigned hmark hws, rfl⟩
    · cases h
      exact ⟨[], .none, rfl⟩

/-- **What is read as the parts of a number is one by the grammar.** -/
theorem written_of_numberText {negative : Bool} {t : NumberText} {cs rest : List Char}
    (h : numberText negative cs = .ok (t, rest)) :
    t.negative = negative ∧ ∃ ws, t.Written ws ∧ cs = ws ++ rest := by
  obtain ⟨⟨whole, _⟩, hwhole, h⟩ := bind_eq_ok_iff.mp h
  obtain ⟨⟨fraction, _⟩, hfraction, h⟩ := bind_eq_ok_iff.mp h
  obtain ⟨⟨exponent, _⟩, hexponent, h⟩ := bind_eq_ok_iff.mp h
  cases h
  obtain ⟨ws, hws, hzero, rfl⟩ := of_wholeDigits hwhole
  obtain ⟨fs, hfs, rfl⟩ := of_fractionDigits hfraction
  obtain ⟨es, hes, rfl⟩ := of_exponentDigits hexponent
  exact ⟨rfl, _, .intro hws hzero hfs hes, by simp⟩

/-! ### The value of a number -/

theorem plainly_map {α β : Type} (f : α → β) {x y : Except Fault α} (h : plainly x = plainly y) :
    plainly (x.map f) = plainly (y.map f) := by
  cases x <;> cases y <;> cases h <;> rfl

theorem plainly_inRange (negative : Bool) (m : Option Magnitude) (ahead more : List Char) :
    plainly (inRange negative ahead m) = plainly (inRange negative more m) := by
  cases m <;> rfl

theorem plainly_float (t : NumberText) (ahead more : List Char) :
    plainly (t.float ahead) = plainly (t.float more) := by
  unfold NumberText.float
  dsimp only
  split
  · exact plainly_inRange _ _ _ _
  · split
    · exact plainly_inRange _ _ _ _
    · split_ifs
      · rfl
      · rfl

/-- What follows a number matters only to the place of its fault. -/
theorem plainly_value (t : NumberText) (ahead more : List Char) :
    plainly (t.value ahead) = plainly (t.value more) := by
  unfold NumberText.value
  dsimp only
  split_ifs
  · rfl
  · rfl
  · exact plainly_map Number.float (plainly_float t ahead more)

/-- A string as a value. -/
def Value.ofText : Except Fault String → Value
  | .ok s => .string s
  | .error f => .unreadable f

/-- A number as a value. -/
def Value.ofNumber : Except Fault Number → Value
  | .ok n => .number n
  | .error f => .unreadable f

theorem plainly_eq_ok_iff {α : Type} {x : Except Fault α} {a : α} :
    plainly x = .ok a ↔ x = .ok a := by
  cases x with
  | ok b => rfl
  | error f => simp [plainly, Except.mapError]

theorem plainly_eq_error_iff {α : Type} {x : Except Fault α} {f : Fault} :
    plainly x = plainly (.error f) ↔ ∃ g, x = .error g := by
  cases x with
  | ok b => simp [plainly, Except.mapError]
  | error g => simp [plainly, Except.mapError]

theorem NumberText.Written.numberWritten {t : NumberText} {cs : List Char} (h : t.Written cs)
    (ahead : List Char) : NumberWritten (t.value ahead) (signText t.negative ++ cs) := by
  have hplain := plainly_value t ahead []
  cases hvalue : t.value ahead with
  | ok n =>
    rw [hvalue] at hplain
    exact .number h (plainly_eq_ok_iff.mp hplain.symm)
  | error f =>
    rw [hvalue] at hplain
    obtain ⟨g, hg⟩ := plainly_eq_error_iff.mp hplain.symm
    exact .tooLarge h hg

/-- **A number is read as the grammar has it**, in front of a text that does not go on with it. -/
theorem exists_readNumber {r : Except Fault Number} {key : List Char} (h : NumberWritten r key) :
    ∃ (t : NumberText) (cs : List Char), t.Written cs ∧ key = signText t.negative ++ cs ∧
      ∀ rest, NoNumberAhead rest → ∃ r', readNumber t.negative (cs ++ rest) =
        (.ofNumber r', some rest) ∧ plainly r' = plainly r := by
  have hread {t : NumberText} {cs : List Char} (ht : t.Written cs)
      (hvalue : plainly (t.value []) = plainly r) (rest : List Char) (hrest : NoNumberAhead rest) :
      ∃ r', readNumber t.negative (cs ++ rest) = (.ofNumber r', some rest) ∧
        plainly r' = plainly r := by
    refine ⟨t.value rest, ?_, (plainly_value t rest []).trans hvalue⟩
    simp only [readNumber, numberText_written ht hrest]
    cases t.value rest <;> rfl
  cases h with
  | number ht hvalue => exact ⟨_, _, ht, rfl, hread ht (by rw [hvalue])⟩
  | tooLarge ht hvalue => exact ⟨_, _, ht, rfl, hread ht (by rw [hvalue]; rfl)⟩

/-- **What is read whole as a number is one by the grammar.** -/
theorem written_of_readNumber {negative : Bool} {cs : List Char} {v : Value}
    {r : Option (List Char)} (h : readNumber negative cs = (v, r)) (hwhole : v.looseFault? = none) :
    ∃ ws rest, v.Written (signText negative ++ ws) ∧ cs = ws ++ rest ∧ r = some rest := by
  rw [readNumber] at h
  split at h
  · cases h
    cases hwhole
  · next t tail htext =>
    obtain ⟨rfl, ws, ht, rfl⟩ := written_of_numberText htext
    have hnumber := ht.numberWritten tail
    split at h
    · next n hvalue =>
      cases h
      rw [hvalue] at hnumber
      exact ⟨ws, tail, .number hnumber, rfl, rfl⟩
    · next f hvalue =>
      cases h
      rw [hvalue] at hnumber
      exact ⟨ws, tail, .tooLarge hnumber, rfl, rfl⟩

end Stocklist.Json
