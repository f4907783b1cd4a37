/-
  Stocklist/Proofs/Text/Quoted.lean
  =================================
  **A quoted text stays on its line and can be taken apart again.**

  Whatever a text holds, its quoted form has only characters that can stand within a line
  (`isInline_quoted`): what is hidden is escaped, escapes are plain ASCII, and all control
  characters and separators of lines and paragraphs are hidden.

  The forms of the characters are of several kinds, but `readChar` tells them apart by what
  they begin with, and it finds the character again whatever comes after it
  (`readChar_append`).  No form begins with a quote, so the end of a quoted text is known, and
  what is quoted is determined by any text that begins with it (`quoted_append_inj`).
-/
import Mathlib.Tactic
import Stocklist.Text.Quoted

namespace Stocklist.Text

/-! ### Characters within a line -/

/-- A character that can stand within a line: neither a control character nor one that
    separates lines or paragraphs. -/
structure IsInline (c : Char) : Prop where
  not_low : 0x20 ≤ c.toNat
  not_high : c.toNat < 0x7F ∨ 0x9F < c.toNat
  not_separator : c ≠ '\u2028' ∧ c ≠ '\u2029'

instance (c : Char) : Decidable (IsInline c) :=
  decidable_of_iff (0x20 ≤ c.toNat ∧ (c.toNat < 0x7F ∨ 0x9F < c.toNat) ∧
      c ≠ '\u2028' ∧ c ≠ '\u2029')
    ⟨fun h => ⟨h.1, h.2.1, h.2.2⟩, fun h => ⟨h.not_low, h.not_high, h.not_separator⟩⟩

theorem isInline_of_all {cs : List Char} (h : cs.all fun c => decide (IsInline c)) :
    ∀ c ∈ cs, IsInline c := by
  intro c hc
  exact of_decide_eq_true (List.all_eq_true.mp h c hc)

theorem isInline_of_not_isHidden {c : Char} (h : ¬ isHidden c) : IsInline c := by
  have hcontrol : ¬ isControl c := fun hc => h (by simp [isHidden, hc])
  simp only [isControl, Bool.or_eq_true, Bool.and_eq_true, decide_eq_true_eq] at hcontrol
  refine ⟨by omega, by omega, ?_, ?_⟩
  · rintro rfl
    exact h (by decide +kernel)
  · rintro rfl
    exact h (by decide +kernel)

example : ¬ isHidden 'é' ∧ ¬ isHidden ' ' := by decide +kernel

theorem isInline_digitChar : ∀ n < 16, IsInline (Nat.digitChar n) := by
  decide

/-! ### Hexadecimal digits -/

theorem hexDigits_of_lt {n : ℕ} (h : n < 16) : hexDigits n = [Nat.digitChar n] :=
  Nat.toDigits_of_lt_base h

theorem hexDigits_of_le {n : ℕ} (h : 16 ≤ n) :
    hexDigits n = hexDigits (n / 16) ++ [Nat.digitChar (n % 16)] :=
  Nat.toDigits_of_base_le (by decide) h

theorem isInline_of_mem_hexDigits (n : ℕ) : ∀ c ∈ hexDigits n, IsInline c := by
  induction n using Nat.strong_induction_on with
  | _ n ih =>
    by_cases hn : n < 16
    · rw [hexDigits_of_lt hn]
      exact List.forall_mem_singleton.mpr (isInline_digitChar n hn)
    · rw [hexDigits_of_le (not_lt.mp hn)]
      intro c hc
      rcases List.mem_append.mp hc with hc | hc
      · exact ih (n / 16) (by omega) c hc
      · obtain rfl := List.mem_singleton.mp hc
        exact isInline_digitChar _ (Nat.mod_lt n (by decide))

/-- Reads the digits of a code point onto `n`, up to a closing brace, and gives the character
    with what follows it. -/
def readCode (n : ℕ) : List Char → Option (Char × List Char)
  | [] => none
  | c :: cs =>
    match hexValue? c with
    | some d => readCode (16 * n + d) cs
    | none => if c = '\x7d' then some (Char.ofNat n, cs) else none

theorem readCode_digitChar (n : ℕ) {d : ℕ} (hd : d < 16) (cs : List Char) :
    readCode n (Nat.digitChar d :: cs) = readCode (16 * n + d) cs := by
  rw [readCode, hexValue?_digitChar d hd]

theorem readCode_hexDigits (n : ℕ) (cs : List Char) :
    readCode 0 (hexDigits n ++ cs) = readCode n cs := by
  induction n using Nat.strong_induction_on generalizing cs with
  | _ n ih =>
    by_cases hn : n < 16
    · rw [hexDigits_of_lt hn, List.singleton_append, readCode_digitChar 0 hn, Nat.mul_zero,
        Nat.zero_add]
    · rw [hexDigits_of_le (not_lt.mp hn), List.append_assoc, ih (n / 16) (by omega),
        List.singleton_append, readCode_digitChar _ (Nat.mod_lt n (by decide)),
        Nat.div_add_mod]

/-! ### Quoted characters -/

/-- The character that an escape stands for, read after its backslash. -/
def readAfterBackslash : List Char → Option (Char × List Char)
  | '0' :: cs => some ('\x00', cs)
  | 't' :: cs => some ('\t', cs)
  | 'r' :: cs => some ('\r', cs)
  | 'n' :: cs => some ('\n', cs)
  | 'u' :: _ :: cs => readCode 0 cs
  | c :: cs => some (c, cs)
  | [] => none

/-- The character whose quoted form a text begins with, and what follows it. -/
def readChar : List Char → Option (Char × List Char)
  | '"' :: _ => none
  | '\\' :: cs => readAfterBackslash cs
  | c :: cs => some (c, cs)
  | [] => none

theorem readChar_codeEscape (c : Char) (rest : List Char) :
    readChar (codeEscape c ++ rest) = some (c, rest) := by
  have hclose : readCode c.toNat ('\x7d' :: rest) = some (Char.ofNat c.toNat, rest) := rfl
  rw [codeEscape, List.append_assoc, List.append_assoc]
  change readCode 0 (hexDigits c.toNat ++ '\x7d' :: rest) = some (c, rest)
  rw [readCode_hexDigits, hclose, Char.ofNat_toNat]

theorem readChar_of_ne {c : Char} (hquote : c ≠ '"') (hslash : c ≠ '\\') (rest : List Char) :
    readChar (c :: rest) = some (c, rest) := by
  unfold readChar
  split
  · next heq => exact absurd (List.cons.inj heq).1 hquote
  · next heq => exact absurd (List.cons.inj heq).1 hslash
  · next heq =>
    cases heq
    rfl
  · next heq => cases heq

/-- **A quoted character is found again,** whatever comes after it. -/
theorem readChar_append (c : Char) (rest : List Char) :
    readChar (quoteChar c ++ rest) = some (c, rest) := by
  unfold quoteChar
  split_ifs with hnull htab hreturn hfeed hquote hslash hhidden
  · rw [hnull]
    rfl
  · rw [htab]
    rfl
  · rw [hreturn]
    rfl
  · rw [hfeed]
    rfl
  · rw [hquote]
    rfl
  · rw [hslash]
    rfl
  · exact readChar_codeEscape c rest
  · exact readChar_of_ne hquote hslash rest

theorem isInline_codeEscape (c : Char) : ∀ d ∈ codeEscape c, IsInline d := by
  have hopen : ∀ d ∈ ['\\', 'u', '\x7b'], IsInline d := isInline_of_all (by decide)
  have hclose : ∀ d ∈ ['\x7d'], IsInline d := isInline_of_all (by decide)
  intro d hd
  rcases List.mem_append.mp hd with hd | hd
  · rcases List.mem_append.mp hd with hd | hd
    · exact hopen d hd
    · exact isInline_of_mem_hexDigits c.toNat d hd
  · exact hclose d hd

theorem isInline_quoteChar (c : Char) : ∀ d ∈ quoteChar c, IsInline d := by
  unfold quoteChar
  split_ifs with hnull htab hreturn hfeed hquote hslash hhidden
  · exact isInline_of_all (by decide)
  · exact isInline_of_all (by decide)
  · exact isInline_of_all (by decide)
  · exact isInline_of_all (by decide)
  · exact isInline_of_all (by decide)
  · exact isInline_of_all (by decide)
  · exact isInline_codeEscape c
  · exact List.forall_mem_singleton.mpr (isInline_of_not_isHidden hhidden)

/-! ### Quoted texts -/

theorem isInline_quoted (s : String) : ∀ c ∈ (quoted s).toList, IsInline c := by
  have hquote : IsInline '"' := by decide
  intro c hc
  rw [quoted, String.toList_ofList] at hc
  rcases List.mem_append.mp hc with hc | hc
  · rcases List.mem_cons.mp hc with rfl | hc
    · exact hquote
    · obtain ⟨d, -, hc⟩ := List.mem_flatMap.mp hc
      exact isInline_quoteChar d c hc
  · obtain rfl := List.mem_singleton.mp hc
    exact hquote

theorem flatMap_quoteChar_inj {cs ds rest rest' : List Char}
    (h : cs.flatMap quoteChar ++ '"' :: rest = ds.flatMap quoteChar ++ '"' :: rest') :
    cs = ds ∧ rest = rest' := by
  induction cs generalizing ds with
  | nil =>
    cases ds with
    | nil => exact ⟨rfl, (List.cons.inj h).2⟩
    | cons d ds =>
      -- No character is found at the closing quote.
      have hread := congrArg readChar h
      rw [List.flatMap_cons, List.append_assoc, readChar_append] at hread
      cases hread
  | cons c cs ih =>
    have hread := congrArg readChar h
    rw [List.flatMap_cons, List.append_assoc, readChar_append] at hread
    cases ds with
    | nil => cases hread
    | cons d ds =>
      rw [List.flatMap_cons, List.append_assoc, readChar_append] at hread
      obtain ⟨rfl, hmore⟩ := Prod.mk.inj (Option.some.inj hread)
      obtain ⟨rfl, hrest⟩ := ih hmore
      exact ⟨rfl, hrest⟩

/-- **What is quoted is determined by any text that begins with it.** -/
theorem quoted_append_inj {s t : String} {rest rest' : List Char}
    (h : (quoted s).toList ++ rest = (quoted t).toList ++ rest') : s = t ∧ rest = rest' := by
  simp only [quoted, String.toList_ofList, List.cons_append, List.append_assoc,
    List.nil_append, List.cons.injEq, true_and] at h
  obtain ⟨hs, hrest⟩ := flatMap_quoteChar_inj h
  exact ⟨String.toList_inj.mp hs, hrest⟩

theorem quoted_injective : Function.Injective quoted := by
  intro s t h
  have happend : (quoted s).toList ++ [] = (quoted t).toList ++ [] := by rw [h]
  exact (quoted_append_inj happend).1

end Stocklist.Text
