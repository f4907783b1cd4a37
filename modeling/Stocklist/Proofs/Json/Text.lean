/-
  Stocklist/Proofs/Json/Text.lean
  ===============================
  **A quoted text is read back, whatever its characters.**

  Every escape that is written is read as the character it stands for
  (`readString_escapeChar`), so a string is read up to its own closing quote and no
  further (`readText_escape`).
-/
import Mathlib.Tactic
import Stocklist.Json.Value

namespace Stocklist.Json

open Text (hexValue?)
open Utf8 (byteLength)

theorem byteLength_hexDigits : ∀ x < 2, ∀ y < 16,
    byteLength ['0', '0', Nat.digitChar x, Nat.digitChar y] = 4 := by
  decide

theorem hexUnit_digitChar {x y : Nat} (hx : x < 2) (hy : y < 16) (rest : List Char) :
    hexUnit ('0' :: '0' :: Nat.digitChar x :: Nat.digitChar y :: rest) =
      .ok (x * 16 + y, rest) := by
  have hlength := byteLength_hexDigits x hx y hy
  have hzero : hexValue? '0' = some 0 := rfl
  have hhigh := Text.hexValue?_digitChar x (by omega)
  have hlow := Text.hexValue?_digitChar y hy
  simp [hexUnit, hlength, hzero, hhigh, hlow]

/-- A control character is read from its four digits. -/
theorem readEscape_control {c : Char} (hc : c.toNat < 0x20) (rest : List Char) :
    readEscape ('u' :: '0' :: '0' :: Nat.digitChar (c.toNat / 16) ::
      Nat.digitChar (c.toNat % 16) :: rest) = .ok (c, rest) := by
  have hvalue : c.toNat / 16 * 16 + c.toNat % 16 = c.toNat := by omega
  have htrailing : isTrailing c.toNat = false := by
    simp only [isTrailing, Bool.and_eq_false_iff, decide_eq_false_iff_not]
    omega
  have hleading : isLeading c.toNat = false := by
    simp only [isLeading, Bool.and_eq_false_iff, decide_eq_false_iff_not]
    omega
  rw [readEscape, hexUnit_digitChar (by omega) (by omega), hvalue]
  simp [bind, Except.bind, htrailing, hleading]
  rfl

/-- What a step of the reader does with an escape. -/
theorem readString_backslash {fuel : Nat} {cs rest : List Char} {c : Char}
    (h : readEscape cs = .ok (c, rest)) :
    readString (fuel + 1) ('\\' :: cs) =
      (readString fuel rest).map fun (text, rest) => (c :: text, rest) := by
  rw [readString, if_neg (by decide), if_pos rfl, h]
  simp only [bind, Except.bind]
  cases readString fuel rest <;> rfl

/-- **A written character is read back.** -/
theorem readString_escapeChar (fuel : Nat) (c : Char) (rest : List Char) :
    readString (fuel + 1) (escapeChar c ++ rest) =
      (readString fuel rest).map fun (text, rest) => (c :: text, rest) := by
  rw [escapeChar]
  split_ifs with hquote hbackslash hb hf hn hr ht hcontrol
  · subst hquote
    exact readString_backslash rfl
  · subst hbackslash
    exact readString_backslash rfl
  · subst hb
    exact readString_backslash rfl
  · subst hf
    exact readString_backslash rfl
  · subst hn
    exact readString_backslash rfl
  · subst hr
    exact readString_backslash rfl
  · subst ht
    exact readString_backslash rfl
  · exact readString_backslash (readEscape_control hcontrol rest)
  · rw [List.singleton_append, readString, if_neg hquote, if_neg hbackslash, if_neg hcontrol]
    simp only [bind, Except.bind]
    cases readString fuel rest <;> rfl

/-- **A written text is read up to its closing quote.** -/
theorem readString_escape (cs : List Char) {fuel : Nat} (hfuel : cs.length < fuel)
    (rest : List Char) : readString fuel (escape cs ++ '"' :: rest) = .ok (cs, rest) := by
  induction cs generalizing fuel with
  | nil =>
    obtain ⟨fuel, rfl⟩ := Nat.exists_eq_succ_of_ne_zero hfuel.ne'
    rfl
  | cons c cs ih =>
    obtain ⟨fuel, rfl⟩ := Nat.exists_eq_succ_of_ne_zero (Nat.ne_zero_of_lt hfuel)
    have htail := ih (Nat.succ_lt_succ_iff.mp hfuel)
    rw [escape, List.flatMap_cons, List.append_assoc, readString_escapeChar, ← escape, htail]
    rfl

theorem length_le_length_escape (cs : List Char) : cs.length ≤ (escape cs).length := by
  induction cs with
  | nil => exact Nat.le_refl 0
  | cons c cs ih =>
    have hone : 1 ≤ (escapeChar c).length := by
      rw [escapeChar]
      split_ifs <;> simp
    rw [escape, List.flatMap_cons, List.length_append, List.length_cons, ← escape]
    omega

theorem readText_escape (s : String) (rest : List Char) :
    readText (escape s.toList ++ '"' :: rest) = .ok (.ok s, rest) := by
  have hfuel : s.toList.length < (escape s.toList ++ '"' :: rest).length := by
    have hle := length_le_length_escape s.toList
    rw [List.length_append, List.length_cons]
    omega
  have hread := readString_escape s.toList hfuel rest
  simp only [readText, hread, String.ofList_toList]

end Stocklist.Json
