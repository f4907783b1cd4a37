/-
  Stocklist/Proofs/Text/Terminal.lean
  ===================================
  **What is left of a text controls no terminal.**

  Each step keeps a character only if it is one that is printed, whatever sequence is going
  on (`isPrinted_of_step`).  So what is left of a text has no control characters but blanks
  (`withoutControl_sublist_filter`), and a text that has no others is left as it is
  (`plain_eq_self_iff`).
-/
import Mathlib.Tactic
import Stocklist.Text.Terminal

namespace Stocklist.Text

theorem isPrinted_of_isBlankControl {c : Char} (h : isBlankControl c) : isPrinted c := by
  rw [isPrinted, h, Bool.true_or]

theorem isPrinted_of_lt {c : Char} (h : '\x7f' < c) : isPrinted c := by
  have hlt : 0x7F < c.toNat := UInt32.lt_iff_toNat_lt.mp h
  have hblank : ' ' ≤ c := UInt32.le_iff_toNat_le.mpr (by change 0x20 ≤ c.toNat; omega)
  have hne : c ≠ '\x7f' := by
    rintro rfl
    exact absurd hlt (by decide)
  rw [isPrinted, decide_eq_true hblank, decide_eq_true hne, Bool.and_self, Bool.or_true]

/-- A step keeps no character that is not printed. -/
theorem isPrinted_of_step {onStream : Bool} {s next : Control} {c : Char}
    (h : s.step onStream c = (next, true)) : isPrinted c := by
  unfold Control.step at h
  split at h
  · cases h
  split at h
  · cases h
  split at h
  · exact (Prod.mk.inj h).2
  · split at h
    · next hhigh => exact isPrinted_of_lt hhigh
    split at h
    · next hprinted => exact hprinted
    · cases h
  · split at h
    · next hblank => exact isPrinted_of_isBlankControl (Bool.and_eq_true_iff.mp hblank).2
    · cases h

/-- **Of a text only characters that are printed are left**, in their order. -/
theorem withoutControl_sublist_filter (onStream : Bool) (s : Control) (cs : List Char) :
    (withoutControl onStream s cs).Sublist (cs.filter isPrinted) := by
  induction cs generalizing s with
  | nil => exact .slnil
  | cons c cs ih =>
    rw [withoutControl]
    rcases hstep : s.step onStream c with ⟨next, isKept⟩
    cases isKept with
    | false => exact (ih next).trans ((List.sublist_cons_self c cs).filter isPrinted)
    | true =>
      rw [List.filter_cons_of_pos (isPrinted_of_step hstep)]
      exact (ih next).cons_cons c

example : plain "a\x1b[1;31mb\x1b]0;title\x07c" = "abc" := by decide +kernel

/-- On a stream, a sequence goes on behind a blank control that breaks it off. -/
example : plain "\x1b[1\tb\x01cmd" = "\tbcmd" ∧ plainOutput "\x1b[1\tb\x01cmd" = "\tbmd" := by
  decide +kernel

theorem isPrinted_of_mem_plainOutput {s : String} {c : Char} (h : c ∈ (plainOutput s).toList) :
    isPrinted c := by
  rw [plainOutput, String.toList_ofList] at h
  exact (List.mem_filter.mp ((withoutControl_sublist_filter true .none _).subset h)).2

theorem step_none_of_isPrinted {c : Char} (h : isPrinted c) (onStream : Bool) :
    Control.none.step onStream c = (.none, true) := by
  have hescape : c ≠ '\x1b' := by
    rintro rfl
    exact absurd h (by decide)
  have hcancel : (c = '\x18' || c = '\x1a') = false := by
    rw [Bool.eq_false_iff]
    intro heq
    rw [Bool.or_eq_true, decide_eq_true_iff, decide_eq_true_iff] at heq
    rcases heq with rfl | rfl
    · exact absurd h (by decide)
    · exact absurd h (by decide)
  rw [Control.step, if_neg hescape, if_neg (by rw [hcancel]; decide), h]

theorem withoutControl_of_isPrinted {cs : List Char} (h : ∀ c ∈ cs, isPrinted c)
    (onStream : Bool) : withoutControl onStream .none cs = cs := by
  induction cs with
  | nil => rfl
  | cons c cs ih =>
    rw [List.forall_mem_cons] at h
    rw [withoutControl, step_none_of_isPrinted h.1]
    exact congrArg (c :: ·) (ih h.2)

/-- **A text is left as it is exactly if all its characters are printed.** -/
theorem plain_eq_self_iff {s : String} : plain s = s ↔ ∀ c ∈ s.toList, isPrinted c := by
  constructor
  · intro h c hc
    rw [← h, plain, String.toList_ofList] at hc
    exact (List.mem_filter.mp ((withoutControl_sublist_filter false .none _).subset hc)).2
  · intro h
    rw [plain, withoutControl_of_isPrinted h, String.ofList_toList]

end Stocklist.Text
