/-
  Stocklist/Proofs/Text/Folding.lean
  ==================================
  **What is folded stays as it is.**

  No image of a character has a lower-case form of its own (`lower_of_mem_lower`).  The
  mapping is given by runs of code points, so it is enough to look up the images of each
  run in one go (`isFree`): they lie apart from a run of cased code points, or they
  are in the gaps of one that has every second code point only.  Hence folding twice is
  folding once (`fold_fold`), and as it makes small letters of the ASCII capitals, it does
  not see their case (`fold_map_toLower`).
-/
import Mathlib
import Stocklist.Text.Lowercase

namespace Stocklist.Text

/-! ### Runs and their images -/

namespace CaseRun

variable {r : CaseRun} {n : Nat}

/-- `r.Covers n`: the code point is one of the run. -/
def Covers (r : CaseRun) (n : Nat) : Prop :=
  r.first ≤ n ∧ n ≤ r.last ∧ (n - r.first) % r.stride = 0

def imageOf (r : CaseRun) (n : Nat) : Nat :=
  r.image + (n - r.first)

def lastImage (r : CaseRun) : Nat :=
  r.imageOf r.last

/-- Every second code point is in the run, or there is only one. -/
def isSparse (r : CaseRun) : Bool :=
  r.stride = 2 || r.first = r.last

theorem image_le_imageOf : r.image ≤ r.imageOf n :=
  Nat.le_add_right _ _

theorem imageOf_le_lastImage (h : r.Covers n) : r.imageOf n ≤ r.lastImage := by
  obtain ⟨_, hlast, _⟩ := h
  simp only [lastImage, imageOf]
  omega

theorem even_of_isSparse (h : r.Covers n) (hsparse : r.isSparse) :
    (r.imageOf n - r.image) % 2 = 0 := by
  obtain ⟨hfirst, hlast, hstep⟩ := h
  simp only [isSparse, Bool.or_eq_true, decide_eq_true_eq] at hsparse
  simp only [imageOf]
  rcases hsparse with htwo | hsingle
  · rw [htwo] at hstep
    omega
  · omega

end CaseRun

/-- Whether the runs cover no code point from `low` to `high`, or, of a sparse run, no second
    one.  As with `lowerIn`, the search ends at the first run that begins above them. -/
def isFree (low high : Nat) (isSparse : Bool) : List CaseRun → Bool
  | [] => true
  | r :: rs =>
    if high < r.first then true
    else if r.last < low then isFree low high isSparse rs
    else isSparse && r.stride = 2 && (low + r.first) % 2 = 1 && isFree low high isSparse rs

theorem lowerIn_eq_none_of_isFree {low high m : Nat} {isSparse : Bool} {rs : List CaseRun}
    (h : isFree low high isSparse rs) (hlow : low ≤ m) (hhigh : m ≤ high)
    (heven : isSparse → (m - low) % 2 = 0) : lowerIn m rs = none := by
  induction rs with
  | nil => rfl
  | cons r rs ih =>
    rw [isFree] at h
    rw [lowerIn]
    split_ifs at h with habove hbelow
    · exact if_pos (by omega)
    · split_ifs
      · rfl
      · omega
      · omega
      · exact ih h
    · simp only [Bool.and_eq_true, decide_eq_true_eq] at h
      obtain ⟨⟨⟨hsparse, htwo⟩, hodd⟩, hrest⟩ := h
      have hm := heven hsparse
      rw [htwo]
      split_ifs
      · rfl
      · omega
      · rfl
      · exact ih hrest

theorem isFree_images :
    ∀ r ∈ caseRuns, isFree r.image r.lastImage r.isSparse caseRuns := by
  decide +kernel

/-- The images of the runs are characters, and the letter with two characters for an image is
    none of them. -/
theorem image_bounds : ∀ r ∈ caseRuns,
    (r.lastImage < 0xD800 ∨ (0xE000 ≤ r.image ∧ r.lastImage < 0x110000)) ∧
      (r.lastImage < 0x0130 ∨ 0x0130 < r.image) := by
  decide +kernel

/-! ### Looking up a code point -/

theorem exists_run_of_lowerIn {n m : Nat} {rs : List CaseRun} (h : lowerIn n rs = some m) :
    ∃ r ∈ rs, r.Covers n ∧ m = r.imageOf n := by
  induction rs with
  | nil => cases h
  | cons r rs ih =>
    simp only [lowerIn] at h
    split_ifs at h with hfirst hlast hplace
    · cases h
      exact ⟨r, List.mem_cons_self, ⟨not_lt.mp hfirst, hlast, hplace⟩, rfl⟩
    · obtain ⟨s, hs, hcovers⟩ := ih h
      exact ⟨s, List.mem_cons_of_mem r hs, hcovers⟩

section Image

variable {n m : Nat} (h : lowerIn n caseRuns = some m)

include h

theorem lowerIn_image : lowerIn m caseRuns = none := by
  obtain ⟨r, hr, hcovers, rfl⟩ := exists_run_of_lowerIn h
  apply lowerIn_eq_none_of_isFree (isFree_images r hr)
  · exact CaseRun.image_le_imageOf
  · exact CaseRun.imageOf_le_lastImage hcovers
  · exact CaseRun.even_of_isSparse hcovers

theorem image_ne_dotted : m ≠ 'İ'.toNat := by
  obtain ⟨r, hr, hcovers, rfl⟩ := exists_run_of_lowerIn h
  have hle := CaseRun.imageOf_le_lastImage hcovers
  have hge : r.image ≤ r.imageOf n := CaseRun.image_le_imageOf
  have hdotted : 'İ'.toNat = 0x0130 := rfl
  obtain ⟨-, hbounds⟩ := image_bounds r hr
  omega

theorem toNat_image : (Char.ofNat m).toNat = m := by
  obtain ⟨r, hr, hcovers, rfl⟩ := exists_run_of_lowerIn h
  have hle := CaseRun.imageOf_le_lastImage hcovers
  have hge : r.image ≤ r.imageOf n := CaseRun.image_le_imageOf
  rw [Char.toNat_ofNat, if_pos]
  obtain ⟨hlow | ⟨hlow, hhigh⟩, -⟩ := image_bounds r hr
  · exact Or.inl (by omega)
  · exact Or.inr ⟨by omega, by omega⟩

end Image

/-! ### Folding -/

theorem lower_of_lowerIn_eq_none {c : Char} (hc : c ≠ 'İ') (h : lowerIn c.toNat caseRuns = none) :
    lower c = [c] := by
  rw [lower, if_neg hc, h]

/-- **No image of a character has a lower-case form of its own.** -/
theorem lower_of_mem_lower {c d : Char} (h : d ∈ lower c) : lower d = [d] := by
  unfold lower at h
  split_ifs at h with hc
  · rcases List.mem_pair.mp h with rfl | rfl
    · decide
    · decide
  · split at h
    · next m hm =>
      obtain rfl := List.mem_singleton.mp h
      apply lower_of_lowerIn_eq_none
      · intro hdotted
        apply image_ne_dotted hm
        rw [← hdotted, toNat_image hm]
      · rw [toNat_image hm]
        exact lowerIn_image hm
    · next hnone =>
      obtain rfl := List.mem_singleton.mp h
      exact lower_of_lowerIn_eq_none hc hnone

theorem fold_of_forall_lower {cs : List Char} (h : ∀ c ∈ cs, lower c = [c]) : fold cs = cs := by
  induction cs with
  | nil => rfl
  | cons c cs ih =>
    rw [fold_cons, h c List.mem_cons_self, ih fun d hd => h d (List.mem_cons_of_mem c hd)]
    rfl

/-- **Folding twice is folding once.** -/
theorem fold_fold (cs : List Char) : fold (fold cs) = fold cs := by
  apply fold_of_forall_lower
  intro d hd
  obtain ⟨c, -, hc⟩ := List.mem_flatMap.mp hd
  exact lower_of_mem_lower hc

/-- The capitals of ASCII have the images that their small letters have. -/
theorem lower_toLower (c : Char) : lower c.toLower = lower c := by
  by_cases hupper : c.isUpper
  · have hcapitals : ∀ n < 26,
        lower (Char.ofNat (65 + n)).toLower = lower (Char.ofNat (65 + n)) := by
      decide +kernel
    obtain ⟨hlow, hhigh⟩ : 65 ≤ c.toNat ∧ c.toNat ≤ 90 := by
      simpa [Char.isUpper, UInt32.le_iff_toNat_le] using hupper
    have hc : Char.ofNat (65 + (c.toNat - 65)) = c := by
      rw [Nat.add_sub_cancel' hlow, Char.ofNat_toNat]
    rw [← hc]
    exact hcapitals _ (by omega)
  · rw [Char.toLower_eq_of_not_isUpper hupper]

theorem fold_map_toLower (cs : List Char) : fold (cs.map Char.toLower) = fold cs := by
  induction cs with
  | nil => rfl
  | cons c cs ih => rw [List.map_cons, fold_cons, fold_cons, lower_toLower, ih]

/-! ### Texts of one folding -/

/-- A text in lower case. -/
def folded (s : String) : String :=
  String.ofList (fold s.toList)

/-- `SameFolding s t`: the texts differ in case only, if at all. -/
def SameFolding (s t : String) : Prop :=
  folded s = folded t

instance (s t : String) : Decidable (SameFolding s t) :=
  inferInstanceAs (Decidable (folded s = folded t))

theorem sameFolding_iff {s t : String} :
    SameFolding s t ↔ fold s.toList = fold t.toList := by
  rw [SameFolding, folded, folded, String.ofList_inj]

/-- The capital sigma folds in the same way at the end of a word as anywhere else. -/
example : SameFolding "ΟΔΟΣ" "οδοσ" := by decide

theorem folded_folded (s : String) : folded (folded s) = folded s := by
  rw [folded, folded, String.toList_ofList, fold_fold]

/-- Texts that differ in the case of ASCII letters have one folding. -/
theorem sameFolding_of_toLower {s t : String}
    (h : s.toList.map Char.toLower = t.toList.map Char.toLower) : SameFolding s t := by
  rw [sameFolding_iff, ← fold_map_toLower, h, fold_map_toLower]

end Stocklist.Text
