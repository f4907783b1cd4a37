/-
  Stocklist/Proofs/Search/Window.lean
  ===================================
  **The window of a page in exact arithmetic.**

  The bounds of a window are computed with 64-bit words and saturating products.  Both
  bounds are clamped to the number of matches, which is itself a word, so a product that
  saturates is clamped in any case and the words agree with the natural numbers
  (`toNat_start`, `toNat_stop`).  A window over as many matches as there are then cuts
  out `take` and `drop` by exact numbers (`slice_ofPage`).
-/
import Mathlib.Algebra.Group.Nat.Defs
import Stocklist.Search.Window

namespace Stocklist

theorem toNat_saturatingMul (a b : UInt64) :
    (saturatingMul a b).toNat = min (a.toNat * b.toNat) (UInt64.size - 1) := by
  unfold saturatingMul
  split
  · next h =>
    rw [UInt64.toNat_mul, Nat.mod_eq_of_lt h]
    omega
  · next h =>
    rw [UInt64.toNat_ofNat_of_lt' (by decide)]
    omega

theorem toNat_min (a b : UInt64) : (min a b).toNat = min a.toNat b.toNat := by
  by_cases h : a ≤ b
  · have h' := UInt64.le_iff_toNat_le.mp h
    rw [show min a b = a from if_pos h]
    omega
  · have h' := mt UInt64.le_iff_toNat_le.mpr h
    rw [show min a b = b from if_neg h]
    omega

/-- Whatever is clamped to a word may be cut at the largest word before. -/
theorem toNat_min_saturatingMul (count a b : UInt64) :
    (min count (saturatingMul a b)).toNat = min count.toNat (a.toNat * b.toNat) := by
  have hcount : count.toNat < UInt64.size := count.toNat_lt
  rw [toNat_min, toNat_saturatingMul]
  omega

/-! ### Pages below the first -/

theorem max_one_of_le {page : Int64} (h : page ≤ 1) : max page 1 = 1 :=
  if_pos h

theorem max_one_of_not_le {page : Int64} (h : ¬ page ≤ 1) : max page 1 = page :=
  if_neg h

theorem max_one_of_nonpos {page : Int64} (h : page ≤ 0) : max page 1 = 1 :=
  max_one_of_le (Int64.le_trans h (by decide))

theorem max_one_of_pos {page : Int64} (h : 1 ≤ page) : max page 1 = page := by
  by_cases hle : page ≤ 1
  · rw [max_one_of_le hle]
    exact Int64.le_antisymm h hle
  · exact max_one_of_not_le hle

theorem one_le_max (page : Int64) : 1 ≤ max page 1 := by
  by_cases h : page ≤ 1
  · rw [max_one_of_le h]
    exact Int64.le_refl 1
  · rw [max_one_of_not_le h]
    exact Int64.le_of_lt (Int64.not_le.mp h)

theorem one_le_or_nonpos (page : Int64) : 1 ≤ page ∨ page ≤ 0 := by
  rw [Int64.le_iff_toInt_le, Int64.le_iff_toInt_le, Int64.toInt_one, Int64.toInt_zero]
  omega

namespace Window

/-! ### The bounds -/

/-- The number of a page, from 1.  Pages below the first count as the first. -/
def pageNumber (page : Int64) : Nat :=
  (max page.toInt 1).toNat

theorem pageNumber_pos (page : Int64) : 0 < pageNumber page := by
  simp only [pageNumber]
  omega

theorem pageNumber_of_pos {page : Int64} (h : 1 ≤ page) : (pageNumber page : Int) = page.toInt := by
  have h' : 1 ≤ page.toInt := Int64.le_iff_toInt_le.mp h
  simp only [pageNumber]
  omega

theorem toNat_page (page : Int64) : (max page 1).toUInt64.toNat = pageNumber page := by
  have hone : (1 : Int64).toInt = 1 := rfl
  by_cases h : page ≤ 1
  · have h' : page.toInt ≤ 1 := Int64.le_iff_toInt_le.mp h
    rw [max_one_of_le h, show (1 : Int64).toUInt64.toNat = 1 from rfl]
    simp only [pageNumber]
    omega
  · have h' : ¬ page.toInt ≤ 1 := fun hle => h (Int64.le_iff_toInt_le.mpr hle)
    have hnonneg : 0 ≤ page := Int64.le_iff_toInt_le.mpr (by rw [Int64.toInt_zero]; omega)
    rw [max_one_of_not_le h, Int64.toNat_toUInt64_of_le hnonneg]
    simp only [pageNumber, Int64.toNatClampNeg]
    omega

theorem toNat_pagesBefore (page : Int64) :
    ((max page 1).toUInt64 - 1).toNat = pageNumber page - 1 := by
  have hle : (1 : UInt64) ≤ (max page 1).toUInt64 := by
    rw [UInt64.le_iff_toNat_le, toNat_page]
    exact pageNumber_pos page
  rw [UInt64.toNat_sub_of_le _ _ hle, toNat_page]
  rfl

section Bounds

variable (count size : UInt64) (page : Int64)

theorem toNat_start :
    (ofPage count page size).start.toNat =
      min count.toNat ((pageNumber page - 1) * size.toNat) := by
  rw [← toNat_pagesBefore]
  exact toNat_min_saturatingMul count ((max page 1).toUInt64 - 1) size

theorem toNat_stop :
    (ofPage count page size).stop.toNat = min count.toNat (pageNumber page * size.toNat) := by
  rw [← toNat_page]
  exact toNat_min_saturatingMul count (max page 1).toUInt64 size

theorem pageNumber_mul :
    pageNumber page * size.toNat = (pageNumber page - 1) * size.toNat + size.toNat := by
  rw [← Nat.succ_mul, Nat.succ_eq_add_one, Nat.sub_add_cancel (pageNumber_pos page)]

theorem start_le_stop :
    (ofPage count page size).start ≤ (ofPage count page size).stop := by
  rw [UInt64.le_iff_toNat_le, toNat_start, toNat_stop, pageNumber_mul]
  omega

theorem toNat_size :
    (ofPage count page size).size.toNat =
      min count.toNat (pageNumber page * size.toNat) -
        min count.toNat ((pageNumber page - 1) * size.toNat) := by
  rw [← toNat_start, ← toNat_stop]
  exact UInt64.toNat_sub_of_le _ _ (start_le_stop count size page)

theorem stop_le_count : (ofPage count page size).stop ≤ count := by
  rw [UInt64.le_iff_toNat_le, toNat_stop]
  exact Nat.min_le_left _ _

/-- The position after the start is a word, unless there are as many matches as the largest
    word says and the window passes over all of them. -/
theorem toNat_start_add_one (h : count.toNat < 2 ^ 64 - 1) :
    ((ofPage count page size).start + 1).toNat = (ofPage count page size).start.toNat + 1 := by
  have hstart := UInt64.le_iff_toNat_le.mp (start_le_stop count size page)
  have hstop := UInt64.le_iff_toNat_le.mp (stop_le_count count size page)
  have hone : (1 : UInt64).toNat = 1 := rfl
  rw [UInt64.toNat_add, hone]
  exact Nat.mod_eq_of_lt (by omega)

theorem toNat_rangeLeft (h : count.toNat < 2 ^ 64 - 1) :
    (ofPage count page size).rangeLeft.toNat =
      min ((ofPage count page size).start.toNat + 1) (ofPage count page size).stop.toNat := by
  rw [← toNat_start_add_one count size page h]
  exact toNat_min _ _

/-- The last page and the one past it. -/
example : ofPage 25 3 10 = ⟨20, 25, 21, 25⟩ ∧ ofPage 25 4 10 = ⟨25, 25, 25, 25⟩ := by decide

end Bounds

/-- A window over the matches that it was made for shows those of its page: it passes over
    the pages before and takes one page. -/
theorem slice_ofPage {α : Type} (matching : List α) (h : matching.length < UInt64.size)
    (page : Int64) (size : UInt64) :
    (ofPage (UInt64.ofNat matching.length) page size).slice matching =
      (matching.drop ((pageNumber page - 1) * size.toNat)).take size.toNat := by
  have hcount : (UInt64.ofNat matching.length).toNat = matching.length :=
    UInt64.toNat_ofNat_of_lt' h
  have hpage := pageNumber_mul size page
  simp only [slice, toNat_start, toNat_size, hcount, hpage]
  generalize (pageNumber page - 1) * size.toNat = before
  -- Past the end both sides are empty; otherwise both drop the same part.
  by_cases hend : matching.length ≤ before
  · have hstart : min matching.length before = matching.length := Nat.min_eq_left hend
    rw [hstart, List.drop_length, List.drop_eq_nil_of_le hend, List.take_nil, List.take_nil]
  · have hstart : min matching.length before = before := Nat.min_eq_right (by omega)
    rw [hstart]
    by_cases hfull : before + size.toNat ≤ matching.length
    · rw [Nat.min_eq_right hfull, Nat.add_sub_cancel_left]
    · have hlength : (matching.drop before).length = matching.length - before :=
        List.length_drop
      rw [Nat.min_eq_left (by omega), ← hlength, List.take_length,
        List.take_of_length_le (by omega)]

end Window

end Stocklist
