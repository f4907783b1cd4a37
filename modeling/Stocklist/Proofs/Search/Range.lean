/-
  Stocklist/Proofs/Search/Range.lean
  ==================================
  **The range on a page tells which matches it shows.**

  A page says "left to right of count" beside its items.  With `before` matches on the pages
  before it, the page has something to show exactly if there are more matches than that; then
  `left` is `before + 1` and the item at place `j` is the match at position `left + j`,
  counted from 1.  An empty page says "count to count of count".

  Everything follows from two lengths, that of the matches and that of the pages before,
  once the words are read as natural numbers (`toNat_rangeLeft_search`,
  `toNat_rangeRight_search`, `length_results_eq`).
-/
import Stocklist.Proofs.Search.Bounds
import Stocklist.Proofs.Search.Matching

namespace Stocklist.Catalog

open Window (pageNumber)

section Range

variable {c : Catalog} {q : Query} {size : UInt64}
variable (hfew : (c.find q.text).length < 2 ^ 64 - 1)

include hfew

theorem length_find_lt_size : (c.find q.text).length < UInt64.size :=
  Nat.lt_of_lt_of_le hfew (by decide)

theorem toNat_count_of_few : (c.search q size).count.toNat = (c.find q.text).length :=
  toNat_count_search q (length_find_lt_size hfew)

theorem length_results_of_few :
    (c.search q size).results.length =
      min size.toNat ((c.find q.text).length - (pageNumber q.page - 1) * size.toNat) :=
  length_results q (length_find_lt_size hfew)

theorem getElem?_results {j : Nat} (hj : j < (c.search q size).results.length) :
    (c.search q size).results[j]? =
      (c.find q.text)[(pageNumber q.page - 1) * size.toNat + j]? := by
  have hplace : j < size.toNat := by
    rw [length_results_of_few hfew] at hj
    omega
  rw [results_search q (length_find_lt_size hfew), List.getElem?_take_of_lt hplace,
    List.getElem?_drop]

/-! ### The ends of the range -/

theorem toNat_rangeRight_search :
    (c.search q size).rangeRight.toNat =
      min (c.find q.text).length ((pageNumber q.page - 1) * size.toNat + size.toNat) := by
  rw [← Window.pageNumber_mul, ← toNat_count_of_few hfew]
  exact Window.toNat_stop (c.search q size).count size q.page

theorem toNat_rangeLeft_search :
    (c.search q size).rangeLeft.toNat =
      min (min (c.find q.text).length ((pageNumber q.page - 1) * size.toNat) + 1)
        (c.search q size).rangeRight.toNat := by
  have hcount : (c.search q size).count.toNat = (c.find q.text).length := toNat_count_of_few hfew
  have hleft := Window.toNat_rangeLeft (c.search q size).count size q.page (by rwa [hcount])
  rw [Window.toNat_start, hcount] at hleft
  exact hleft

theorem rangeLeft_le_rangeRight :
    (c.search q size).rangeLeft ≤ (c.search q size).rangeRight := by
  rw [UInt64.le_iff_toNat_le, toNat_rangeLeft_search hfew]
  exact Nat.min_le_right _ _

theorem rangeRight_le_count : (c.search q size).rangeRight ≤ (c.search q size).count := by
  rw [UInt64.le_iff_toNat_le, toNat_rangeRight_search hfew, toNat_count_of_few hfew]
  exact Nat.min_le_left _ _

section Shown

variable (hshown : (pageNumber q.page - 1) * size.toNat < (c.find q.text).length)

include hshown

theorem toNat_rangeLeft_of_shown (hsize : 0 < size.toNat) :
    (c.search q size).rangeLeft.toNat = (pageNumber q.page - 1) * size.toNat + 1 := by
  rw [toNat_rangeLeft_search hfew, toNat_rangeRight_search hfew]
  omega

theorem toNat_rangeRight_of_shown :
    (c.search q size).rangeRight.toNat =
      (pageNumber q.page - 1) * size.toNat + (c.search q size).results.length := by
  rw [toNat_rangeRight_search hfew, length_results_of_few hfew]
  omega

/-- Only the last page with items may have a free place. -/
theorem length_results_of_rangeRight_ne
    (hne : (c.search q size).rangeRight ≠ (c.search q size).count) :
    (c.search q size).results.length = size.toNat := by
  have hless := mt UInt64.toNat_inj.mp hne
  rw [toNat_rangeRight_search hfew, toNat_count_of_few hfew] at hless
  rw [length_results_of_few hfew]
  omega

end Shown

theorem range_of_not_shown
    (hnot : ¬ (pageNumber q.page - 1) * size.toNat < (c.find q.text).length) :
    (c.search q size).rangeLeft = (c.search q size).count ∧
      (c.search q size).rangeRight = (c.search q size).count := by
  have hright : (c.search q size).rangeRight.toNat = (c.find q.text).length := by
    rw [toNat_rangeRight_search hfew]
    omega
  constructor
  · rw [← UInt64.toNat_inj, toNat_rangeLeft_search hfew, hright, toNat_count_of_few hfew]
    omega
  · rw [← UInt64.toNat_inj, hright, toNat_count_of_few hfew]

end Range

/-! ### The main statement -/

/-- **The range on a page describes the page.**  For any page number and at least one place
    to a page, over a catalog with fewer items than page numbers, the range is in order and
    within the count.  The page shows something exactly if the pages before it, with
    `(p - 1) * size` places in exact arithmetic, leave something.  Then the range has as
    many positions as the page has items, the items are the matches at these positions, and
    every place is taken unless the range ends with the last match.  On an empty page both
    ends are the count. -/
theorem search_range_describes_results (c : Catalog) (q : Query) (size : UInt64)
    (hsize : 1 ≤ size) (hfew : c.size < 2 ^ 63 - 1) :
    let shown := c.search q size
    shown.count.toNat = (c.find q.text).length ∧
    (0 ≤ shown.rangeLeft ∧ shown.rangeLeft ≤ shown.rangeRight ∧
      shown.rangeRight ≤ shown.count) ∧
    (shown.results ≠ [] ↔ (max q.page.toInt 1 - 1) * size.toNat < shown.count.toNat) ∧
    (shown.results ≠ [] →
      shown.rangeRight.toNat - shown.rangeLeft.toNat + 1 = shown.results.length ∧
      1 ≤ shown.rangeLeft ∧
      (∀ (j : Nat) (hj : j < shown.results.length),
        (c.find q.text)[shown.rangeLeft.toNat + j - 1]? = some shown.results[j]) ∧
      (shown.rangeRight ≠ shown.count → shown.results.length = size.toNat)) ∧
    (shown.results = [] → shown.rangeLeft = shown.count ∧ shown.rangeRight = shown.count) := by
  intro shown
  have hplaces : 0 < size.toNat := UInt64.le_iff_toNat_le.mp hsize
  have hfound : (c.find q.text).length < 2 ^ 64 - 1 :=
    Nat.lt_of_le_of_lt (length_find_le c q.text) (by omega)
  have hcount : shown.count.toNat = (c.find q.text).length := toNat_count_of_few hfound
  have hiff : shown.results ≠ [] ↔
      (pageNumber q.page - 1) * size.toNat < (c.find q.text).length :=
    results_ne_nil_iff q (length_find_lt_size hfound) hplaces
  refine ⟨hcount, ⟨UInt64.zero_le, rangeLeft_le_rangeRight hfound, rangeRight_le_count hfound⟩,
    ?_, ?_, ?_⟩
  · rw [hiff, hcount, ← Window.cast_pageNumber_sub_one]
    norm_cast
  · intro hne
    have hshown := hiff.mp hne
    have hleft : shown.rangeLeft.toNat = (pageNumber q.page - 1) * size.toNat + 1 :=
      toNat_rangeLeft_of_shown hfound hshown hplaces
    have hright : shown.rangeRight.toNat =
        (pageNumber q.page - 1) * size.toNat + shown.results.length :=
      toNat_rangeRight_of_shown hfound hshown
    have hlength : 0 < shown.results.length := List.length_pos_iff.mpr hne
    refine ⟨by omega, ?_, ?_, length_results_of_rangeRight_ne hfound hshown⟩
    · rw [UInt64.le_iff_toNat_le, hleft]
      exact Nat.le_add_left 1 _
    · intro j hj
      have hposition : shown.rangeLeft.toNat + j - 1 =
          (pageNumber q.page - 1) * size.toNat + j := by omega
      rw [hposition, ← List.getElem?_eq_getElem hj]
      exact (getElem?_results hfound hj).symm
  · intro hnil
    exact range_of_not_shown hfound fun hshown => hiff.mpr hshown hnil

/-- Three matches, two to a page: a page far below the first is full, the second page has
    the last match alone, the third one is empty. -/
theorem search_range_describes_three_matches :
    let item (id : Int64) (name : String) : Item := ⟨id, name, "", "", "", .zero, .zero⟩
    let c : Catalog := ⟨[item 1 "Tea", item 2 "Milk", item 3 "iced tea", item 4 "TEAPOT"]⟩
    (1 ≤ (2 : UInt64) ∧ c.size < 2 ^ 63 - 1) ∧
    ((c.search ⟨"tea", -5⟩ 2).rangeRight ≠ (c.search ⟨"tea", -5⟩ 2).count ∧
      (c.search ⟨"tea", -5⟩ 2).results.length = 2) ∧
    ((c.search ⟨"tea", 2⟩ 2).results = [item 4 "TEAPOT"] ∧
      (c.search ⟨"tea", 2⟩ 2).rangeLeft.toNat = 3 ∧
      (c.find "tea")[3 + 0 - 1]? = some (item 4 "TEAPOT")) ∧
    ((c.search ⟨"tea", 3⟩ 2).results = [] ∧ (c.search ⟨"tea", 3⟩ 2).rangeLeft = 3) := by
  intro item c
  have hsize : 1 ≤ (2 : UInt64) := by decide
  have hfew : c.size < 2 ^ 63 - 1 := by decide
  have hmore : (c.search ⟨"tea", -5⟩ 2).rangeRight ≠ (c.search ⟨"tea", -5⟩ 2).count := by
    decide +kernel
  have hlast : (c.search ⟨"tea", 2⟩ 2).results = [item 4 "TEAPOT"] := by decide +kernel
  have hleft : (c.search ⟨"tea", 2⟩ 2).rangeLeft.toNat = 3 := by decide +kernel
  have hnone : (c.search ⟨"tea", 3⟩ 2).results = [] := by decide +kernel
  have hcount : (c.search ⟨"tea", 3⟩ 2).count = 3 := by decide +kernel
  obtain ⟨-, -, -, hfirst, -⟩ := search_range_describes_results c ⟨"tea", -5⟩ 2 hsize hfew
  obtain ⟨-, -, -, hsecond, -⟩ := search_range_describes_results c ⟨"tea", 2⟩ 2 hsize hfew
  obtain ⟨-, -, -, -, hthird⟩ := search_range_describes_results c ⟨"tea", 3⟩ 2 hsize hfew
  refine ⟨⟨hsize, hfew⟩, ⟨hmore, ?_⟩, ⟨hlast, hleft, ?_⟩, hnone, ?_⟩
  · exact (hfirst (by decide +kernel)).2.2.2 hmore
  · have hplace := (hsecond (by simp [hlast])).2.2.1 0 (by simp [hlast])
    rw [hleft] at hplace
    simpa [hlast] using hplace
  · rw [(hthird hnone).1, hcount]

end Stocklist.Catalog
