/-
  Stocklist/Proofs/Search/Bounds.lean
  ===================================
  **Windows are exact and stay within the matches.**

  A window is computed with 64-bit words, a product that saturates and a page number that
  changes its type.  None of this shows: the window is the one of exact arithmetic
  (`Window.IsExact`), whatever the page and the number of places, as long as the position
  after the start is a word.  So the window lies within the matches that it is made for and
  cutting it out loses nothing (`length_results_search`).

  Pages below the first are read as the first, by the window and by a query alike
  (`Window.ofPage_max`).  A query that names such a page gets what the first page shows;
  only its neighbours are its own (`search_ofPage`).
-/
import Stocklist.Proofs.Search.Paging

namespace Stocklist

/-! ### Exact windows -/

namespace Window

/-- The window of the page `p` over `count` matches, `size` to a page, in exact arithmetic. -/
structure IsExact (w : Window) (count : Nat) (p : Int) (size : Nat) : Prop where
  start : (w.start.toNat : Int) = min (count : Int) ((p - 1) * size)
  stop : (w.stop.toNat : Int) = min (count : Int) (p * size)
  /-- The sum in the bound that is shown does not overflow. -/
  succ_start : (w.start + 1).toNat = w.start.toNat + 1
  rangeLeft : w.rangeLeft.toNat = min (w.start.toNat + 1) w.stop.toNat
  rangeRight : w.rangeRight = w.stop
  start_le_stop : w.start ≤ w.stop
  stop_le_count : w.stop.toNat ≤ count
  /-- The difference of the bounds does not underflow. -/
  toNat_size : w.size.toNat = w.stop.toNat - w.start.toNat
  size_le : w.size.toNat ≤ size

theorem cast_pageNumber (page : Int64) : (pageNumber page : Int) = max page.toInt 1 := by
  simp only [pageNumber]
  omega

theorem cast_pageNumber_sub_one (page : Int64) :
    ((pageNumber page - 1 : Nat) : Int) = max page.toInt 1 - 1 := by
  rw [← cast_pageNumber]
  exact Int.natCast_sub (pageNumber_pos page)

theorem size_ofPage_le (count size : UInt64) (page : Int64) :
    (ofPage count page size).size.toNat ≤ size.toNat := by
  rw [toNat_size, pageNumber_mul]
  omega

theorem isExact_ofPage {count : UInt64} (hcount : count.toNat < 2 ^ 64 - 1) (page : Int64)
    (size : UInt64) :
    (ofPage count page size).IsExact count.toNat (max page.toInt 1) size.toNat where
  start := by
    rw [toNat_start, ← cast_pageNumber_sub_one]
    simp
  stop := by
    rw [toNat_stop, ← cast_pageNumber]
    simp
  succ_start := toNat_start_add_one count size page hcount
  rangeLeft := toNat_rangeLeft count size page hcount
  rangeRight := rfl
  start_le_stop := start_le_stop count size page
  stop_le_count := UInt64.le_iff_toNat_le.mp (stop_le_count count size page)
  toNat_size := UInt64.toNat_sub_of_le _ _ (start_le_stop count size page)
  size_le := size_ofPage_le count size page

end Window

/-! ### Pages below the first -/

/-- A query reads its page as a window does. -/
theorem Window.ofPage_max (count size : UInt64) (page : Int64) :
    Window.ofPage count (max page 1) size = Window.ofPage count page size := by
  rw [Window.ofPage, max_one_of_pos (one_le_max page)]
  rfl

namespace Catalog

/-! ### What is cut out -/

section Cut

variable (c : Catalog) (q : Query) (size : UInt64)

/-- The window that the page of a query cuts out. -/
def window : Window :=
  Window.ofPage (c.search q size).count q.page size

theorem stop_window_le : (c.window q size).stop.toNat ≤ (c.find q.text).length := by
  have hstop := UInt64.le_iff_toNat_le.mp
    (Window.stop_le_count (c.search q size).count size q.page)
  have hcount : (c.search q size).count.toNat ≤ (c.find q.text).length := by
    rw [show (c.search q size).count = UInt64.ofNat (c.find q.text).length from rfl,
      UInt64.toNat_ofNat']
    exact Nat.mod_le _ _
  exact Nat.le_trans hstop hcount

theorem results_search_eq_drop_take :
    (c.search q size).results =
      ((c.find q.text).take (c.window q size).stop.toNat).drop (c.window q size).start.toNat := by
  have hsize : (c.window q size).size.toNat =
      (c.window q size).stop.toNat - (c.window q size).start.toNat :=
    UInt64.toNat_sub_of_le _ _ (Window.start_le_stop (c.search q size).count size q.page)
  rw [List.drop_take, ← hsize]
  rfl

/-- No place of the window is beyond the matches. -/
theorem length_results_search :
    (c.search q size).results.length =
      (c.window q size).stop.toNat - (c.window q size).start.toNat := by
  rw [results_search_eq_drop_take, List.length_drop, List.length_take,
    Nat.min_eq_left (stop_window_le c q size)]

end Cut

/-! ### Neighbours -/

theorem toInt_previousPage (page : Int64) :
    (previousPage page).toInt = max (page.toInt - 1) (-2 ^ 63) := by
  have hge : -2 ^ 63 ≤ page.toInt := page.le_toInt
  have hlt : page.toInt < 2 ^ 63 := page.toInt_lt
  by_cases h : page = Int64.minValue
  · rw [previousPage, if_pos h, h, Int64.toInt_minValue]
    rfl
  · have hne : page.toInt ≠ -2 ^ 63 := by
      intro heq
      exact h (Int64.toInt_inj.mp (heq.trans Int64.toInt_minValue.symm))
    rw [previousPage, if_neg h, Int64.toInt_sub, Int64.toInt_one,
      Int.bmod_eq_of_le (by omega) (by omega)]
    omega

/-- A query and the one that is read from it differ in their neighbours only. -/
theorem search_ofPage (c : Catalog) (text : String) (page : Int64) (size : UInt64) :
    c.search ⟨text, page⟩ size =
      { c.search (.ofPage text page) size with
        prev := previousPage page, next := nextPage page } := by
  rw [Query.ofPage_eq_max]
  simp only [search, Window.ofPage_max]

theorem prev_ne_of_nonpos (c : Catalog) (text : String) {page : Int64} (h : page ≤ 0)
    (size : UInt64) :
    (c.search ⟨text, page⟩ size).prev ≠ (c.search (.ofPage text page) size).prev := by
  rw [Query.ofPage_eq_max, max_one_of_nonpos h]
  intro heq
  have hprev : (previousPage page).toInt = (previousPage 1).toInt := congrArg Int64.toInt heq
  have hfirst : (previousPage 1).toInt = 0 := by decide
  rw [Int64.le_iff_toInt_le, Int64.toInt_zero] at h
  rw [toInt_previousPage, hfirst] at hprev
  omega

theorem next_ne_of_nonpos (c : Catalog) (text : String) {page : Int64} (h : page ≤ 0)
    (size : UInt64) :
    (c.search ⟨text, page⟩ size).next ≠ (c.search (.ofPage text page) size).next := by
  rw [Query.ofPage_eq_max, max_one_of_nonpos h]
  intro heq
  have hnext : (nextPage page).toInt = (nextPage 1).toInt := congrArg Int64.toInt heq
  have hsecond : (nextPage 1).toInt = 2 := by decide
  rw [Int64.le_iff_toInt_le, Int64.toInt_zero] at h
  rw [toInt_nextPage (by omega), hsecond] at hnext
  omega

/-! ### The main statement -/

/-- **Saturating windows are exact and stay within the matches.**
    For fewer matches than the largest word, any page and any number of places, the window
    is that of exact arithmetic; neither the change of the page number's type nor the step
    down to the pages before goes wrong.
    Every search cuts its page out of the matches between bounds that lie within them.
    A page below the first shows what the first shows, with other neighbours. -/
theorem search_within_exact_bounds :
    (∀ (count : UInt64) (page : Int64) (size : UInt64), count.toNat < 2 ^ 64 - 1 →
      (Window.ofPage count page size).IsExact count.toNat (max page.toInt 1) size.toNat) ∧
    (∀ page : Int64,
      ((max page 1).toUInt64.toNat : Int) = max page.toInt 1 ∧
      (((max page 1).toUInt64 - 1).toNat : Int) = max page.toInt 1 - 1) ∧
    (∀ (c : Catalog) (q : Query) (size : UInt64),
      (c.window q size).start ≤ (c.window q size).stop ∧
      (c.window q size).stop.toNat ≤ (c.find q.text).length ∧
      (c.search q size).results =
        ((c.find q.text).take (c.window q size).stop.toNat).drop
          (c.window q size).start.toNat ∧
      (c.search q size).results.length =
        (c.window q size).stop.toNat - (c.window q size).start.toNat) ∧
    (∀ (c : Catalog) (text : String) (page : Int64) (size : UInt64), page ≤ 0 →
      Query.ofPage text page = ⟨text, 1⟩ ∧
      c.search ⟨text, page⟩ size =
        { c.search (.ofPage text page) size with
          prev := previousPage page, next := nextPage page } ∧
      (c.search ⟨text, page⟩ size).prev ≠ (c.search (.ofPage text page) size).prev ∧
      (c.search ⟨text, page⟩ size).next ≠ (c.search (.ofPage text page) size).next) := by
  refine ⟨?_, ?_, ?_, ?_⟩
  · intro count page size hcount
    exact Window.isExact_ofPage hcount page size
  · intro page
    rw [Window.toNat_page, Window.toNat_pagesBefore]
    exact ⟨Window.cast_pageNumber page, Window.cast_pageNumber_sub_one page⟩
  · intro c q size
    exact ⟨Window.start_le_stop _ _ _, stop_window_le c q size,
      results_search_eq_drop_take c q size, length_results_search c q size⟩
  · intro c text page size hpage
    refine ⟨?_, search_ofPage c text page size, prev_ne_of_nonpos c text hpage size,
      next_ne_of_nonpos c text hpage size⟩
    rw [Query.ofPage_eq_max, max_one_of_nonpos hpage]

/-- Both products saturate, then only the second one; and the lowest page number of all. -/
theorem search_within_exact_bounds_at_limits :
    let count : UInt64 := 18446744073709551614
    let w := Window.ofPage count Int64.maxValue 18446744073709551615
    let w' := Window.ofPage count 2 9223372036854775808
    let c : Catalog := ⟨[⟨1, "Tea", "", "", "", .zero, .zero⟩]⟩
    (count.toNat < 2 ^ 64 - 1 ∧
      w.start.toNat = 18446744073709551614 ∧ w.rangeLeft.toNat = 18446744073709551614 ∧
      w'.start.toNat = 9223372036854775808 ∧ w'.size.toNat ≤ 9223372036854775808) ∧
    (Int64.minValue ≤ 0 ∧
      (c.search ⟨"t", Int64.minValue⟩ 0).prev ≠
        (c.search (.ofPage "t" Int64.minValue) 0).prev) := by
  intro count w w' c
  obtain ⟨hexact, -, -, hlow⟩ := search_within_exact_bounds
  have hcount : count.toNat < 2 ^ 64 - 1 := by decide +kernel
  have hmin : Int64.minValue ≤ 0 := by decide
  have hw : w.IsExact _ _ _ := hexact count Int64.maxValue 18446744073709551615 hcount
  have hw' : w'.IsExact _ _ _ := hexact count 2 9223372036854775808 hcount
  have hlowest := hlow c "t" Int64.minValue 0 hmin
  refine ⟨⟨hcount, ?_, ?_, ?_, hw'.size_le⟩, hmin, hlowest.2.2.1⟩
  · have hstart := hw.start.trans (by decide +kernel : _ = (18446744073709551614 : Int))
    exact Int.ofNat_inj.mp hstart
  · rw [hw.rangeLeft]
    decide +kernel
  · have hstart := hw'.start.trans (by decide +kernel : _ = (9223372036854775808 : Int))
    exact Int.ofNat_inj.mp hstart

end Catalog

end Stocklist
