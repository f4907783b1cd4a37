/-
  Stocklist/Proofs/Search/Paging.lean
  ===================================
  **Pages divide the matches among themselves.**

  Page `p` shows the matches whose position `i`, counted from 0, has `i / size + 1 = p`,
  in their order.  So every match is on one page and no page repeats one.  A client that
  starts at page 1 and asks for the `next` of each page up to the first empty one
  (`Browsing`) has then seen all matches, once each (`search_divides_matches`).

  The 64-bit arithmetic is settled in `Proofs/Search/Window`; here a page is a `take` of a
  `drop` (`results_search`).  What remains to be watched is `next`, which stops growing at
  the largest page number: a page that shows something has a lower one, because there are
  fewer matches than page numbers (`toInt_next_of_shown`).
-/
import Mathlib.Tactic
import Stocklist.Proofs.Search.Query
import Stocklist.Proofs.Search.Window
import Stocklist.Search.Page

namespace Stocklist

open Window (pageNumber pageNumber_of_pos)

/-! ### Intervals of positions -/

/-- The elements at the positions from `first` on, `n` of them at most.  Positions count
    from `k`. -/
theorem filter_zipIdx_interval {α : Type} (xs : List α) (k first n : Nat) :
    ((xs.zipIdx k).filter fun e => decide (k + first ≤ e.2 ∧ e.2 < k + first + n)).map Prod.fst =
      (xs.drop first).take n := by
  induction xs generalizing k first n with
  | nil => simp
  | cons x xs ih =>
    rw [List.zipIdx_cons, List.filter_cons]
    cases first with
    | zero =>
      cases n with
      | zero => simp
      | succ n =>
        have hrest : ∀ e ∈ xs.zipIdx (k + 1),
            decide (k + 0 ≤ e.2 ∧ e.2 < k + 0 + (n + 1)) =
              decide (k + 1 + 0 ≤ e.2 ∧ e.2 < k + 1 + 0 + n) := by
          intro e he
          have hle := List.le_snd_of_mem_zipIdx he
          simp only [decide_eq_decide]
          omega
        rw [if_pos (by simp), List.filter_congr hrest, List.map_cons, ih]
        rfl
    | succ first =>
      have hshift :
          (fun e : α × Nat => decide (k + (first + 1) ≤ e.2 ∧ e.2 < k + (first + 1) + n)) =
            fun e => decide (k + 1 + first ≤ e.2 ∧ e.2 < k + 1 + first + n) := by
        simp only [Nat.add_assoc, Nat.add_comm 1 first]
      rw [if_neg (by simp), hshift, ih]
      rfl

/-- The positions that a page of `n` places covers make up an interval. -/
theorem div_add_one_eq_iff {i n p : Nat} (hn : 0 < n) (hp : 0 < p) :
    i / n + 1 = p ↔ (p - 1) * n ≤ i ∧ i < (p - 1) * n + n := by
  rw [← Nat.le_div_iff_mul_le hn, ← Nat.succ_mul, ← Nat.div_lt_iff_lt_mul hn]
  omega

/-! ### A page as a part of the matches -/

namespace Catalog

/-- As many matches as there are page numbers are counted exactly. -/
theorem lt_size_of_few {n : Nat} (h : n < 2 ^ 63 - 1) : n < UInt64.size :=
  Nat.lt_trans h (by decide)

variable {c : Catalog} {text : String} {size : UInt64} {p : Int64}

theorem toNat_count_search (q : Query) (h : (c.find q.text).length < UInt64.size) :
    (c.search q size).count.toNat = (c.find q.text).length :=
  UInt64.toNat_ofNat_of_lt' h

theorem results_search (q : Query) (h : (c.find q.text).length < UInt64.size) :
    (c.search q size).results =
      ((c.find q.text).drop ((pageNumber q.page - 1) * size.toNat)).take size.toNat :=
  Window.slice_ofPage (c.find q.text) h q.page size

theorem length_results (q : Query) (h : (c.find q.text).length < UInt64.size) :
    (c.search q size).results.length =
      min size.toNat ((c.find q.text).length - (pageNumber q.page - 1) * size.toNat) := by
  rw [results_search q h, List.length_take, List.length_drop]

/-- A page shows something exactly if the pages before it leave something. -/
theorem results_ne_nil_iff (q : Query) (h : (c.find q.text).length < UInt64.size)
    (hsize : 0 < size.toNat) :
    (c.search q size).results ≠ [] ↔
      (pageNumber q.page - 1) * size.toNat < (c.find q.text).length := by
  rw [← List.length_pos_iff, length_results q h]
  omega

theorem ofPage_of_pos (h : 1 ≤ p) : Query.ofPage text p = ⟨text, p⟩ := by
  rw [Query.ofPage_eq_max, max_one_of_pos h]

theorem results_page (h : (c.find text).length < UInt64.size) (hp : 1 ≤ p) :
    (c.search (.ofPage text p) size).results =
      ((c.find text).drop ((pageNumber p - 1) * size.toNat)).take size.toNat := by
  rw [ofPage_of_pos hp]
  exact results_search ⟨text, p⟩ h

theorem results_page_ne_nil_iff (h : (c.find text).length < UInt64.size) (hp : 1 ≤ p)
    (hsize : 0 < size.toNat) :
    (c.search (.ofPage text p) size).results ≠ [] ↔
      (pageNumber p - 1) * size.toNat < (c.find text).length := by
  rw [ofPage_of_pos hp]
  exact results_ne_nil_iff ⟨text, p⟩ h hsize

theorem next_page (hp : 1 ≤ p) : (c.search (.ofPage text p) size).next = nextPage p := by
  rw [ofPage_of_pos hp]
  rfl

theorem toInt_nextPage (h : p.toInt < 2 ^ 63 - 1) : (nextPage p).toInt = p.toInt + 1 := by
  have hne : p ≠ Int64.maxValue := by
    intro heq
    rw [heq, Int64.toInt_maxValue] at h
    omega
  have hle : -2 ^ 63 ≤ p.toInt := Int64.le_toInt p
  rw [nextPage, if_neg hne, Int64.toInt_add, Int64.toInt_one]
  exact Int.bmod_eq_of_le (by omega) (by omega)

/-- A page that shows something has a `next` of its own, the number after it. -/
theorem toInt_next_of_shown (hp : 1 ≤ p) (hsize : 0 < size.toNat)
    (hfew : (c.find text).length < 2 ^ 63 - 1)
    (hshown : (pageNumber p - 1) * size.toNat < (c.find text).length) :
    (c.search (.ofPage text p) size).next.toInt = p.toInt + 1 := by
  have hnumber := pageNumber_of_pos hp
  have hle : pageNumber p - 1 ≤ (pageNumber p - 1) * size.toNat :=
    Nat.le_mul_of_pos_right _ hsize
  rw [next_page hp]
  exact toInt_nextPage (by omega)

theorem exists_page_number {k : Nat} (hk : k < 2 ^ 63 - 1) :
    ∃ p : Int64, 1 ≤ p ∧ p.toInt = ((k + 1 : Nat) : Int) ∧ pageNumber p = k + 1 := by
  have htoInt : (Int64.ofNat (k + 1)).toInt = ((k + 1 : Nat) : Int) :=
    Int64.toInt_ofNat_of_lt (by omega)
  have hp : 1 ≤ Int64.ofNat (k + 1) := by
    rw [Int64.le_iff_toInt_le, htoInt, Int64.toInt_one]
    omega
  have hnumber := pageNumber_of_pos hp
  exact ⟨_, hp, htoInt, by omega⟩

/-! ### Following `next` -/

/-- `Browsing c text size p pages`: a client that asks for page `p` and then for the
    `next` of each page, up to the first page that shows nothing, gets `pages`. -/
inductive Browsing (c : Catalog) (text : String) (size : UInt64) :
    Int64 → List ResultPage → Prop where
  | stop {p : Int64} :
      (c.search (.ofPage text p) size).results = [] →
      Browsing c text size p [c.search (.ofPage text p) size]
  | follow {p : Int64} {pages : List ResultPage} :
      (c.search (.ofPage text p) size).results ≠ [] →
      Browsing c text size (c.search (.ofPage text p) size).next pages →
      Browsing c text size p (c.search (.ofPage text p) size :: pages)

section Few

variable (hsize : 0 < size.toNat) (hfew : (c.find text).length < 2 ^ 63 - 1)

include hsize hfew

/-- The page after one that shows something passes over one page more. -/
theorem pageNumber_next (hp : 1 ≤ p)
    (hshown : (pageNumber p - 1) * size.toNat < (c.find text).length) :
    1 ≤ (c.search (.ofPage text p) size).next ∧
      pageNumber (c.search (.ofPage text p) size).next = pageNumber p + 1 := by
  have hnext := toInt_next_of_shown hp hsize hfew hshown
  have hnumber := pageNumber_of_pos hp
  have hpos : 1 ≤ (c.search (.ofPage text p) size).next := by
    have hp' := Int64.le_iff_toInt_le.mp hp
    rw [Int64.le_iff_toInt_le, hnext]
    omega
  refine ⟨hpos, ?_⟩
  have hnumber' := pageNumber_of_pos hpos
  omega

/-- Browsing comes to an end, wherever it starts. -/
theorem exists_browsing (hp : 1 ≤ p) : ∃ pages, Browsing c text size p pages := by
  have hlength := lt_size_of_few hfew
  -- By induction on the matches that are left; each page that shows something takes one.
  induction hleft : (c.find text).length - (pageNumber p - 1) * size.toNat
    using Nat.strong_induction_on generalizing p with
  | _ left ih =>
    by_cases hshown : (pageNumber p - 1) * size.toNat < (c.find text).length
    · obtain ⟨hpos, hnumber⟩ := pageNumber_next hsize hfew hp hshown
      have hless : (c.find text).length -
          (pageNumber (c.search (.ofPage text p) size).next - 1) * size.toNat < left := by
        rw [hnumber, Nat.add_sub_cancel, Window.pageNumber_mul]
        omega
      obtain ⟨pages, hpages⟩ := ih _ hless hpos rfl
      exact ⟨_, .follow ((results_page_ne_nil_iff hlength hp hsize).mpr hshown) hpages⟩
    · have hempty := mt (results_page_ne_nil_iff hlength hp hsize).mp hshown
      exact ⟨_, .stop (not_not.mp hempty)⟩

/-- From page `p` on a client sees all matches but those of the pages before. -/
theorem results_of_browsing {pages : List ResultPage} (hpages : Browsing c text size p pages)
    (hp : 1 ≤ p) :
    pages.flatMap (·.results) = (c.find text).drop ((pageNumber p - 1) * size.toNat) := by
  have hlength := lt_size_of_few hfew
  induction hpages with
  | @stop p hempty =>
    have hdone : ¬ (pageNumber p - 1) * size.toNat < (c.find text).length := fun hshown =>
      (results_page_ne_nil_iff hlength hp hsize).mpr hshown hempty
    rw [List.flatMap_singleton, hempty, List.drop_eq_nil_of_le (by omega)]
  | @follow p pages hmore _ ih =>
    have hshown := (results_page_ne_nil_iff hlength hp hsize).mp hmore
    obtain ⟨hpos, hnumber⟩ := pageNumber_next hsize hfew hp hshown
    rw [List.flatMap_cons, ih hpos, results_page hlength hp, hnumber, Nat.add_sub_cancel,
      Window.pageNumber_mul, ← List.drop_drop, List.take_append_drop]

theorem results_page_eq_filter (hp : 1 ≤ p) :
    (c.search (.ofPage text p) size).results =
      ((c.find text).zipIdx.filter fun e =>
        ((e.2 / size.toNat + 1 : Nat) : Int) = p.toInt).map Prod.fst := by
  have hlength := lt_size_of_few hfew
  have hcovers : (fun e : Item × Nat => decide (((e.2 / size.toNat + 1 : Nat) : Int) = p.toInt)) =
      fun e => decide (0 + (pageNumber p - 1) * size.toNat ≤ e.2 ∧
        e.2 < 0 + (pageNumber p - 1) * size.toNat + size.toNat) := by
    funext e
    rw [decide_eq_decide, ← pageNumber_of_pos hp, Nat.cast_inj, Nat.zero_add,
      div_add_one_eq_iff hsize (Window.pageNumber_pos p)]
  rw [results_page hlength hp, hcovers, filter_zipIdx_interval]

theorem exists_page_of_match {i : Nat} (hi : i < (c.find text).length) :
    ∃ p : Int64, 1 ≤ p ∧ p.toInt = ((i / size.toNat + 1 : Nat) : Int) ∧
      (c.search (.ofPage text p) size).results[i % size.toNat]? = (c.find text)[i]? := by
  have hlength := lt_size_of_few hfew
  have hquotient : i / size.toNat ≤ i := Nat.div_le_self i size.toNat
  obtain ⟨p, hp, htoInt, hnumber⟩ := exists_page_number (k := i / size.toNat) (by omega)
  refine ⟨p, hp, htoInt, ?_⟩
  rw [results_page hlength hp, hnumber, Nat.add_sub_cancel,
    List.getElem?_take_of_lt (Nat.mod_lt i hsize), List.getElem?_drop, Nat.mul_comm,
    Nat.div_add_mod]

end Few

/-! ### The main statement -/

/-- **Paging loses no match, repeats none and keeps their order.**  With at least one
    place to a page and fewer matches than page numbers:
    each match is at the place `i % size` of page `i / size + 1`;
    every page shows just the matches whose position belongs to it, and counts them all;
    a client who follows `next` from page 1 comes to an empty page, and has then seen the
    matches in order. -/
theorem search_divides_matches (c : Catalog) (text : String) (size : UInt64) (hsize : 1 ≤ size)
    (hfew : (c.find text).length < 2 ^ 63 - 1) :
    (∀ i < (c.find text).length,
      ∃ p : Int64, 1 ≤ p ∧ p.toInt = ((i / size.toNat + 1 : Nat) : Int) ∧
        (c.search (.ofPage text p) size).results[i % size.toNat]? = (c.find text)[i]?) ∧
    (∀ p : Int64, 1 ≤ p →
      (c.search (.ofPage text p) size).results =
        ((c.find text).zipIdx.filter fun e =>
          ((e.2 / size.toNat + 1 : Nat) : Int) = p.toInt).map Prod.fst ∧
      (c.search (.ofPage text p) size).count.toNat = (c.find text).length) ∧
    (∃ pages, Browsing c text size 1 pages) ∧
    (∀ pages, Browsing c text size 1 pages → pages.flatMap (·.results) = c.find text) := by
  have hplaces : 0 < size.toNat := UInt64.le_iff_toNat_le.mp hsize
  have hlength := lt_size_of_few hfew
  refine ⟨fun i hi => exists_page_of_match hplaces hfew hi, ?_, ?_, ?_⟩
  · intro p hp
    refine ⟨results_page_eq_filter hplaces hfew hp, ?_⟩
    rw [ofPage_of_pos hp]
    exact toNat_count_search ⟨text, p⟩ hlength
  · exact exists_browsing hplaces hfew (Int64.le_refl 1)
  · intro pages hpages
    rw [results_of_browsing hplaces hfew hpages (Int64.le_refl 1)]
    have hfirst : pageNumber 1 - 1 = 0 := rfl
    rw [hfirst, Nat.zero_mul, List.drop_zero]

/-- Three of four items are found, two to a page: the last match is alone on page 2, and a
    client that follows `next` sees all three. -/
theorem search_divides_three_matches :
    let item (id : Int64) (name : String) : Item := ⟨id, name, "", "", "", .zero, .zero⟩
    let c : Catalog := ⟨[item 1 "Tea", item 2 "Milk", item 3 "iced tea", item 4 "TEAPOT"]⟩
    (1 ≤ (2 : UInt64) ∧ (c.find "tea").length < 2 ^ 63 - 1) ∧
    (∃ p : Int64, p.toInt = 2 ∧
      (c.search (.ofPage "tea" p) 2).results[0]? = some (item 4 "TEAPOT")) ∧
    ∃ pages, Browsing c "tea" 2 1 pages ∧
      pages.flatMap (·.results) = [item 1 "Tea", item 3 "iced tea", item 4 "TEAPOT"] := by
  intro item c
  have hsize : 1 ≤ (2 : UInt64) := by decide
  have hfound : c.find "tea" = [item 1 "Tea", item 3 "iced tea", item 4 "TEAPOT"] := by
    decide +kernel
  have hfew : (c.find "tea").length < 2 ^ 63 - 1 := by
    rw [hfound]
    decide
  obtain ⟨hmatch, -, ⟨pages, hpages⟩, hall⟩ := search_divides_matches c "tea" 2 hsize hfew
  refine ⟨⟨hsize, hfew⟩, ?_, pages, hpages, by rw [hall pages hpages, hfound]⟩
  obtain ⟨p, -, hp, hplace⟩ := hmatch 2 (by rw [hfound]; decide)
  rw [hfound] at hplace
  exact ⟨p, hp, hplace⟩

end Catalog

end Stocklist
