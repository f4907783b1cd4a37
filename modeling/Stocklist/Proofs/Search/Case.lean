/-
  Stocklist/Proofs/Search/Case.lean
  =================================
  **A search does not see case.**

  Whether an item is found depends on two foldings, that of its name and that of the text
  (`isFoundBy_congr`).  So texts of one folding have the same page but for the text itself
  (`search_congr`), and two catalogs whose names have the same foldings, item by item, show
  the items in the same positions (`shownAt_congr`).  A text and its folding, and texts that
  differ in the case of ASCII letters, have one folding; that is shown in
  `Proofs/Text/Folding`.
-/
import Stocklist.Proofs.Text.Folding
import Stocklist.Search.Page

namespace Stocklist

open Text (SameFolding folded)

/-! ### Positions in a list -/

section Lists

variable {α β : Type} {p : α → Bool} {q : β → Bool}

theorem map_some_filter (p : α → Bool) (xs : List α) :
    (xs.filter p).map some = (xs.findIdxs p).map (xs[·]?) := by
  apply List.ext_getElem
  · rw [List.length_map, List.length_map, List.length_findIdxs, List.countP_eq_length_filter]
  · intro i hleft hright
    rw [List.getElem_map, List.getElem_map, List.getElem?_eq_getElem,
      List.getElem_filter_eq_getElem_getElem_findIdxs]

theorem findIdxs_congr {r : α → β → Prop} (hsame : ∀ a b, r a b → p a = q b) {xs : List α}
    {ys : List β} (h : List.Forall₂ r xs ys) (n : ℕ) : xs.findIdxs p n = ys.findIdxs q n := by
  induction h generalizing n with
  | nil => rfl
  | cons hfirst _ ih => rw [List.findIdxs_cons, List.findIdxs_cons, hsame _ _ hfirst, ih]

theorem Window.slice_map (w : Window) (f : α → β) (xs : List α) :
    w.slice (xs.map f) = (w.slice xs).map f := by
  rw [Window.slice, Window.slice, ← List.map_drop, ← List.map_take]

theorem Window.slice_sublist (w : Window) (xs : List α) : (w.slice xs).Sublist xs :=
  (List.take_sublist _ _).trans (List.drop_sublist _ _)

end Lists

/-! ### Items and catalogs -/

theorem Item.isFoundBy_congr {a b : Item} {s t : String} (hname : SameFolding a.name b.name)
    (htext : SameFolding s t) : a.isFoundBy s = b.isFoundBy t := by
  rw [Text.sameFolding_iff] at hname htext
  rw [Item.isFoundBy, Item.isFoundBy, hname, htext]

namespace Catalog

variable (c : Catalog)

/-- `c.NamedAlike d`: item by item, the names have the same folding.  Nothing is said of the
    other fields. -/
def NamedAlike (c d : Catalog) : Prop :=
  List.Forall₂ (fun a b : Item => SameFolding a.name b.name) c.items d.items

/-- The catalog with its names in lower case. -/
def inLowercase (c : Catalog) : Catalog :=
  ⟨c.items.map fun item => { item with name := folded item.name }⟩

theorem namedAlike_inLowercase : c.NamedAlike c.inLowercase := by
  rw [NamedAlike, inLowercase, List.forall₂_map_right_iff, List.forall₂_same]
  intro item _
  exact (Text.folded_folded item.name).symm

/-- The positions in the catalog, from 0, of the items that a text finds. -/
def foundAt (text : String) : List ℕ :=
  c.items.findIdxs (·.isFoundBy text)

/-- The positions in the catalog of the items that a page shows. -/
def shownAt (q : Query) (size : UInt64) : List ℕ :=
  (Window.ofPage (c.search q size).count q.page size).slice (c.foundAt q.text)

theorem shownAt_increasing (q : Query) (size : UInt64) :
    (c.shownAt q size).Pairwise (· < ·) :=
  List.pairwise_findIdxs.sublist (Window.slice_sublist _ _)

theorem results_shownAt (q : Query) (size : UInt64) :
    (c.search q size).results.map some = (c.shownAt q size).map (c.items[·]?) := by
  rw [shownAt, ← Window.slice_map, foundAt, ← map_some_filter, Window.slice_map]
  rfl

variable {c}

/-! ### Another spelling of the text -/

theorem find_congr {s t : String} (h : SameFolding s t) : c.find s = c.find t := by
  have hsame : (fun item : Item => item.isFoundBy s) = fun item => item.isFoundBy t := by
    funext item
    exact Item.isFoundBy_congr rfl h
  rw [Catalog.find, Catalog.find, hsame]

theorem search_congr {s t : String} (h : SameFolding s t) (page : Int64) (size : UInt64) :
    c.search ⟨t, page⟩ size = { c.search ⟨s, page⟩ size with query := t } := by
  simp only [Catalog.search, find_congr h]

/-! ### Another spelling of the names -/

section Names

variable {d : Catalog} (h : c.NamedAlike d)

include h

theorem foundAt_congr (text : String) : d.foundAt text = c.foundAt text :=
  (findIdxs_congr (fun _ _ hname => Item.isFoundBy_congr hname rfl) h 0).symm

theorem count_congr (q : Query) (size : UInt64) :
    (d.search q size).count = (c.search q size).count := by
  have hlength (k : Catalog) : (k.find q.text).length = (k.foundAt q.text).length := by
    rw [Catalog.find, foundAt, List.length_findIdxs, List.countP_eq_length_filter]
  change UInt64.ofNat (d.find q.text).length = UInt64.ofNat (c.find q.text).length
  rw [hlength, hlength, foundAt_congr h]

theorem shownAt_congr (q : Query) (size : UInt64) : d.shownAt q size = c.shownAt q size := by
  rw [shownAt, shownAt, count_congr h, foundAt_congr h]

theorem range_congr (q : Query) (size : UInt64) :
    (d.search q size).rangeLeft = (c.search q size).rangeLeft ∧
      (d.search q size).rangeRight = (c.search q size).rangeRight := by
  have hwindow : Window.ofPage (d.search q size).count q.page size =
      Window.ofPage (c.search q size).count q.page size := by
    rw [count_congr h]
  exact ⟨congrArg Window.rangeLeft hwindow, congrArg Window.rangeRight hwindow⟩

end Names

/-! ### The main statement -/

/-- **A search does not see case.**  What is folded is not changed by folding, so a text has
    the folding of its lower case; texts that differ in the case of ASCII letters have one
    folding too.  Texts of one folding get the same page, any number and any size of it, in
    all but the text itself.  And with names of the same foldings in their places, such as
    the names in lower case, the page counts as many items, has the same range and shows
    the items in the same positions of the catalog. -/
theorem search_ignores_case (c : Catalog) :
    (∀ s : String, folded (folded s) = folded s ∧ SameFolding s (folded s)) ∧
    (∀ s t : String, s.toList.map Char.toLower = t.toList.map Char.toLower → SameFolding s t) ∧
    (∀ s t : String, SameFolding s t → ∀ (page : Int64) (size : UInt64),
      c.search ⟨t, page⟩ size = { c.search ⟨s, page⟩ size with query := t }) ∧
    c.NamedAlike c.inLowercase ∧
    ∀ (q : Query) (size : UInt64),
      (c.shownAt q size).Pairwise (· < ·) ∧
      (c.search q size).results.map some = (c.shownAt q size).map (c.items[·]?) ∧
      ∀ d : Catalog, c.NamedAlike d →
        (d.search q size).count = (c.search q size).count ∧
        (d.search q size).rangeLeft = (c.search q size).rangeLeft ∧
        (d.search q size).rangeRight = (c.search q size).rangeRight ∧
        d.shownAt q size = c.shownAt q size := by
  refine ⟨?_, ?_, ?_, c.namedAlike_inLowercase, ?_⟩
  · intro s
    exact ⟨Text.folded_folded s, (Text.folded_folded s).symm⟩
  · intro s t h
    exact Text.sameFolding_of_toLower h
  · intro s t h page size
    exact search_congr h page size
  · intro q size
    refine ⟨c.shownAt_increasing q size, c.results_shownAt q size, ?_⟩
    intro d h
    obtain ⟨hleft, hright⟩ := range_congr h q size
    exact ⟨count_congr h q size, hleft, hright, shownAt_congr h q size⟩

/-- A capital sigma at the end of a word, a capital with an image of two characters and the
    sign for degrees Kelvin, and a catalog in which a name that is not found stands between
    two that are. -/
theorem search_ignores_case_mixed :
    let item (name : String) : Item := ⟨1, name, "", "", "", .zero, .zero⟩
    let c : Catalog := ⟨[item "ΟΔΟΣ İK", item "tea", item "οδοσ i\u0307\u212A"]⟩
    let d : Catalog := ⟨[item "οδΟΣ İ\u212A", item "TEA", item "ΟΔΟσ İk"]⟩
    SameFolding "Σ İK" "σ i\u0307\u212A" ∧
      c.search ⟨"σ i\u0307\u212A", 2⟩ 1 =
        { c.search ⟨"Σ İK", 2⟩ 1 with query := "σ i\u0307\u212A" } ∧
      "Tea".toList.map Char.toLower = "tEA".toList.map Char.toLower ∧ SameFolding "Tea" "tEA" ∧
      c.NamedAlike d ∧ c.shownAt ⟨"Σ İK", 2⟩ 1 = [2] ∧ d.shownAt ⟨"Σ İK", 2⟩ 1 = [2] := by
  intro item c d
  obtain ⟨-, hascii, htexts, -, hpages⟩ := search_ignores_case c
  obtain ⟨-, -, hnames⟩ := hpages ⟨"Σ İK", 2⟩ 1
  have hsame : SameFolding "Σ İK" "σ i\u0307\u212A" := by decide +kernel
  have hcase : "Tea".toList.map Char.toLower = "tEA".toList.map Char.toLower := by decide
  have halike : c.NamedAlike d :=
    .cons (by decide +kernel) (.cons (by decide +kernel) (.cons (by decide +kernel) .nil))
  have hshown : c.shownAt ⟨"Σ İK", 2⟩ 1 = [2] := by decide +kernel
  obtain ⟨-, -, -, hpositions⟩ := hnames d halike
  exact ⟨hsame, htexts _ _ hsame 2 1, hcase, hascii _ _ hcase, halike, hshown,
    hpositions.trans hshown⟩

end Catalog

end Stocklist
