/-
  Stocklist/Proofs/Wire/Prices.lean
  =================================
  **What a client gets of the prices in a catalog.**

  A catalog that was loaded holds finite prices and margins only (`isFinite_of_load`), so
  every response on it can be decoded.  Prices do not always come back as they are: the
  text of a price names it exactly, but the reader of JSON is not exact on texts of sixteen
  digits and more (`prices_change`).  What comes back has the sign of the price, is less
  than six last places away, and is the price itself if fifteen digits suffice for it
  (`respond_prices`).
-/
import Mathlib.Tactic
import Stocklist.Proofs.Catalog.FirstFailure
import Stocklist.Proofs.Wire.RoundTrip

namespace Stocklist

/-! ### Finite numbers -/

namespace Catalog

theorem IsFloatOf.isFinite {cell : String} {x : Binary64} (h : IsFloatOf cell x) :
    x.isFinite := by
  rcases h with ⟨-, hfinite⟩ | ⟨-, rfl⟩
  · exact hfinite
  · rfl

theorem Describes.isFinite {cells : List String} {item : Item} (h : Describes cells item) :
    item.IsFinite := by
  obtain ⟨price, -, hprice⟩ := h.pricePerUnit
  obtain ⟨margin, -, hmargin⟩ := h.margin
  exact ⟨hprice.isFinite, hmargin.isFinite⟩

theorem isFinite_of_gives {rows : List Csv.Row} {items : List Item}
    (h : List.Forall₂ Gives rows items) : ∀ item ∈ items, item.IsFinite := by
  induction h with
  | nil => exact List.forall_mem_nil _
  | cons hfirst _ ih =>
    obtain ⟨cells, -, hcells⟩ := hfirst
    exact List.forall_mem_cons.mpr ⟨hcells.isFinite, ih⟩

/-- Whatever a source holds, no catalog that is loaded from it has an infinite price. -/
theorem isFinite_of_load {options : LoadOptions} {s : Source} {c : Catalog}
    (h : (load options s).result = .ok c) : ∀ item ∈ c.items, item.IsFinite := by
  by_cases hmark : s.BreaksAfterMark
  · rw [load_of_breaksAfterMark options hmark] at h
    cases h
    exact List.forall_mem_nil _
  · obtain ⟨-, -, hgives⟩ := (load_eq_ok_iff hmark c).mp h
    exact isFinite_of_gives hgives

/-- A page shows nothing but items of the catalog. -/
theorem mem_of_mem_results {c : Catalog} {q : Query} {size : UInt64} {item : Item}
    (h : item ∈ (c.search q size).results) : item ∈ c.items :=
  List.mem_of_mem_filter (List.mem_of_mem_drop (List.mem_of_mem_take h))

theorem isFinite_results {options : LoadOptions} {s : Source} {c : Catalog}
    (h : (load options s).result = .ok c) (q : Query) (size : UInt64) :
    ∀ item ∈ (c.search q size).results, item.IsFinite := by
  intro item hitem
  exact isFinite_of_load h item (mem_of_mem_results hitem)

end Catalog

/-! ### Responses -/

namespace Wire

open Catalog (LoadOptions Source load)

/-- **Prices reach a client with their sign and up to fifteen digits.**  The response to any
    request on a loaded catalog is decoded as the page that it was written for: with the
    same items in their order, each with its texts and its identifier, and with a price and
    a margin that are finite, of the same sign and less than six last places away.  They are
    the same if they are the doubles nearest to decimals of up to fifteen digits, as zeros
    are. -/
theorem respond_prices (options : LoadOptions) (s : Source) (c : Catalog) (size : UInt64)
    (request : Http.Request) (h : (load options s).result = .ok c) :
    ∃ decoded, pageOfText (Http.respond c size request).1.body = .ok decoded ∧
      (c.search request.query size).ComesBackAs decoded :=
  exists_pageOfText (Catalog.isFinite_results h request.query size)

/-! ### A price of sixteen digits -/

/-- The double that a numeral denotes. -/
def double (numeral : String) : Binary64 :=
  (Binary64.ofText? numeral).getD .zero

def teaAt (price : String) : Item :=
  ⟨1, "Tea", "c", "s", "t", double price, .zero⟩

def oneTea : Source :=
  ⟨Utf8.bytes "1,Tea,9.100000000000001,c,s,t,0\n", none⟩

def getRoot : Http.Request :=
  ⟨⟨"GET", by decide, by decide⟩, .origin ⟨"/", none⟩⟩

theorem load_oneTea : (load ⟨false⟩ oneTea).result = .ok ⟨[teaAt "9.100000000000001"]⟩ := by
  decide +kernel

theorem pageOfText_respond_oneTea :
    pageOfText (Http.respond ⟨[teaAt "9.100000000000001"]⟩ 20 getRoot).1.body =
      .ok ⟨"", [teaAt "9.1"], 0, 2, 1, 1, 1⟩ := by
  decide +kernel

theorem respond_prices_oneTea :
    (load ⟨false⟩ oneTea).result = .ok ⟨[teaAt "9.100000000000001"]⟩ ∧
      ∃ decoded,
        pageOfText (Http.respond ⟨[teaAt "9.100000000000001"]⟩ 20 getRoot).1.body = .ok decoded ∧
        ResultPage.ComesBackAs ⟨"", [teaAt "9.100000000000001"], 0, 2, 1, 1, 1⟩ decoded :=
  ⟨load_oneTea, respond_prices ⟨false⟩ oneTea _ 20 getRoot load_oneTea⟩

/-- The item `b` has the price and the margin of `a`. -/
def SamePrices (a b : Item) : Prop :=
  b.pricePerUnit = a.pricePerUnit ∧ b.margin = a.margin

/-- **Not every price reaches a client as it was loaded**: 9.100000000000001 is decoded as
    9.1, although its text is exact. -/
theorem prices_change :
    ¬ ∀ (options : LoadOptions) (s : Source) (c : Catalog) (size : UInt64)
        (request : Http.Request), (load options s).result = .ok c →
      ∃ decoded, pageOfText (Http.respond c size request).1.body = .ok decoded ∧
        List.Forall₂ SamePrices (c.search request.query size).results decoded.results := by
  intro h
  obtain ⟨decoded, hdecoded, hsame⟩ := h ⟨false⟩ oneTea _ 20 getRoot load_oneTea
  rw [pageOfText_respond_oneTea] at hdecoded
  cases hdecoded
  have hresults : (Catalog.search ⟨[teaAt "9.100000000000001"]⟩ getRoot.query 20).results =
      [teaAt "9.100000000000001"] := by
    decide +kernel
  rw [hresults] at hsame
  obtain _ | ⟨⟨hprice, -⟩, -⟩ := hsame
  -- The doubles differ in the last place; the reader rounds significand and quotient.
  have hother : double "9.1" ≠ double "9.100000000000001" := by
    decide +kernel
  exact hother hprice

end Wire

end Stocklist
