/-
  Stocklist/Proofs/Wire/Numbers.lean
  ==================================
  **Every cell of a number is accounted for, and clients get numbers only.**

  The numbers of a catalog that was loaded are those of its cells, or zero where there is a
  remark, and the remarks are on no other cells (`Proofs/Catalog/Remarks`).  So all of them
  are finite.  A number that is not would be written as `null`; a page of finite numbers is
  read as an object whose items have a number for their price and another for their margin
  (`readsAs_pageText_prices`).  Both ends are put together in `load_accounts_for_numbers`.
-/
import Stocklist.Proofs.Catalog.Remarks
import Stocklist.Proofs.Wire.Prices

namespace Stocklist

namespace Json

/-- The values that stand under a name among the members of an object, in their order. -/
def Members.under (name : String) : Members → List Value
  | .close | .broken _ => []
  | .cons (.ok n) v rest => if n = name then v :: rest.under name else rest.under name
  | .cons (.error _) _ rest => rest.under name

end Json

namespace Wire

open Json (Value Items Members Member ReadsAs)

/-! ### Items with prices -/

/-- A value is an object with a number for its price and another for its margin. -/
inductive HasPrices : Value → Prop where
  | object {ahead : List Char} {members : Members} (price margin : Json.Number) :
      members.under "price_per_unit" = [.number price] →
      members.under "margin" = [.number margin] → HasPrices (.object ahead members)

theorem exists_number_of_decodeFloat {v : Value} {x : Binary64} (h : decodeFloat v = .ok x) :
    ∃ n, v = .number n := by
  cases v with
  | number n => exact ⟨n, rfl⟩
  | _ => cases h

theorem hasPrices_of_from {item : Item} {ahead : List Char} {members : Members}
    (h : Members.From (itemMembers item) members) : HasPrices (.object ahead members) := by
  obtain _ | ⟨-, _ | ⟨-, _ | ⟨-, _ | ⟨-, _ | ⟨-, _ | ⟨hprice, _ | ⟨hmargin, _ | _⟩⟩⟩⟩⟩⟩⟩ := h
  obtain ⟨_, hprice, -⟩ := hprice
  obtain ⟨_, hmargin, -⟩ := hmargin
  obtain ⟨p, rfl⟩ := exists_number_of_decodeFloat hprice
  obtain ⟨m, rfl⟩ := exists_number_of_decodeFloat hmargin
  exact .object p m (by simp [Members.under]) (by simp [Members.under])

theorem readsAs_itemText_prices {item : Item} (h : item.IsFinite) :
    ReadsAs HasPrices (itemText item) := by
  apply (Json.readsAs_objectText (isReadable_itemMembers h)).mono
  rintro v ⟨ahead, members, rfl, hfrom⟩
  exact hasPrices_of_from hfrom

/-! ### Pages -/

/-- A value is an object with one array of results, and these are as many as the given items,
    each with a price and a margin. -/
inductive ShowsPrices (items : List Item) : Value → Prop where
  | object {ahead : List Char} {members : Members} {results : Items} (opening : List Char) :
      members.under "results" = [.array opening results] →
      Items.From (fun _ v => HasPrices v) items results → ShowsPrices items (.object ahead members)

/-- The members of a written page, of which the query and the results are to be read in some
    way and the others in any. -/
def pageMembersOf (page : ResultPage) (query results : Value → Prop) : List Member := [
  ⟨"query", stringText page.query, query⟩,
  ⟨"results", arrayText (page.results.map itemText), results⟩,
  ⟨"prev", integerText page.prev, fun _ => True⟩,
  ⟨"next", integerText page.next, fun _ => True⟩,
  ⟨"rangeLeft", naturalText page.rangeLeft, fun _ => True⟩,
  ⟨"rangeRight", naturalText page.rangeRight, fun _ => True⟩,
  ⟨"count", naturalText page.count, fun _ => True⟩]

section PageMembers

variable {page : ResultPage} {query results : Value → Prop}

theorem isReadable_pageMembersOf (hquery : ReadsAs query (stringText page.query))
    (hresults : ReadsAs results (arrayText (page.results.map itemText))) :
    ∀ m ∈ pageMembersOf page query results, m.IsReadable := by
  simp only [pageMembersOf, List.forall_mem_cons, Member.IsReadable]
  exact ⟨hquery, hresults, (readsAs_integerText _).weaken, (readsAs_integerText _).weaken,
    (readsAs_naturalText _).weaken, (readsAs_naturalText _).weaken,
    (readsAs_naturalText _).weaken, List.forall_mem_nil _⟩

/-- A page is read as an object with one query and one value for its results. -/
theorem readsAs_pageText_of (hquery : ReadsAs query (stringText page.query))
    (hresults : ReadsAs results (arrayText (page.results.map itemText))) :
    ReadsAs (fun v => ∃ ahead members q r, v = .object ahead members ∧
        members.under "query" = [q] ∧ query q ∧ members.under "results" = [r] ∧ results r)
      (pageText page) := by
  apply (Json.readsAs_objectText (isReadable_pageMembersOf hquery hresults)).mono
  rintro v ⟨ahead, members, rfl, hfrom⟩
  obtain _ | ⟨hq, _ | ⟨hr, _ | ⟨-, _ | ⟨-, _ | ⟨-, _ | ⟨-, _ | ⟨-, _ | _⟩⟩⟩⟩⟩⟩⟩ := hfrom
  exact ⟨ahead, _, _, _, rfl, by simp [Members.under], hq, by simp [Members.under], hr⟩

end PageMembers

theorem readsAs_pageText_prices {page : ResultPage} (h : ∀ a ∈ page.results, a.IsFinite) :
    ReadsAs (ShowsPrices page.results) (pageText page) := by
  have hresults := Json.readsAs_arrayText fun a ha => readsAs_itemText_prices (h a ha)
  apply (readsAs_pageText_of (readsAs_stringText page.query) hresults).mono
  rintro v ⟨ahead, members, _, _, rfl, -, -, hunder, opening, items, rfl, hitems⟩
  exact .object opening hunder hitems

/-! ### From the cells to the clients -/

open Catalog (LoadOptions Source AccountsFor load itemRows)

/-- **Every number of a catalog is that of its cell or remarked upon, and no client is shown
    anything but numbers.**  A load that succeeds accounts for each of its rows: what the
    remarks are on, in the order of rows and columns, are the cells that denote no number of
    their column, each once and with what is wrong with it; these count as zero and all
    others as what they denote.  A remark names the column and quotes the cell.  So all
    prices and margins are finite, and in every response they are read as numbers. -/
theorem load_accounts_for_numbers (options : LoadOptions) (s : Source) (c : Catalog)
    (h : (load options s).result = .ok c) :
    (∃ entries, AccountsFor (itemRows options s.rows) entries ∧
      c.items = entries.map (·.1) ∧ (load options s).remarks = entries.flatMap (·.2)) ∧
    (∀ r ∈ (load options s).remarks,
      r.message = s!"Line {r.line}: {r.column.name} {Text.quoted r.cell} " ++
        match r.fault with
        | .notNumber => "is not a number, using 0"
        | .notFinite => "is not finite, using 0") ∧
    (∀ item ∈ c.items, item.IsFinite) ∧
    ∀ (size : UInt64) (request : Http.Request),
      ∃ v, Json.Document.ofText (Http.respond c size request).1.body.toList = ⟨v, none⟩ ∧
        ShowsPrices (c.search request.query size).results v := by
  refine ⟨Catalog.accountsFor_of_load h, ?_, Catalog.isFinite_of_load h, ?_⟩
  · rintro ⟨line, column, cell, fault⟩ -
    cases fault <;> rfl
  · intro size request
    have hfinite := Catalog.isFinite_results h request.query size
    obtain ⟨v, hv, hshows⟩ := exists_document (readsAs_pageText_prices hfinite)
    refine ⟨v, ?_, hshows⟩
    rw [← hv]
    exact congrArg Json.Document.ofText String.toList_ofList

/-- Cells of every kind: no integer, a fraction, too large, no number at all, not a number by
    name, a negative zero, and one that is sound. -/
def spoiledTeas : Source :=
  ⟨Utf8.bytes "x,Green,1e999,a,b,c,-0\n1.5,Black,NaN,a,b,c,cheap\n3,White,2.5,a,b,c,-inf\n", none⟩

theorem load_accounts_for_spoiled_teas :
    let teas : List Item := [
      ⟨0, "Green", "a", "b", "c", .zero, .finite true .zero⟩,
      ⟨0, "Black", "a", "b", "c", .zero, .zero⟩,
      ⟨3, "White", "a", "b", "c", double "2.5", .zero⟩]
    (load ⟨false⟩ spoiledTeas).result = .ok ⟨teas⟩ ∧
      (load ⟨false⟩ spoiledTeas).remarks = [
        ⟨1, .id, "x", .notNumber⟩, ⟨1, .pricePerUnit, "1e999", .notFinite⟩,
        ⟨2, .id, "1.5", .notNumber⟩, ⟨2, .pricePerUnit, "NaN", .notFinite⟩,
        ⟨2, .margin, "cheap", .notNumber⟩, ⟨3, .margin, "-inf", .notFinite⟩] ∧
      (∃ entries, AccountsFor (itemRows ⟨false⟩ spoiledTeas.rows) entries ∧
        teas = entries.map (·.1) ∧
        (load ⟨false⟩ spoiledTeas).remarks = entries.flatMap (·.2)) ∧
      ∃ v, Json.Document.ofText (Http.respond ⟨teas⟩ 2 getRoot).1.body.toList = ⟨v, none⟩ ∧
        ShowsPrices (Catalog.search ⟨teas⟩ getRoot.query 2).results v := by
  intro teas
  have hload : (load ⟨false⟩ spoiledTeas).result = .ok ⟨teas⟩ := by decide +kernel
  have hremarks : (load ⟨false⟩ spoiledTeas).remarks = [
      ⟨1, .id, "x", .notNumber⟩, ⟨1, .pricePerUnit, "1e999", .notFinite⟩,
      ⟨2, .id, "1.5", .notNumber⟩, ⟨2, .pricePerUnit, "NaN", .notFinite⟩,
      ⟨2, .margin, "cheap", .notNumber⟩, ⟨3, .margin, "-inf", .notFinite⟩] := by
    decide +kernel
  obtain ⟨haccounts, -, -, hshows⟩ := load_accounts_for_numbers ⟨false⟩ spoiledTeas _ hload
  exact ⟨hload, hremarks, haccounts, hshows 2 getRoot⟩

end Wire

end Stocklist
