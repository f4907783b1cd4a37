/-
  Stocklist/Proofs/Wire/RoundTrip.lean
  ====================================
  **What is decoded of a page that was written.**

  A written page is decoded, with all its texts and integers and with its items in their
  order.  A price and a margin come back as `Magnitude.ComesBackAs` allows, with their sign.
-/
import Mathlib.Tactic
import Stocklist.Http.Endpoint
import Stocklist.Proofs.Json.Float
import Stocklist.Wire.Decode

namespace Stocklist

/-! ### What may come back -/

/-- A finite double may come back as another magnitude of the same sign. -/
inductive Binary64.ComesBackAs : Binary64 → Binary64 → Prop where
  | finite {negative : Bool} {m r : Magnitude} :
      m.ComesBackAs r → Binary64.ComesBackAs (.finite negative m) (.finite negative r)

/-- The item `b` is `a` up to the numbers that are doubles. -/
structure Item.SameTexts (a b : Item) : Prop where
  id_eq : b.id = a.id
  name_eq : b.name = a.name
  category_eq : b.category = a.category
  subCategory_eq : b.subCategory = a.subCategory
  containerType_eq : b.containerType = a.containerType

structure Item.ComesBackAs (a b : Item) : Prop extends a.SameTexts b where
  pricePerUnit : a.pricePerUnit.ComesBackAs b.pricePerUnit
  margin : a.margin.ComesBackAs b.margin

/-- All that the page `b` says of its items is what `a` says. -/
structure ResultPage.SameFrame (a b : ResultPage) : Prop where
  query_eq : b.query = a.query
  prev_eq : b.prev = a.prev
  next_eq : b.next = a.next
  rangeLeft_eq : b.rangeLeft = a.rangeLeft
  rangeRight_eq : b.rangeRight = a.rangeRight
  count_eq : b.count = a.count

/-- A page as it comes back: its frame is the same, and its items come back in their order. -/
structure ResultPage.ComesBackAs (a b : ResultPage) : Prop extends a.SameFrame b where
  results : List.Forall₂ Item.ComesBackAs a.results b.results

/-- An item whose numbers can be written. -/
def Item.IsFinite (a : Item) : Prop :=
  a.pricePerUnit.isFinite ∧ a.margin.isFinite

namespace Wire

open Json (Value Items Members Member ReadsAs)
open Decimal (digits)

/-! ### Scalars -/

theorem readsAs_naturalText (n : UInt64) :
    ReadsAs (fun v => decodeNatural v = .ok n) (naturalText n) := by
  have hvalue : ∀ rest, (Json.ofSpelling false ⟨digits n.toNat, [], none⟩).value rest =
      .ok (.natural n) := by
    intro rest
    rw [Json.value_digits rest n.toNat_lt, UInt64.ofNat_toNat]
  rw [naturalText, ← Decimal.text_digits]
  apply (Json.readsAs_spelling (Decimal.legible_digits _) hvalue).mono
  rintro v rfl
  rfl

theorem readsAs_integerText (n : Int64) :
    ReadsAs (fun v => decodeInteger v = .ok n) (integerText n) := by
  have hge : -2 ^ 63 ≤ n.toInt := n.le_toInt
  have hlt : n.toInt < 2 ^ 63 := n.toInt_lt
  rw [integerText, ← Decimal.text_digits]
  by_cases hneg : n < 0
  · rw [if_pos hneg]
    have hneg' : n.toInt < 0 := Int64.lt_iff_toInt_lt.mp hneg
    have hvalue : ∀ rest, (Json.ofSpelling true ⟨digits n.toInt.natAbs, [], none⟩).value rest =
        .ok (.negative n) := by
      intro rest
      have hint : -(n.toInt.natAbs : ℤ) = n.toInt := by omega
      have hmin : Int64.minValue.toInt.natAbs = 2 ^ 63 := by decide
      rw [Json.value_neg_digits rest (by omega) (by omega), hint, Int64.ofInt_toInt]
    apply (Json.readsAs_neg_spelling (Decimal.legible_digits _) hvalue).mono
    rintro v rfl
    rfl
  · rw [if_neg hneg]
    have hnonneg : 0 ≤ n.toInt := not_lt.mp fun h => hneg (Int64.lt_iff_toInt_lt.mpr h)
    have hsize : n.toInt.natAbs < UInt64.size := by
      have hsize : UInt64.size = 2 ^ 64 := rfl
      omega
    apply (Json.readsAs_spelling (Decimal.legible_digits _)
      fun rest => Json.value_digits rest hsize).mono
    rintro v rfl
    have hmax : Int64.maxValue.toInt.toNat = 2 ^ 63 - 1 := by decide
    have hint : (n.toInt.natAbs : ℤ) = n.toInt := by omega
    rw [decodeInteger, UInt64.toNat_ofNat_of_lt' hsize, if_pos (by omega), hint,
      Int64.ofInt_toInt]

theorem readsAs_stringText (s : String) :
    ReadsAs (fun v => decodeString v = .ok s) (stringText s) := by
  apply (Json.readsAs_stringText s).mono
  rintro v rfl
  rfl

theorem readsAs_floatText {x : Binary64} (h : x.isFinite) :
    ReadsAs (fun v => ∃ y, decodeFloat v = .ok y ∧ x.ComesBackAs y) (floatText x) := by
  cases x with
  | finite negative m =>
    apply (Json.readsAs_floatText negative m).mono
    rintro v ⟨r, rfl, hr⟩
    exact ⟨_, rfl, .finite hr⟩
  | infinite negative => cases h
  | nan => cases h

/-! ### Items -/

/-- The members of a written item, each with what is decoded of it. -/
def itemMembers (item : Item) : List Member := [
  ⟨"id", integerText item.id, fun v => decodeInteger v = .ok item.id⟩,
  ⟨"name", stringText item.name, fun v => decodeString v = .ok item.name⟩,
  ⟨"category", stringText item.category, fun v => decodeString v = .ok item.category⟩,
  ⟨"sub_category", stringText item.subCategory, fun v => decodeString v = .ok item.subCategory⟩,
  ⟨"container_type", stringText item.containerType,
    fun v => decodeString v = .ok item.containerType⟩,
  ⟨"price_per_unit", floatText item.pricePerUnit,
    fun v => ∃ y, decodeFloat v = .ok y ∧ item.pricePerUnit.ComesBackAs y⟩,
  ⟨"margin", floatText item.margin,
    fun v => ∃ y, decodeFloat v = .ok y ∧ item.margin.ComesBackAs y⟩]

theorem isReadable_itemMembers {item : Item} (h : item.IsFinite) :
    ∀ m ∈ itemMembers item, m.IsReadable := by
  simp only [itemMembers, List.forall_mem_cons, Member.IsReadable]
  exact ⟨readsAs_integerText _, readsAs_stringText _, readsAs_stringText _, readsAs_stringText _,
    readsAs_stringText _, readsAs_floatText h.1, readsAs_floatText h.2, List.forall_mem_nil _⟩

theorem fill_none {β : Type} {name : String} {decode : Value → Decoded β} {v : Value} {b : β}
    (h : decode v = .ok b) : fill name none decode v = .ok (some b) := by
  rw [fill, h]
  rfl

theorem decodeItem_of_from {item : Item} {ahead : List Char} {members : Members}
    (h : Members.From (itemMembers item) members) :
    ∃ b, decodeItem (.object ahead members) = .ok b ∧ item.ComesBackAs b := by
  obtain _ | ⟨hid, _ | ⟨hname, _ | ⟨hcategory, _ | ⟨hsub, _ | ⟨hcontainer, _ | ⟨hprice,
    _ | ⟨hmargin, _ | _⟩⟩⟩⟩⟩⟩⟩ := h
  obtain ⟨price, hprice, hpriceBack⟩ := hprice
  obtain ⟨margin, hmargin, hmarginBack⟩ := hmargin
  refine ⟨⟨item.id, item.name, item.category, item.subCategory, item.containerType, price, margin⟩,
    ?_, ⟨⟨rfl, rfl, rfl, rfl, rfl⟩, hpriceBack, hmarginBack⟩⟩
  simp only [decodeItem, foldMembers, ItemDraft.take, fill_none hid, fill_none hname,
    fill_none hcategory, fill_none hsub, fill_none hcontainer, fill_none hprice,
    fill_none hmargin, bind, Except.bind, pure, Except.pure]
  rfl

theorem readsAs_itemText {item : Item} (h : item.IsFinite) :
    ReadsAs (fun v => ∃ b, decodeItem v = .ok b ∧ item.ComesBackAs b) (itemText item) := by
  apply (Json.readsAs_objectText (isReadable_itemMembers h)).mono
  rintro v ⟨ahead, members, rfl, hfrom⟩
  exact decodeItem_of_from hfrom

/-! ### Pages -/

theorem decodeList_of_from {as : List Item} {items : Items}
    (h : Items.From (fun a v => ∃ b, decodeItem v = .ok b ∧ Item.ComesBackAs a b) as items) :
    ∃ bs, decodeList decodeItem items = .ok bs ∧ List.Forall₂ Item.ComesBackAs as bs := by
  induction h with
  | close => exact ⟨[], rfl, .nil⟩
  | cons hv _ ih =>
    obtain ⟨b, hb, hback⟩ := hv
    obtain ⟨bs, hbs, hall⟩ := ih
    refine ⟨b :: bs, ?_, .cons hback hall⟩
    rw [decodeList, hb, hbs]
    rfl

theorem readsAs_results {as : List Item} (h : ∀ a ∈ as, a.IsFinite) :
    ReadsAs (fun v => ∃ bs, decodeResults v = .ok bs ∧ List.Forall₂ Item.ComesBackAs as bs)
      (arrayText (as.map itemText)) := by
  apply (Json.readsAs_arrayText fun a ha => readsAs_itemText (h a ha)).mono
  rintro v ⟨ahead, items, rfl, hfrom⟩
  exact decodeList_of_from hfrom

def pageMembers (page : ResultPage) : List Member := [
  ⟨"query", stringText page.query, fun v => decodeString v = .ok page.query⟩,
  ⟨"results", arrayText (page.results.map itemText),
    fun v => ∃ bs, decodeResults v = .ok bs ∧ List.Forall₂ Item.ComesBackAs page.results bs⟩,
  ⟨"prev", integerText page.prev, fun v => decodeInteger v = .ok page.prev⟩,
  ⟨"next", integerText page.next, fun v => decodeInteger v = .ok page.next⟩,
  ⟨"rangeLeft", naturalText page.rangeLeft, fun v => decodeNatural v = .ok page.rangeLeft⟩,
  ⟨"rangeRight", naturalText page.rangeRight, fun v => decodeNatural v = .ok page.rangeRight⟩,
  ⟨"count", naturalText page.count, fun v => decodeNatural v = .ok page.count⟩]

theorem isReadable_pageMembers {page : ResultPage} (h : ∀ a ∈ page.results, a.IsFinite) :
    ∀ m ∈ pageMembers page, m.IsReadable := by
  simp only [pageMembers, List.forall_mem_cons, Member.IsReadable]
  exact ⟨readsAs_stringText _, readsAs_results h, readsAs_integerText _, readsAs_integerText _,
    readsAs_naturalText _, readsAs_naturalText _, readsAs_naturalText _, List.forall_mem_nil _⟩

theorem decodePage_of_from {page : ResultPage} {ahead : List Char} {members : Members}
    (h : Members.From (pageMembers page) members) :
    ∃ b, decodePage (.object ahead members) = .ok b ∧ page.ComesBackAs b := by
  obtain _ | ⟨hquery, _ | ⟨hresults, _ | ⟨hprev, _ | ⟨hnext, _ | ⟨hleft, _ | ⟨hright,
    _ | ⟨hcount, _ | _⟩⟩⟩⟩⟩⟩⟩ := h
  obtain ⟨results, hresults, hback⟩ := hresults
  refine ⟨⟨page.query, results, page.prev, page.next, page.rangeLeft, page.rangeRight, page.count⟩,
    ?_, ⟨⟨rfl, rfl, rfl, rfl, rfl, rfl⟩, hback⟩⟩
  simp only [decodePage, foldMembers, PageDraft.take, fill_none hquery, fill_none hresults,
    fill_none hprev, fill_none hnext, fill_none hleft, fill_none hright, fill_none hcount,
    bind, Except.bind, pure, Except.pure]
  rfl

theorem readsAs_pageText {page : ResultPage} (h : ∀ a ∈ page.results, a.IsFinite) :
    ReadsAs (fun v => ∃ b, decodePage v = .ok b ∧ page.ComesBackAs b) (pageText page) := by
  apply (Json.readsAs_objectText (isReadable_pageMembers h)).mono
  rintro v ⟨ahead, members, rfl, hfrom⟩
  exact decodePage_of_from hfrom

/-! ### Texts -/

/-- A text that is read as a value in front of others is a document of that value alone. -/
theorem exists_document {P : Value → Prop} {cs : List Char} (h : ReadsAs P cs) :
    ∃ v, Json.Document.ofText cs = ⟨v, none⟩ ∧ P v := by
  obtain ⟨c, tail, hcs, hblank, -⟩ := h.head
  obtain ⟨v, hv, hP⟩ := h.read [] (4 * cs.length + 4) Json.valueEnds_nil (by omega)
  refine ⟨v, ?_, hP⟩
  have hskip : Json.skipBlanks cs = cs := by
    rw [hcs, Json.skipBlanks_cons hblank]
  have hnil : Json.skipBlanks [] = [] := rfl
  rw [List.append_nil] at hv
  simp only [Json.Document.ofText, hskip, hv, hnil]

/-- A text that is read as a value is decoded as that value. -/
theorem ofText_of_readsAs {β : Type} {decode : Value → Decoded β} {Q : β → Prop} {cs : List Char}
    (h : ReadsAs (fun v => ∃ b, decode v = .ok b ∧ Q b) cs) :
    ∃ b, ofText decode (String.ofList cs) = .ok b ∧ Q b := by
  obtain ⟨v, hdocument, b, hb, hQ⟩ := exists_document h
  refine ⟨b, ?_, hQ⟩
  rw [ofText, String.toList_ofList, hdocument, hb]
  rfl

theorem exists_pageOfText {page : ResultPage} (h : ∀ a ∈ page.results, a.IsFinite) :
    ∃ b, pageOfText (Http.pageResponse page).body = .ok b ∧ page.ComesBackAs b :=
  ofText_of_readsAs (readsAs_pageText h)

/-- **The body of a response is decoded as the page that it was written for**, but for the
    numbers that are doubles. -/
theorem pageOfText_body (page : ResultPage) (h : ∀ item ∈ page.results, item.IsFinite) :
    ∃ decoded, pageOfText (Http.pageResponse page).body = .ok decoded ∧
      page.SameFrame decoded ∧ List.Forall₂ Item.SameTexts page.results decoded.results := by
  obtain ⟨decoded, hdecoded, hback⟩ := exists_pageOfText h
  refine ⟨decoded, hdecoded, hback.toSameFrame, ?_⟩
  exact hback.results.imp fun _ _ hitem => hitem.toSameTexts

/-- A page at the limits of its integers, with texts that need every kind of escape. -/
def unusualPage : ResultPage where
  query := "\"\\/\x00\x1f\x08\x0c\t\r\n\u007f\u2028😀"
  results := [
    ⟨Int64.minValue, "\x01\"", "", "\\u0041", "𝄞", .finite true .zero, .finite false .zero⟩,
    ⟨Int64.maxValue, "", "é", "\u7fff", "\\\\",
      .finite true (Json.last 0),
      .finite false ⟨1, 0, by decide, Magnitude.zero.scale_le, by decide⟩⟩]
  prev := Int64.minValue
  next := Int64.maxValue
  rangeLeft := 0
  rangeRight := 18446744073709551615
  count := 9223372036854775808

theorem pageOfText_body_unusualPage :
    (∀ item ∈ unusualPage.results, item.IsFinite) ∧
      ∃ decoded, pageOfText (Http.pageResponse unusualPage).body = .ok decoded ∧
        unusualPage.SameFrame decoded ∧
        List.Forall₂ Item.SameTexts unusualPage.results decoded.results :=
  have hfinite : ∀ item ∈ unusualPage.results, item.IsFinite := by
    simp [unusualPage, Item.IsFinite, Binary64.isFinite]
  ⟨hfinite, pageOfText_body unusualPage hfinite⟩

end Wire

end Stocklist
