/-
  Stocklist/Proofs/Search/Matching.lean
  =====================================
  **A search finds exactly the items whose name contains its text.**

  An item matches a text (`Item.Matches`) when its folded name can be cut into something,
  the folded text and something else.  The search for a cut tries the positions of the name
  in turn and looks at a piece of the length of the text; it finds a cut if there is one,
  however long the images of single characters are (`isFoundBy_iff`).  What a search finds
  is then the catalog without the items that do not match: nothing is moved, and an item
  that is listed twice is found twice (`find_exactly_matches`).
-/
import Stocklist.Proofs.Search.Paging

namespace Stocklist

/-- `item.Matches text`: the folded text is a piece of the item's folded name. -/
def Item.Matches (item : Item) (text : String) : Prop :=
  ∃ before after : List Char,
    Text.fold item.name.toList = before ++ Text.fold text.toList ++ after

theorem Item.isFoundBy_iff {item : Item} {text : String} :
    item.isFoundBy text = true ↔ item.Matches text := by
  rw [Item.isFoundBy, Text.occursIn_iff]
  constructor
  · rintro ⟨before, after, h⟩
    exact ⟨before, after, h.symm⟩
  · rintro ⟨before, after, h⟩
    exact ⟨before, after, h.symm⟩

instance (item : Item) (text : String) : Decidable (item.Matches text) :=
  decidable_of_iff (item.isFoundBy text = true) Item.isFoundBy_iff

/-- A capital letter whose image has two characters, cut between them. -/
example : Item.Matches ⟨1, "İzmir", "", "", "", .zero, .zero⟩ "\u0307Z" := by decide

theorem Item.matches_empty (item : Item) : item.Matches "" :=
  ⟨[], Text.fold item.name.toList, by simp⟩

namespace Catalog

variable (c : Catalog) (text : String)

theorem find_eq_filter : c.find text = c.items.filter fun item => item.Matches text := by
  have hsame : (fun item : Item => item.isFoundBy text) =
      fun item => decide (item.Matches text) := by
    funext item
    rw [Bool.eq_iff_iff, Item.isFoundBy_iff, decide_eq_true_iff]
  rw [Catalog.find, hsame]

theorem length_find :
    (c.find text).length = c.items.countP fun item => item.Matches text := by
  rw [find_eq_filter, List.countP_eq_length_filter]

theorem length_find_le : (c.find text).length ≤ c.size := by
  rw [length_find]
  exact List.countP_le_length

/-- An item that matches is found as often as it is listed, any other not at all. -/
theorem count_find (item : Item) :
    (c.find text).count item = if item.Matches text then c.items.count item else 0 := by
  rw [find_eq_filter]
  split
  · next h => exact List.count_filter (decide_eq_true h)
  · next h =>
    rw [List.count_eq_zero]
    intro hmem
    exact h (of_decide_eq_true (List.mem_filter.mp hmem).2)

theorem find_empty : c.find "" = c.items := by
  rw [find_eq_filter, List.filter_eq_self]
  intro item _
  exact decide_eq_true item.matches_empty

/-- **A search finds exactly the items that match**, in the order of the catalog and as
    often as they are listed there; without a text it finds them all.  Every page counts
    them, whatever its number and its size.  The count is a 64-bit word, which is enough:
    no list in memory has `2 ^ 64` items. -/
theorem find_exactly_matches :
    (c.find text = c.items.filter fun item => item.Matches text) ∧
    (∀ item : Item,
      (c.find text).count item = if item.Matches text then c.items.count item else 0) ∧
    c.find "" = c.items ∧
    ∀ (page : Int64) (size : UInt64),
      (c.search ⟨text, page⟩ size).count =
        UInt64.ofNat (c.items.countP fun item => item.Matches text) ∧
      (c.size < 2 ^ 64 →
        (c.search ⟨text, page⟩ size).count.toNat =
          c.items.countP fun item => item.Matches text) := by
  refine ⟨find_eq_filter c text, count_find c text, find_empty c, ?_⟩
  intro page size
  constructor
  · rw [← length_find]
    rfl
  · intro hfits
    have hlength := Nat.lt_of_le_of_lt (length_find_le c text) hfits
    rw [toNat_count_search ⟨text, page⟩ hlength, length_find]

/-- A match that begins within a failed one, a capital sigma at the end of a word (a small
    final one is another letter), a cut within the two characters of one image, and an item
    that is listed twice. -/
theorem find_exactly_matches_cased :
    let item (id : Int64) (name : String) : Item := ⟨id, name, "", "", "", .zero, .zero⟩
    let c : Catalog := ⟨[item 1 "ααΟΔΟΣ", item 2 "ΟΔΟ", item 3 "İα-αοδοσİ", item 1 "ααΟΔΟΣ"]⟩
    c.size < 2 ^ 64 ∧
      c.find "ΑοδΟς" = [] ∧
      c.find "ΑοδΟΣ" = [item 1 "ααΟΔΟΣ", item 3 "İα-αοδοσİ", item 1 "ααΟΔΟΣ"] ∧
      c.find "\u0307Α" = [item 3 "İα-αοδοσİ"] ∧
      (c.search ⟨"ΑοδΟΣ", 7⟩ 2).count.toNat = 3 := by
  intro item c
  have hfits : c.size < 2 ^ 64 := by decide
  obtain ⟨hfinal, -⟩ := find_exactly_matches c "ΑοδΟς"
  obtain ⟨hsigma, -, -, hcount⟩ := find_exactly_matches c "ΑοδΟΣ"
  obtain ⟨hdot, -⟩ := find_exactly_matches c "\u0307Α"
  refine ⟨hfits, ?_, ?_, ?_, ?_⟩
  · rw [hfinal]
    decide +kernel
  · rw [hsigma]
    decide +kernel
  · rw [hdot]
    decide +kernel
  · rw [(hcount 7 2).2 hfits]
    decide +kernel

end Catalog

end Stocklist
