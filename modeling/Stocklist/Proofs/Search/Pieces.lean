/-
  Stocklist/Proofs/Search/Pieces.lean
  ===================================
  **A longer text finds less, and every piece of a name finds its item.**

  Folding looks at one character at a time, so it takes a piece of a text to a piece of the
  folded text, wherever the piece lies (`Text.fold_infix`).  Two things follow.  An item that
  matches a text matches every piece of it, so a search that is narrowed only loses items
  (`find_sublist`).  And an item matches every piece of its own name, also one in which
  characters are replaced by others of the same folding (`matches_of_respells`).

  With a fold that looked at neighbours both would fail: a word-final sigma that folds to
  another letter than the one in mid-word is a piece of a name and would not be found.
-/
import Stocklist.Proofs.Search.Matching

namespace Stocklist

/-! ### Pieces and other spellings -/

namespace Text

theorem fold_infix {piece cs : List Char} (h : piece <:+: cs) : fold piece <:+: fold cs := by
  obtain ⟨before, after, rfl⟩ := h
  exact ⟨fold before, fold after, by simp⟩

/-- `Respells cs ds`: the text `ds` comes of `cs` by putting a text of the same folding in the
    place of each character, which may be the character itself. -/
inductive Respells : List Char → List Char → Prop where
  | nil : Respells [] []
  | cons {c : Char} {cs s ds : List Char} :
      fold s = fold [c] → Respells cs ds → Respells (c :: cs) (s ++ ds)

theorem Respells.refl (cs : List Char) : Respells cs cs := by
  induction cs with
  | nil => exact .nil
  | cons c cs ih => exact .cons (s := [c]) rfl ih

theorem Respells.fold_eq {cs ds : List Char} (h : Respells cs ds) : fold ds = fold cs := by
  induction h with
  | nil => rfl
  | cons hs _ ih => simp [hs, ih]

end Text

/-! ### Matching -/

/-- An item that matches a text matches every text with a smaller folding. -/
theorem Item.Matches.of_fold_infix {item : Item} {text piece : String}
    (h : item.Matches text) (hpiece : Text.fold piece.toList <:+: Text.fold text.toList) :
    item.Matches piece := by
  obtain ⟨before, after, hname⟩ := h
  have htext : Text.fold text.toList <:+: Text.fold item.name.toList :=
    ⟨before, after, hname.symm⟩
  obtain ⟨before', after', hpiece'⟩ := hpiece.trans htext
  exact ⟨before', after', hpiece'.symm⟩

theorem Item.matches_of_respells {item : Item} {before run after : List Char} {text : String}
    (hname : item.name.toList = before ++ run ++ after) (h : Text.Respells run text.toList) :
    item.Matches text := by
  refine ⟨Text.fold before, Text.fold after, ?_⟩
  rw [hname, h.fold_eq]
  simp

namespace Catalog

variable (c : Catalog)

theorem find_sublist {text piece : String}
    (h : Text.fold piece.toList <:+: Text.fold text.toList) :
    (c.find text).Sublist (c.find piece) := by
  rw [find_eq_filter, find_eq_filter]
  apply List.monotone_filter_right
  intro item hitem
  simp only [decide_eq_true_eq] at hitem ⊢
  exact hitem.of_fold_infix h

/-- **Narrowing a search only removes items, and every piece of a name finds its item.**
    With more characters before and after a text the same items are found in the same
    order, less some, and no page counts more.  An item is found by every run of consecutive
    characters of its name, as often as it is listed, whatever stands around the run and
    however its characters are spelled. -/
theorem find_narrows_and_finds_pieces :
    (∀ before text after : String,
      (c.find (before ++ text ++ after)).Sublist (c.find text) ∧
      (c.find (before ++ text ++ after)).length ≤ (c.find text).length ∧
      (c.size < 2 ^ 64 → ∀ (page page' : Int64) (size size' : UInt64),
        (c.search ⟨before ++ text ++ after, page⟩ size).count ≤
          (c.search ⟨text, page'⟩ size').count)) ∧
    ∀ item ∈ c.items, ∀ (before run after : List Char) (text : String),
      item.name.toList = before ++ run ++ after → Text.Respells run text.toList →
        item ∈ c.find text ∧ (c.find text).count item = c.items.count item := by
  constructor
  · intro before text after
    have hpiece : text.toList <:+: (before ++ text ++ after).toList :=
      ⟨before.toList, after.toList, by simp⟩
    have hsub := find_sublist c (Text.fold_infix hpiece)
    refine ⟨hsub, hsub.length_le, ?_⟩
    intro hfits page page' size size'
    have hfound (text : String) := Nat.lt_of_le_of_lt (length_find_le c text) hfits
    rw [UInt64.le_iff_toNat_le, toNat_count_search ⟨_, page⟩ (hfound _),
      toNat_count_search ⟨_, page'⟩ (hfound _)]
    exact hsub.length_le
  · intro item hitem before run after text hname hspelled
    have hcount := count_find c text item
    rw [if_pos (Item.matches_of_respells hname hspelled)] at hcount
    refine ⟨?_, hcount⟩
    rw [← List.count_pos_iff, hcount]
    exact List.count_pos_iff.mpr hitem

/-- A word-final sigma, a capital with a dot, which folds to two characters, and a sign for
    degrees Kelvin, which folds to a letter. -/
theorem find_narrows_and_finds_pieces_cased :
    let item : Item := ⟨1, "ΟΔΟΣ İk", "", "", "", .zero, .zero⟩
    let c : Catalog := ⟨[⟨2, "ΟΔΟ", "", "", "", .zero, .zero⟩, item]⟩
    c.size < 2 ^ 64 ∧
      (c.find ("δ" ++ "ΟΣ" ++ " ")).Sublist (c.find "ΟΣ") ∧
      (c.search ⟨"δ" ++ "ΟΣ" ++ " ", 1⟩ 20).count ≤ (c.search ⟨"ΟΣ", 9⟩ 1).count ∧
      item ∈ c.items ∧
      item.name.toList = "ΟΔΟ".toList ++ "Σ İk".toList ++ [] ∧
      Text.Respells "Σ İk".toList "σ i\u0307\u212A".toList ∧
      item ∈ c.find "σ i\u0307\u212A" := by
  intro item c
  have hfits : c.size < 2 ^ 64 := by decide
  obtain ⟨hnarrow, hpieces⟩ := find_narrows_and_finds_pieces c
  obtain ⟨hsub, -, hcount⟩ := hnarrow "δ" "ΟΣ" " "
  have hitem : item ∈ c.items := by decide
  have hname : item.name.toList = "ΟΔΟ".toList ++ "Σ İk".toList ++ [] := by decide
  have hspelled : Text.Respells "Σ İk".toList "σ i\u0307\u212A".toList :=
    .cons (s := ['σ']) (by decide) <| .cons (s := [' ']) rfl <|
    .cons (s := ['i', '\u0307']) (by decide) <| .cons (s := ['\u212A']) (by decide) .nil
  exact ⟨hfits, hsub, hcount hfits 1 9 20 1, hitem, hname, hspelled,
    (hpieces item hitem _ _ _ _ hname hspelled).1⟩

end Catalog

end Stocklist
