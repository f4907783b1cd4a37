/-
  Stocklist/Proofs/Wire/Query.lean
  ================================
  **Every page is read as an object with its query.**

  A number that is not finite is written as `null`.  An item with one has a text of its
  own, which is a JSON value although no item is decoded of it.  So the text of every page
  is that of an object, with the query of the page under its name
  (`readsAs_pageText_query`).
-/
import Stocklist.Proofs.Wire.Numbers

namespace Stocklist.Wire

open Json (Value Member ReadsAs)

/-- A value is an object with one query, and that is the given text. -/
inductive AnswersText (text : String) : Value → Prop where
  | object {ahead : List Char} {members : Json.Members} :
      members.under "query" = [.string text] → AnswersText text (.object ahead members)

theorem readsAs_floatText_any (x : Binary64) : ReadsAs (fun _ => True) (floatText x) := by
  cases x with
  | finite negative m => exact (Json.readsAs_floatText negative m).weaken
  | infinite _ => exact Json.readsAs_null.weaken
  | nan => exact Json.readsAs_null.weaken

/-- The members of a written item, to be read in any way. -/
def anyItemMembers (item : Item) : List Member :=
  (itemMembers item).map fun m => { m with meaning := fun _ => True }

theorem isReadable_anyItemMembers (item : Item) : ∀ m ∈ anyItemMembers item, m.IsReadable := by
  simp only [anyItemMembers, itemMembers, List.map_cons, List.map_nil, List.forall_mem_cons,
    Member.IsReadable]
  exact ⟨(readsAs_integerText _).weaken, (readsAs_stringText _).weaken,
    (readsAs_stringText _).weaken, (readsAs_stringText _).weaken, (readsAs_stringText _).weaken,
    readsAs_floatText_any _, readsAs_floatText_any _, List.forall_mem_nil _⟩

theorem readsAs_itemText_any (item : Item) : ReadsAs (fun _ => True) (itemText item) :=
  (Json.readsAs_objectText (isReadable_anyItemMembers item)).weaken

/-- **Every page is read as an object with its query.** -/
theorem readsAs_pageText_query (page : ResultPage) :
    ReadsAs (AnswersText page.query) (pageText page) := by
  have hresults := (Json.readsAs_arrayText fun a (_ : a ∈ page.results) =>
    readsAs_itemText_any a).weaken
  apply (readsAs_pageText_of (Json.readsAs_stringText page.query) hresults).mono
  rintro v ⟨ahead, members, _, _, rfl, hunder, rfl, -, -⟩
  exact .object hunder

end Stocklist.Wire
