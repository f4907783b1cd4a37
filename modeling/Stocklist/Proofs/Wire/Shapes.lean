/-
  Stocklist/Proofs/Wire/Shapes.lean
  =================================
  **Items and pages as shapes.**

  The fields of an item and of a page, each with its slot in the draft, its part of the result
  and its decoder.  With them `decodeItem` and `decodePage` are the decoders of two shapes, so
  that what is known of shapes holds of both.
-/
import Mathlib.Tactic
import Stocklist.Proofs.Wire.Fields

namespace Stocklist.Wire

open Json (Value Items)

variable {α β σ ρ : Type}

/-! ### Slots -/

theorem need_eq_ok_iff {name : String} {slot : Option α} {a : α} :
    need name slot = .ok a ↔ slot = some a := by
  cases slot with
  | none => exact iff_of_false nofun nofun
  | some b => simp [need]

theorem noFault_need (name : String) (slot : Option α) : NoFault (need name slot) := by
  cases slot <;> exact nofun

theorem fill_bind (name : String) (slot : Option α) (decode : Value → Decoded α) (v : Value)
    (put : Option α → β) : (do return put (← fill name slot decode v)) =
      if slot.isSome then .error (.duplicateField name)
      else (decode v).map fun a => put (some a) := by
  rw [fill]
  split
  · rfl
  · cases decode v <;> rfl

theorem skip_bind (v : Value) (s : σ) : (do skip v; return s) = (skip v).map fun _ => s := by
  cases skip v <;> rfl

theorem takeFields_cons_bind {wanted : Wanted} {i : Nat} {f : Field σ ρ} {fs : List (Field σ ρ)}
    {s : σ} {k : σ → Decoded β} {g : f.α × Items → Decoded β}
    (h : ∀ a rest, takeFields wanted (i + 1) fs (f.put s a) rest >>= k = g (a, rest))
    (items : Items) : takeFields wanted i (f :: fs) s items >>= k =
      nextField i wanted f.decode items >>= g := by
  rw [takeFields, bind_assoc]
  exact bind_congr fun p => h p.1 p.2

theorem takeFields_nil_bind (wanted : Wanted) (i : Nat) (s : σ) (k : σ → Decoded β)
    (items : Items) : takeFields wanted i ([] : List (Field σ ρ)) s items >>= k =
      noMoreFields items >>= fun _ => k s := by
  rw [takeFields]
  cases noMoreFields items <;> rfl

/-! ### Items -/

def itemFields : List (Field ItemDraft Item) := [
  ⟨"id", ItemDraft.id, fun d a => { d with id := some a }, Item.id,
    decodeInteger, lawful_decodeInteger, fun _ _ => rfl⟩,
  ⟨"name", ItemDraft.name, fun d a => { d with name := some a }, Item.name,
    decodeString, lawful_decodeString, fun _ _ => rfl⟩,
  ⟨"category", ItemDraft.category, fun d a => { d with category := some a }, Item.category,
    decodeString, lawful_decodeString, fun _ _ => rfl⟩,
  ⟨"sub_category", ItemDraft.subCategory, fun d a => { d with subCategory := some a },
    Item.subCategory, decodeString, lawful_decodeString, fun _ _ => rfl⟩,
  ⟨"container_type", ItemDraft.containerType, fun d a => { d with containerType := some a },
    Item.containerType, decodeString, lawful_decodeString, fun _ _ => rfl⟩,
  ⟨"price_per_unit", ItemDraft.pricePerUnit, fun d a => { d with pricePerUnit := some a },
    Item.pricePerUnit, decodeFloat, lawful_decodeFloat, fun _ _ => rfl⟩,
  ⟨"margin", ItemDraft.margin, fun d a => { d with margin := some a }, Item.margin,
    decodeFloat, lawful_decodeFloat, fun _ _ => rfl⟩]

theorem forall_mem_itemFields {P : Field ItemDraft Item → Prop} :
    (∀ f ∈ itemFields, P f) ↔ P itemFields[0] ∧ P itemFields[1] ∧ P itemFields[2] ∧
      P itemFields[3] ∧ P itemFields[4] ∧ P itemFields[5] ∧ P itemFields[6] := by
  simp [itemFields]

def itemShape : Shape ItemDraft Item where
  wanted := .item
  fields := itemFields
  start := {}
  take := ItemDraft.take
  finish := ItemDraft.finish
  nodup_names := by decide
  slot_start := by
    rw [forall_mem_itemFields]
    exact ⟨rfl, rfl, rfl, rfl, rfl, rfl, rfl⟩
  slot_put_of_ne := by
    simp only [forall_mem_itemFields]
    refine ⟨?_, ?_, ?_, ?_, ?_, ?_, ?_⟩
    all_goals refine ⟨?_, ?_, ?_, ?_, ?_, ?_, ?_⟩
    all_goals first | exact fun _ _ _ => rfl | exact fun hne => absurd rfl hne
  take_field := by
    rw [forall_mem_itemFields]
    refine ⟨?_, ?_, ?_, ?_, ?_, ?_, ?_⟩
    all_goals exact fun s v => fill_bind _ _ _ v _
  take_foreign s name v hname := by
    unfold ItemDraft.take
    split
    all_goals first | exact skip_bind v s | exact absurd (by decide) hname
  finish_eq_ok_iff {s r} := by
    rw [forall_mem_itemFields]
    simp only [ItemDraft.finish, bind_eq_ok_iff, need_eq_ok_iff]
    constructor
    · rintro ⟨_, hid, _, hname, _, hcategory, _, hsub, _, hcontainer, _, hprice, _, hmargin, hr⟩
      cases hr
      exact ⟨hid, hname, hcategory, hsub, hcontainer, hprice, hmargin⟩
    · rintro ⟨hid, hname, hcategory, hsub, hcontainer, hprice, hmargin⟩
      exact ⟨_, hid, _, hname, _, hcategory, _, hsub, _, hcontainer, _, hprice, _, hmargin, rfl⟩
  noFault_finish s := by
    unfold ItemDraft.finish
    iterate 7 refine (noFault_need _ _).bind fun _ _ => ?_
    exact noFault_ok _

theorem decodeItem_eq : decodeItem = itemShape.decode := by
  funext v
  cases v with
  | array ahead items =>
    apply Eq.symm
    iterate 7 refine takeFields_cons_bind (fun _ rest => ?_) _
    exact takeFields_nil_bind .item 7 _ ItemDraft.finish _
  | _ => rfl

theorem lawful_decodeItem : Lawful decodeItem := by
  rw [decodeItem_eq]
  exact itemShape.lawful_decode

/-! ### Pages -/

theorem lawful_decodeResults : Lawful decodeResults where
  plain v := by
    cases v with
    | array ahead items => exact lawful_decodeItem.decodeList_plain items
    | _ => rfl
  whole {v as} h := by
    cases v with
    | array ahead items => exact lawful_decodeItem.decodeList_whole h
    | number n => rfl
    | _ => cases h

def pageFields : List (Field PageDraft ResultPage) := [
  ⟨"query", PageDraft.query, fun d a => { d with query := some a }, ResultPage.query,
    decodeString, lawful_decodeString, fun _ _ => rfl⟩,
  ⟨"results", PageDraft.results, fun d a => { d with results := some a }, ResultPage.results,
    decodeResults, lawful_decodeResults, fun _ _ => rfl⟩,
  ⟨"prev", PageDraft.prev, fun d a => { d with prev := some a }, ResultPage.prev,
    decodeInteger, lawful_decodeInteger, fun _ _ => rfl⟩,
  ⟨"next", PageDraft.next, fun d a => { d with next := some a }, ResultPage.next,
    decodeInteger, lawful_decodeInteger, fun _ _ => rfl⟩,
  ⟨"rangeLeft", PageDraft.rangeLeft, fun d a => { d with rangeLeft := some a },
    ResultPage.rangeLeft, decodeNatural, lawful_decodeNatural, fun _ _ => rfl⟩,
  ⟨"rangeRight", PageDraft.rangeRight, fun d a => { d with rangeRight := some a },
    ResultPage.rangeRight, decodeNatural, lawful_decodeNatural, fun _ _ => rfl⟩,
  ⟨"count", PageDraft.count, fun d a => { d with count := some a }, ResultPage.count,
    decodeNatural, lawful_decodeNatural, fun _ _ => rfl⟩]

theorem forall_mem_pageFields {P : Field PageDraft ResultPage → Prop} :
    (∀ f ∈ pageFields, P f) ↔ P pageFields[0] ∧ P pageFields[1] ∧ P pageFields[2] ∧
      P pageFields[3] ∧ P pageFields[4] ∧ P pageFields[5] ∧ P pageFields[6] := by
  simp [pageFields]

def pageShape : Shape PageDraft ResultPage where
  wanted := .page
  fields := pageFields
  start := {}
  take := PageDraft.take
  finish := PageDraft.finish
  nodup_names := by decide
  slot_start := by
    rw [forall_mem_pageFields]
    exact ⟨rfl, rfl, rfl, rfl, rfl, rfl, rfl⟩
  slot_put_of_ne := by
    simp only [forall_mem_pageFields]
    refine ⟨?_, ?_, ?_, ?_, ?_, ?_, ?_⟩
    all_goals refine ⟨?_, ?_, ?_, ?_, ?_, ?_, ?_⟩
    all_goals first | exact fun _ _ _ => rfl | exact fun hne => absurd rfl hne
  take_field := by
    rw [forall_mem_pageFields]
    refine ⟨?_, ?_, ?_, ?_, ?_, ?_, ?_⟩
    all_goals exact fun s v => fill_bind _ _ _ v _
  take_foreign s name v hname := by
    unfold PageDraft.take
    split
    all_goals first | exact skip_bind v s | exact absurd (by decide) hname
  finish_eq_ok_iff {s r} := by
    rw [forall_mem_pageFields]
    simp only [PageDraft.finish, bind_eq_ok_iff, need_eq_ok_iff]
    constructor
    · rintro ⟨_, hquery, _, hresults, _, hprev, _, hnext, _, hleft, _, hright, _, hcount, hr⟩
      cases hr
      exact ⟨hquery, hresults, hprev, hnext, hleft, hright, hcount⟩
    · rintro ⟨hquery, hresults, hprev, hnext, hleft, hright, hcount⟩
      exact ⟨_, hquery, _, hresults, _, hprev, _, hnext, _, hleft, _, hright, _, hcount, rfl⟩
  noFault_finish s := by
    unfold PageDraft.finish
    iterate 7 refine (noFault_need _ _).bind fun _ _ => ?_
    exact noFault_ok _

theorem decodePage_eq : decodePage = pageShape.decode := by
  funext v
  cases v with
  | array ahead items =>
    apply Eq.symm
    iterate 7 refine takeFields_cons_bind (fun _ rest => ?_) _
    exact takeFields_nil_bind .page 7 _ PageDraft.finish _
  | _ => rfl

theorem lawful_decodePage : Lawful decodePage := by
  rw [decodePage_eq]
  exact pageShape.lawful_decode

end Stocklist.Wire
