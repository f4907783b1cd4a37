/-
  Stocklist/Proofs/Wire/Presentation.lean
  =======================================
  **What is decoded depends on the values of the fields and not on their presentation.**

  The forms and flaws of an item and of a page, where the results of a page are items in forms
  of their own, or one of them has a flaw.  With the grammar of JSON texts, and so with any
  blanks between the tokens and any spelling, what is known of values holds of texts:
  `decoding_ignores_presentation`.
-/
import Mathlib
import Stocklist.Proofs.Wire.Forms
import Stocklist.Proofs.Wire.Shapes
import Stocklist.Wire.Encode

namespace Stocklist.Wire

open Json (Value Items Members Entry)

/-! ### Lists of values -/

section

variable {α : Type} {decode : Value → Decoded α}

theorem decodeList_eq_ok_iff : ∀ {items : Items}, items.looseFault? = none → ∀ {as : List α},
    decodeList decode items = .ok as ↔ List.Forall₂ (fun v a => decode v = .ok a) items.values as
  | .close, _, as => by
    rw [decodeList, Items.values, List.forall₂_nil_left_iff, Except.ok.injEq, eq_comm]
  | .cons v rest, h, as => by
    rw [Items.looseFault?, Option.or_eq_none_iff] at h
    rw [decodeList, bind_eq_ok_iff, Items.values, List.forall₂_cons_left_iff]
    refine exists_congr fun a => ?_
    rw [bind_eq_ok_iff]
    constructor
    · rintro ⟨hv, bs, hrest, hcons⟩
      cases hcons
      exact ⟨bs, hv, (decodeList_eq_ok_iff h.2).mp hrest, rfl⟩
    · rintro ⟨bs, hv, hrest, rfl⟩
      exact ⟨hv, bs, (decodeList_eq_ok_iff h.2).mpr hrest, rfl⟩

theorem failsWithData_decodeList {front back : List Value} {w : Value}
    (hfront : ∀ v ∈ front, ∃ a, decode v = .ok a) (hw : FailsWithData (decode w)) :
    ∀ {items : Items}, items.values = front ++ w :: back →
      FailsWithData (decodeList decode items) := by
  induction front with
  | nil =>
    intro items hvalues
    cases items with
    | cons v rest =>
      cases hvalues
      rw [decodeList]
      exact hw.bind _
    | _ => cases hvalues
  | cons u front ih =>
    intro items hvalues
    cases items with
    | cons v rest =>
      obtain ⟨rfl, hrest⟩ := List.cons.inj hvalues
      rw [List.forall_mem_cons] at hfront
      obtain ⟨⟨a, hv⟩, hfront⟩ := hfront
      rw [decodeList, hv]
      exact (ih hfront hrest).bind _
    | _ => cases hvalues

end

/-! ### Items -/

def itemNames : List String :=
  ["id", "name", "category", "sub_category", "container_type", "price_per_unit", "margin"]

/-- The second value is another form of the first, an object for an item. -/
def ItemForm : Value → Value → Prop :=
  Form itemNames fun e e' => e' = e

/-- The second value is made of members of the first, an object for an item, and of others that
    are sound, but a field is missing or comes twice. -/
def ItemFlaw : Value → Value → Prop :=
  Flaw itemNames itemShape.Takes fun e e' => e' = e

theorem decodeItem_of_form {v v' : Value} {item : Item} (hok : decodeItem v = .ok item)
    (h : ItemForm v v') (hwhole : v'.looseFault? = none) : decodeItem v' = .ok item := by
  rw [decodeItem_eq] at hok ⊢
  exact Shape.decode_of_form itemShape.keeps_eq hok h hwhole

theorem failsWithData_of_itemFlaw {v v' : Value} {item : Item} (hok : decodeItem v = .ok item)
    (h : ItemFlaw v v') (hwhole : v'.looseFault? = none) : FailsWithData (decodeItem v') := by
  rw [decodeItem_eq] at hok ⊢
  exact Shape.failsWithData_of_flaw itemShape.keeps_eq hok h hwhole

/-! ### Pages -/

def pageNames : List String :=
  ["query", "results", "prev", "next", "rangeLeft", "rangeRight", "count"]

/-- A member of a page, and the same with some of its results in other forms. -/
inductive PageMember : Entry → Entry → Prop where
  | same {e : Entry} : PageMember e e
  | results {ahead ahead' : List Char} {items items' : Items} :
      List.Forall₂ (fun w w' => w' = w ∨ ItemForm w w') items.values items'.values →
        PageMember (.ok "results", .array ahead items) (.ok "results", .array ahead' items')

/-- A member of a page, and the same with a flaw in one of its results.  What comes after that
    is left open. -/
inductive SpoiledMember : Entry → Entry → Prop where
  | same {e : Entry} : e.1 ≠ .ok "results" → SpoiledMember e e
  | results {ahead ahead' : List Char} {items items' : Items} {front back : List Value}
      {w w' : Value} :
      items'.values = front ++ w' :: back →
        (∀ u' ∈ front, ∃ u ∈ items.values, u' = u ∨ ItemForm u u') →
          w ∈ items.values → ItemFlaw w w' →
            SpoiledMember (.ok "results", .array ahead items) (.ok "results", .array ahead' items')

/-- The second value is another form of the first, an object for a page. -/
def PageForm : Value → Value → Prop :=
  Form pageNames PageMember

/-- The second value is made of members of the first, an object for a page, and of others that
    are sound, but a field is missing or comes twice, in the page itself or in one of its
    results. -/
inductive PageFlaw (v v' : Value) : Prop where
  | page : Flaw pageNames pageShape.Takes PageMember v v' → PageFlaw v v'
  | item : Form pageNames SpoiledMember v v' → PageFlaw v v'

def resultsField : Field PageDraft ResultPage := pageFields[1]

theorem resultsField_mem : resultsField ∈ pageShape.fields :=
  List.getElem_mem _

theorem decodeItem_of_same_or_form {v v' : Value} {item : Item} (hok : decodeItem v = .ok item)
    (h : v' = v ∨ ItemForm v v') (hwhole : v'.looseFault? = none) : decodeItem v' = .ok item := by
  rcases h with rfl | h
  · exact hok
  · exact decodeItem_of_form hok h hwhole

theorem forall₂_decodeItem {vs vs' : List Value}
    (h : List.Forall₂ (fun w w' => w' = w ∨ ItemForm w w') vs vs')
    (hwhole : ∀ w' ∈ vs', w'.looseFault? = none) {as : List Item}
    (hok : List.Forall₂ (fun w a => decodeItem w = .ok a) vs as) :
    List.Forall₂ (fun w a => decodeItem w = .ok a) vs' as := by
  induction h generalizing as with
  | nil => exact hok
  | cons hw _ ih =>
    cases hok with
    | cons ha hrest =>
      rw [List.forall_mem_cons] at hwhole
      exact .cons (decodeItem_of_same_or_form ha hw hwhole.1) (ih hwhole.2 hrest)

theorem keeps_pageMember : pageShape.Keeps PageMember where
  name h := by cases h <;> rfl
  has {r e e'} h hmember hwhole := by
    cases hmember with
    | same => exact h
    | @results ahead ahead' items items' hitems =>
      have hok : decodeList decodeItem items = .ok r.results := h.value _ resultsField_mem rfl
      refine Shape.has_of_decode_field resultsField_mem ?_
      have hwholes := fun w' (hw' : w' ∈ items'.values) => items'.looseFault?_of_mem hwhole hw'
      rw [decodeList_eq_ok_iff (lawful_decodeItem.decodeList_whole hok)] at hok
      exact (decodeList_eq_ok_iff hwhole).mpr (forall₂_decodeItem hitems hwholes hok)

theorem failsWithData_of_spoiledMember {r : ResultPage} {e e' : Entry} (h : pageShape.Has r e)
    (hspoiled : SpoiledMember e e') (hname : e.1 = .ok "results")
    (hwhole : e'.2.looseFault? = none) : FailsWithData (decodeResults e'.2) := by
  cases hspoiled with
  | same hne => exact absurd hname hne
  | @results ahead ahead' items items' front back w w' hvalues hfront hw hflaw =>
    have hok : decodeList decodeItem items = .ok r.results := h.value _ resultsField_mem rfl
    rw [decodeList_eq_ok_iff (lawful_decodeItem.decodeList_whole hok)] at hok
    have hitem : ∀ u ∈ items.values, ∃ a, decodeItem u = .ok a := by
      intro u hu
      obtain ⟨a, -, ha⟩ := exists_of_mem_forall₂ hok.flip hu
      exact ⟨a, ha⟩
    have hwholes : ∀ u' ∈ front ++ w' :: back, u'.looseFault? = none := by
      rw [← hvalues]
      exact fun u' hu' => items'.looseFault?_of_mem hwhole hu'
    refine failsWithData_decodeList (fun u' hu' => ?_) ?_ hvalues
    · obtain ⟨u, hu, hform⟩ := hfront u' hu'
      obtain ⟨a, ha⟩ := hitem u hu
      exact ⟨a, decodeItem_of_same_or_form ha hform (hwholes u' (List.mem_append_left _ hu'))⟩
    · obtain ⟨a, ha⟩ := hitem w hw
      exact failsWithData_of_itemFlaw ha hflaw (hwholes w' List.mem_append_cons_self)

theorem tolerates_of_spoiledMember {r : ResultPage} {e e' : Entry} (h : pageShape.Has r e)
    (hspoiled : SpoiledMember e e') (hwhole : e'.2.looseFault? = none) :
    pageShape.Tolerates e' := by
  have hname : e'.1 = e.1 := by cases hspoiled <;> rfl
  by_cases hresults : e.1 = .ok "results"
  · refine ⟨⟨_, hname.trans hresults⟩, hwhole, fun f hf hf' => ?_⟩
    obtain rfl : resultsField = f := Shape.eq_of_name_eq resultsField_mem hf
      (Except.ok.inj ((hname.trans hresults).symm.trans hf'))
    exact (failsWithData_of_spoiledMember h hspoiled hresults hwhole).noFault
  · cases hspoiled with
    | same _ => exact h.tolerates hwhole
    | results _ _ _ _ => exact absurd rfl hresults

theorem decodePage_of_form {v v' : Value} {page : ResultPage} (hok : decodePage v = .ok page)
    (h : PageForm v v') (hwhole : v'.looseFault? = none) : decodePage v' = .ok page := by
  rw [decodePage_eq] at hok ⊢
  exact Shape.decode_of_form keeps_pageMember hok h hwhole

theorem failsWithData_of_pageFlaw {v v' : Value} {page : ResultPage}
    (hok : decodePage v = .ok page) (h : PageFlaw v v') (hwhole : v'.looseFault? = none) :
    FailsWithData (decodePage v') := by
  rw [decodePage_eq] at hok ⊢
  cases h with
  | page h => exact Shape.failsWithData_of_flaw keeps_pageMember hok h hwhole
  | item h =>
    apply Shape.failsWithData_of_spoiled _ hok h hwhole tolerates_of_spoiledMember resultsField_mem
    · exact fun hu h hwhole => failsWithData_of_spoiledMember hu h rfl hwhole
    · intro e e' h
      cases h <;> rfl

/-! ### Texts -/

theorem ofText_of_forms {α : Type} {decode : Value → Decoded α} (h : Lawful decode)
    {form flaw : Value → Value → Prop}
    (hform : ∀ {v v' a}, decode v = .ok a → form v v' → v'.looseFault? = none → decode v' = .ok a)
    (hflaw : ∀ {v v' a}, decode v = .ok a → flaw v v' → v'.looseFault? = none →
      FailsWithData (decode v')) {text : String} {a : α} (hok : ofText decode text = .ok a) :
    (∃ v : Value, v.WrittenIn text) ∧ ∀ (v v' : Value) (text' : String),
      v.WrittenIn text → v'.WrittenIn text' →
        (form v v' → ofText decode text' = .ok a) ∧
        (flaw v v' → FailsWithData (ofText decode text')) := by
  refine ⟨exists_writtenIn_of_ofText h hok, fun v v' text' hv hv' => ?_⟩
  have hdecode := (ofText_eq_ok_iff h hv).mp hok
  have hwhole : v'.looseFault? = none := Value.Padded.looseFault?_eq hv'
  constructor
  · intro hrel
    exact (ofText_eq_ok_iff h hv').mpr (hform hdecode hrel hwhole)
  · intro hrel
    exact (failsWithData_ofText_iff h hv').mpr (hflaw hdecode hrel hwhole)

/-- **What is decoded depends on the values of the fields only.**  A text that is decoded as an
    item is a JSON text.  If it is one of an object `v`, then every text of every other form of
    `v` is decoded as the same item, whatever blanks are in it: the members in any order, members
    with other names and with any values among them, or the array of the field values.  Every
    text of an object that lacks a field of `v`, or has one twice, be it with another value, is
    refused, and not for a fault of the text.  The same holds of pages, each of whose results may
    be in a form of its own, or have a flaw.  (An array that goes on after the fields is a fault
    of the text.) -/
theorem decoding_ignores_presentation (text : String) :
    (∀ item, itemOfText text = .ok item →
      (∃ v : Value, v.WrittenIn text) ∧ ∀ (v v' : Value) (text' : String),
        v.WrittenIn text → v'.WrittenIn text' →
          (ItemForm v v' → itemOfText text' = .ok item) ∧
          (ItemFlaw v v' → FailsWithData (itemOfText text'))) ∧
    ∀ page, pageOfText text = .ok page →
      (∃ v : Value, v.WrittenIn text) ∧ ∀ (v v' : Value) (text' : String),
        v.WrittenIn text → v'.WrittenIn text' →
          (PageForm v v' → pageOfText text' = .ok page) ∧
          (PageFlaw v v' → FailsWithData (pageOfText text')) := by
  constructor
  · intro item hok
    exact ofText_of_forms lawful_decodeItem decodeItem_of_form failsWithData_of_itemFlaw hok
  · intro page hok
    exact ofText_of_forms lawful_decodePage decodePage_of_form failsWithData_of_pageFlaw hok

/-- The first members of a tea, and those in `rest`. -/
def teaMembers (rest : Members) : Members :=
  .cons (.ok "id") (.number (.natural 1)) <| .cons (.ok "name") (.string "Green") <|
  .cons (.ok "category") (.string "a") <| .cons (.ok "sub_category") (.string "b") <|
  .cons (.ok "container_type") (.string "c") <|
  .cons (.ok "price_per_unit") (.number (.natural 2)) rest

def teaMargin : Members :=
  .cons (.ok "margin") (.number (.natural 3)) .close

def teaValues : Items :=
  .cons (.number (.natural 1)) <| .cons (.string "Green") <| .cons (.string "a") <|
  .cons (.string "b") <| .cons (.string "c") <| .cons (.number (.natural 2)) <|
  .cons (.number (.natural 3)) .close

def teaTexts : List (String × List Char) := [
  ("id", ['1']), ("name", stringText "Green"), ("category", stringText "a"),
  ("sub_category", stringText "b"), ("container_type", stringText "c"),
  ("price_per_unit", ['2'])]

def teaText : List Char :=
  objectText (teaTexts ++ [("margin", ['3'])])

def marginlessTeaText : List Char :=
  objectText teaTexts

/-- The tea as an array, with blanks in it. -/
def teaArrayText : List Char :=
  '[' :: ' ' :: Text.join ',' (teaTexts.map (·.2) ++ [['3', '\n', ']']])

/-- The members of a page after its query and its results. -/
def lastMembers : Members :=
  .cons (.ok "prev") (.number (.natural 1)) <| .cons (.ok "next") (.number (.natural 1)) <|
  .cons (.ok "rangeLeft") (.number (.natural 1)) <|
  .cons (.ok "rangeRight") (.number (.natural 1)) <|
  .cons (.ok "count") (.number (.natural 1)) .close

def lastTexts : List (String × List Char) := [
  ("prev", ['1']), ("next", ['1']), ("rangeLeft", ['1']), ("rangeRight", ['1']), ("count", ['1'])]

/-- A page with one result. -/
def teaPageText (result : List Char) : List Char :=
  objectText (("query", stringText "") :: ("results", arrayText [result]) :: lastTexts)

def teaPageMembers (text : List Char) (result : Members) : Members :=
  .cons (.ok "query") (.string "") <|
  .cons (.ok "results") (.array (text.drop 22) (.cons (.object (text.drop 23) result) .close))
    lastMembers

/-- The page with its results in front of the query, after a member with another name. -/
def turnedPageText : List Char :=
  objectText (("note", "[\x7b\"count\" : null\x7d]".toList) ::
    ("results", arrayText [teaArrayText]) :: ("query", stringText "") :: lastTexts)

def turnedPageMembers : Members :=
  .cons (.ok "note") (.array (turnedPageText.drop 8)
    (.cons (.object (turnedPageText.drop 9) (.cons (.ok "count") .null .close)) .close)) <|
  .cons (.ok "results") (.array (turnedPageText.drop 37)
    (.cons (.array (turnedPageText.drop 38) teaValues) .close)) <|
  .cons (.ok "query") (.string "") lastMembers

theorem writtenIn_ofList {v : Value} {cs : List Char} (h : Json.Document.ofText cs = ⟨v, none⟩)
    (hwhole : v.looseFault? = none) : v.WrittenIn (String.ofList cs) :=
  Json.writtenIn_of_document (by rw [String.toList_ofList, h]) hwhole

theorem writtenIn_turnedPageText :
    (Value.object turnedPageText turnedPageMembers).WrittenIn (String.ofList turnedPageText) :=
  writtenIn_ofList (by cbv) rfl

theorem writtenIn_teaPageText :
    (Value.object (teaPageText teaText) (teaPageMembers (teaPageText teaText)
      (teaMembers teaMargin))).WrittenIn (String.ofList (teaPageText teaText)) :=
  writtenIn_ofList (by cbv) rfl

theorem writtenIn_marginlessPageText :
    (Value.object (teaPageText marginlessTeaText) (teaPageMembers (teaPageText marginlessTeaText)
      (teaMembers .close))).WrittenIn (String.ofList (teaPageText marginlessTeaText)) :=
  writtenIn_ofList (by cbv) rfl

theorem itemForm_tea (ahead ahead' : List Char) :
    ItemForm (.object ahead (teaMembers teaMargin)) (.array ahead' teaValues) := by
  refine .array (List.forall₂_same.mpr fun _ _ => rfl) ?_
  simp [itemNames, teaValues, Items.values, teaMembers, teaMargin, Members.entries]

theorem itemFlaw_tea (ahead ahead' : List Char) :
    ItemFlaw (.object ahead (teaMembers teaMargin)) (.object ahead' (teaMembers .close)) := by
  refine .omits (by decide : "margin" ∈ itemNames) (fun e he => .inr (.inl ⟨e, ?_, rfl⟩)) ?_
  · exact List.mem_append_left [(.ok "margin", .number (.natural 3))] he
  · simp [teaMembers, Members.entries]

theorem pageForm_tea (text ahead ahead' : List Char) :
    PageForm (.object ahead (teaPageMembers text (teaMembers teaMargin)))
      (.object ahead' turnedPageMembers) := by
  let query : Entry := (.ok "query", .string "")
  let note : Entry := (.ok "note", .array (turnedPageText.drop 8)
    (.cons (.object (turnedPageText.drop 9) (.cons (.ok "count") .null .close)) .close))
  let results : Entry := (.ok "results", .array (turnedPageText.drop 37)
    (.cons (.array (turnedPageText.drop 38) teaValues) .close))
  have hkept : List.Forall₂ PageMember (teaPageMembers text (teaMembers teaMargin)).entries
      (query :: results :: lastMembers.entries) :=
    .cons .same (.cons (.results (.cons (Or.inr (itemForm_tea _ _)) .nil))
      (List.forall₂_same.mpr fun _ _ => .same))
  have hperm : (note :: results :: query :: lastMembers.entries).Perm
      (query :: results :: lastMembers.entries ++ [note]) :=
    ((List.Perm.swap query results _).cons note).trans (List.perm_append_singleton note _).symm
  refine .object hkept ⟨[note], ?_, hperm⟩
  exact List.forall_mem_singleton.mpr ⟨"note", rfl, by decide⟩

theorem pageFlaw_tea (text text' ahead ahead' : List Char) :
    PageFlaw (.object ahead (teaPageMembers text (teaMembers teaMargin)))
      (.object ahead' (teaPageMembers text' (teaMembers .close))) := by
  have hresults : SpoiledMember
      (.ok "results", .array (text.drop 22)
        (.cons (.object (text.drop 23) (teaMembers teaMargin)) .close))
      (.ok "results", .array (text'.drop 22)
        (.cons (.object (text'.drop 23) (teaMembers .close)) .close)) :=
    .results (List.nil_append _).symm (List.forall_mem_nil _) List.mem_cons_self
      (itemFlaw_tea _ _)
  have hlast : ∀ e ∈ lastMembers.entries, e.1 ≠ .ok "results" := by
    simp [lastMembers, Members.entries]
  refine .item (.object (.cons (.same ?_) (.cons hresults
    (List.forall₂_same.mpr fun e he => .same (hlast e he)))) ⟨[], List.forall_mem_nil _, ?_⟩)
  · exact fun h => absurd (Except.ok.inj h) (by decide)
  · rw [List.append_nil]
    exact List.Perm.refl _

theorem decoding_ignores_presentation_of_tea :
    let tea : Item := ⟨1, "Green", "a", "b", "c", .ofMagnitude false (Magnitude.ofNat 2),
      .ofMagnitude false (Magnitude.ofNat 3)⟩
    let page : ResultPage := ⟨"", [tea], 1, 1, 1, 1, 1⟩
    itemOfText (String.ofList teaText) = .ok tea ∧
      itemOfText (String.ofList teaArrayText) = .ok tea ∧
      FailsWithData (itemOfText (String.ofList marginlessTeaText)) ∧
      pageOfText (String.ofList (teaPageText teaText)) = .ok page ∧
      pageOfText (String.ofList turnedPageText) = .ok page ∧
      FailsWithData (pageOfText (String.ofList (teaPageText marginlessTeaText))) := by
  intro tea page
  have htea : (Value.object teaText (teaMembers teaMargin)).WrittenIn (String.ofList teaText) :=
    writtenIn_ofList rfl rfl
  have harray : (Value.array teaArrayText teaValues).WrittenIn (String.ofList teaArrayText) :=
    writtenIn_ofList rfl rfl
  have hmarginless : (Value.object marginlessTeaText (teaMembers .close)).WrittenIn
      (String.ofList marginlessTeaText) := writtenIn_ofList rfl rfl
  have hok : itemOfText (String.ofList teaText) = .ok tea :=
    (ofText_eq_ok_iff lawful_decodeItem htea).mpr rfl
  have hpageOk : pageOfText (String.ofList (teaPageText teaText)) = .ok page :=
    (ofText_eq_ok_iff lawful_decodePage writtenIn_teaPageText).mpr rfl
  obtain ⟨-, hitems⟩ := (decoding_ignores_presentation _).1 tea hok
  obtain ⟨-, hpages⟩ := (decoding_ignores_presentation _).2 page hpageOk
  exact ⟨hok, (hitems _ _ _ htea harray).1 (itemForm_tea _ _),
    (hitems _ _ _ htea hmarginless).2 (itemFlaw_tea _ _), hpageOk,
    (hpages _ _ _ writtenIn_teaPageText writtenIn_turnedPageText).1 (pageForm_tea _ _ _),
    (hpages _ _ _ writtenIn_teaPageText writtenIn_marginlessPageText).2 (pageFlaw_tea _ _ _ _)⟩

end Stocklist.Wire
