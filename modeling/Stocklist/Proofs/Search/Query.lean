/-
  Stocklist/Proofs/Search/Query.lean
  ==================================
  **A query is read from the first `q` and the first `page`, and from nothing else.**

  One pass over the parameters is enough: there is a slot for the text and one for the page,
  and a slot that is taken stays as it is (`Slots.foldl_take`).  The page is the positive
  64-bit integer that the first `page` denotes, with a plus sign and leading zeros or
  without; in every other case it is 1, also if a later `page` would do.

  So a list of parameters may be changed in many ways without any effect (`Unnoticed`):
  others may come in anywhere, a key may come again, a `q` and a `page` may change places.
-/
import Mathlib.Logic.Relation
import Stocklist.Proofs.Numeral
import Stocklist.Proofs.Search.Window
import Stocklist.Search.Query

namespace Stocklist.Query

/-! ### Page numbers -/

theorem ofPage_eq_max (text : String) (page : Int64) : ofPage text page = ⟨text, max page 1⟩ := by
  rw [ofPage]
  rcases one_le_or_nonpos page with h | h
  · have hpos : ¬ page ≤ 0 := by
      intro hle
      exact absurd (Int64.le_trans h hle) (by decide)
    rw [if_neg hpos, max_one_of_pos h]
  · rw [if_pos h, max_one_of_nonpos h]

/-- `NamesPage value n`: the value is a numeral of the page number `n`. -/
def NamesPage (value : String) (n : Nat) : Prop :=
  (Numeral.IsDigits value.toList n ∨
    ∃ digits, value.toList = '+' :: digits ∧ Numeral.IsDigits digits n) ∧
  1 ≤ n ∧ n ≤ 2 ^ 63 - 1

theorem namesPage_iff {value : String} {n : Nat} :
    NamesPage value n ↔ ∃ page, Numeral.readInt64 value = .ok page ∧ 1 ≤ page ∧ page.toInt = n := by
  constructor
  · rintro ⟨hvalue, hpos, hle⟩
    have hn : (Int64.ofNat n).toInt = n := Int64.toInt_ofNat_of_lt (by omega)
    refine ⟨Int64.ofNat n, ?_, ?_, hn⟩
    · rw [Numeral.readInt64_eq_ok_iff, hn]
      exact (Numeral.denotes_pos_iff hpos).mpr hvalue
    · rw [Int64.le_iff_toInt_le, Int64.toInt_one, hn]
      omega
  · rintro ⟨page, hread, hpos, hn⟩
    have hlt : page.toInt < 2 ^ 63 := page.toInt_lt
    rw [Int64.le_iff_toInt_le, Int64.toInt_one] at hpos
    rw [Numeral.readInt64_eq_ok_iff, hn] at hread
    have hn' : 1 ≤ n := by omega
    exact ⟨(Numeral.denotes_pos_iff hn').mp hread, hn', by omega⟩

/-! ### One pass over the parameters -/

/-- The values that a reader has taken from the parameters so far. -/
structure Slots where
  text : Option String
  page : Option String

namespace Slots

/-- A value is taken if it is the first of its key. -/
def take (s : Slots) (pair : String × String) : Slots :=
  if pair.1 = "q" ∧ s.text = none then { s with text := some pair.2 }
  else if pair.1 = "page" ∧ s.page = none then { s with page := some pair.2 }
  else s

def query (s : Slots) : Query :=
  let page := s.page.bind fun value => (Numeral.readInt64 value).toOption
  ofPage (s.text.getD "") (page.getD 1)

theorem take_eq (s : Slots) (pair : String × String) :
    s.take pair = ⟨s.text.or ([pair].lookup "q"), s.page.or ([pair].lookup "page")⟩ := by
  obtain ⟨key, value⟩ := pair
  obtain ⟨text, page⟩ := s
  by_cases hq : key = "q"
  · subst hq
    cases text <;> simp [take, List.lookup_cons]
  · by_cases hpage : key = "page"
    · subst hpage
      cases page <;> simp [take, List.lookup_cons]
    · have hq' : ("q" == key) = false := beq_false_of_ne (Ne.symm hq)
      have hpage' : ("page" == key) = false := beq_false_of_ne (Ne.symm hpage)
      simp [take, hq, hpage, List.lookup_cons, hq', hpage']

/-- A slot that is taken stays as it is, an open one takes the first value of its key. -/
theorem foldl_take (s : Slots) (pairs : List (String × String)) :
    pairs.foldl take s =
      ⟨s.text.or (pairs.lookup "q"), s.page.or (pairs.lookup "page")⟩ := by
  induction pairs generalizing s with
  | nil => simp
  | cons pair pairs ih =>
    have hsplit : pair :: pairs = [pair] ++ pairs := rfl
    rw [List.foldl_cons, ih, take_eq, hsplit, List.lookup_append, List.lookup_append,
      Option.or_assoc, Option.or_assoc]

end Slots

theorem ofPairs_eq_foldl (pairs : List (String × String)) :
    ofPairs pairs = (pairs.foldl Slots.take ⟨none, none⟩).query := by
  rw [Slots.foldl_take]
  rfl

/-! ### The first value of a key -/

/-- `FirstValue key pairs value`: the first of the pairs with this key has this value. -/
def FirstValue (key : String) (pairs : List (String × String)) (value : String) : Prop :=
  ∃ before after, pairs = before ++ (key, value) :: after ∧ ∀ e ∈ before, e.1 ≠ key

theorem firstValue_iff {key value : String} {pairs : List (String × String)} :
    FirstValue key pairs value ↔ pairs.lookup key = some value := by
  rw [List.lookup_eq_some_iff]
  simp only [FirstValue, bne_iff_ne, ne_comm]

theorem lookup_eq_none_iff {key : String} {pairs : List (String × String)} :
    pairs.lookup key = none ↔ ∀ e ∈ pairs, e.1 ≠ key := by
  rw [List.lookup_eq_none_iff]
  simp only [bne_iff_ne, ne_comm]

section Values

variable {pairs : List (String × String)}

theorem text_of_firstValue {text : String} (h : FirstValue "q" pairs text) :
    (ofPairs pairs).text = text := by
  rw [firstValue_iff] at h
  rw [ofPairs, ofPage, h, Option.getD_some]

theorem text_of_absent (h : ∀ e ∈ pairs, e.1 ≠ "q") : (ofPairs pairs).text = "" := by
  rw [← lookup_eq_none_iff] at h
  rw [ofPairs, ofPage, h, Option.getD_none]

theorem page_ofPairs (pairs : List (String × String)) :
    (ofPairs pairs).page =
      max (((pairs.lookup "page").bind fun value =>
        (Numeral.readInt64 value).toOption).getD 1) 1 := by
  rw [ofPairs, ofPage_eq_max]

theorem page_of_namesPage {value : String} {n : Nat} (hfirst : FirstValue "page" pairs value)
    (hn : NamesPage value n) : (ofPairs pairs).page.toInt = n := by
  obtain ⟨page, hread, hpos, hpage⟩ := namesPage_iff.mp hn
  have htaken : ((pairs.lookup "page").bind fun value =>
      (Numeral.readInt64 value).toOption) = some page := by
    rw [firstValue_iff.mp hfirst, Option.bind_some, hread]
    rfl
  rw [page_ofPairs, htaken, Option.getD_some, max_one_of_pos hpos, hpage]

/-- Without a page number in the first `page` the page is 1, whatever is wrong with it. -/
theorem page_of_not_namesPage
    (h : ¬ ∃ value n, FirstValue "page" pairs value ∧ NamesPage value n) :
    (ofPairs pairs).page = 1 := by
  rw [page_ofPairs]
  cases hfirst : pairs.lookup "page" with
  | none => rfl
  | some value =>
    rw [Option.bind_some]
    cases hread : Numeral.readInt64 value with
    | error fault => rfl
    | ok page =>
      refine max_one_of_nonpos ((one_le_or_nonpos page).resolve_left ?_)
      intro hpos
      rw [Int64.le_iff_toInt_le, Int64.toInt_one] at hpos
      have hn : page.toInt = (page.toInt.toNat : Int) := by omega
      refine h ⟨value, page.toInt.toNat, firstValue_iff.mpr hfirst, namesPage_iff.mpr ?_⟩
      exact ⟨page, hread, Int64.le_iff_toInt_le.mpr hpos, hn⟩

theorem one_le_page (pairs : List (String × String)) : 1 ≤ (ofPairs pairs).page := by
  rw [page_ofPairs]
  exact one_le_max _

end Values

/-! ### Changes without effect -/

/-- One change to a list of parameters that a reader does not notice. -/
inductive Unnoticed : List (String × String) → List (String × String) → Prop where
  /-- A parameter that nobody reads comes in. -/
  | other {before after : List (String × String)} {pair : String × String} :
      pair.1 ≠ "q" → pair.1 ≠ "page" → Unnoticed (before ++ after) (before ++ pair :: after)
  /-- A key comes again. -/
  | repeated {before after : List (String × String)} {pair : String × String} :
      pair.1 ∈ before.map Prod.fst → Unnoticed (before ++ after) (before ++ pair :: after)
  /-- A text and a page beside each other change places. -/
  | exchange {before after : List (String × String)} {text page : String} :
      Unnoticed (before ++ ("q", text) :: ("page", page) :: after)
        (before ++ ("page", page) :: ("q", text) :: after)

theorem lookup_insert_of_ne {key : String} {before after : List (String × String)}
    {pair : String × String} (h : pair.1 ≠ key) :
    (before ++ pair :: after).lookup key = (before ++ after).lookup key := by
  have hne : (key == pair.1) = false := beq_false_of_ne h.symm
  rw [List.lookup_append, List.lookup_append, List.lookup_cons, hne]

theorem lookup_insert_of_mem {key : String} {before after : List (String × String)}
    {pair : String × String} (h : pair.1 ∈ before.map Prod.fst) :
    (before ++ pair :: after).lookup key = (before ++ after).lookup key := by
  by_cases hkey : pair.1 = key
  · have htaken : (before.lookup key).isSome := by
      obtain ⟨e, he, hsame⟩ := List.mem_map.mp h
      rw [List.lookup_isSome_iff]
      exact ⟨e, he, beq_iff_eq.mpr (hkey.symm.trans hsame.symm)⟩
    rw [List.lookup_append, List.lookup_append, Option.or_of_isSome htaken,
      Option.or_of_isSome htaken]
  · exact lookup_insert_of_ne hkey

theorem Unnoticed.ofPairs_eq {pairs pairs' : List (String × String)}
    (h : Unnoticed pairs pairs') : ofPairs pairs' = ofPairs pairs := by
  cases h with
  | other hq hpage => rw [ofPairs, lookup_insert_of_ne hq, lookup_insert_of_ne hpage, ofPairs]
  | repeated hkey => rw [ofPairs, lookup_insert_of_mem hkey, lookup_insert_of_mem hkey, ofPairs]
  | exchange => simp [ofPairs, List.lookup_append, List.lookup_cons]

/-- Any number of changes that are not noticed one by one is not noticed. -/
theorem ofPairs_eq_of_eqvGen {pairs pairs' : List (String × String)}
    (h : Relation.EqvGen Unnoticed pairs pairs') : ofPairs pairs' = ofPairs pairs := by
  induction h with
  | rel _ _ h => exact h.ofPairs_eq
  | refl _ => rfl
  | symm _ _ _ ih => exact ih.symm
  | trans _ _ _ _ _ ih₁ ih₂ => exact ih₂.trans ih₁

/-! ### The main statement -/

/-- **A query is read from the first `q` and the first `page`, and from nothing else.**  The
    text is the value of the first `q`, or empty without one.  The page is the number in
    the first `page` if that is an optional plus sign and digits of a positive 64-bit
    integer, and 1 in every other case; so it is at least 1.  Any number of changes as in
    `Unnoticed`, forth and back, leaves the query as it is. -/
theorem ofPairs_reads_first_values (pairs : List (String × String)) :
    ofPairs pairs = (pairs.foldl Slots.take ⟨none, none⟩).query ∧
    (∀ text, FirstValue "q" pairs text → (ofPairs pairs).text = text) ∧
    ((∀ e ∈ pairs, e.1 ≠ "q") → (ofPairs pairs).text = "") ∧
    (∀ value n, FirstValue "page" pairs value → NamesPage value n →
      (ofPairs pairs).page.toInt = n) ∧
    ((¬ ∃ value n, FirstValue "page" pairs value ∧ NamesPage value n) →
      (ofPairs pairs).page = 1) ∧
    1 ≤ (ofPairs pairs).page ∧
    (∀ pairs', Relation.EqvGen Unnoticed pairs pairs' → ofPairs pairs' = ofPairs pairs) := by
  refine ⟨ofPairs_eq_foldl pairs, ?_, text_of_absent, ?_, page_of_not_namesPage,
    one_le_page pairs, ?_⟩
  · intro text hfirst
    exact text_of_firstValue hfirst
  · intro value n hfirst hn
    exact page_of_namesPage hfirst hn
  · intro pairs' h
    exact ofPairs_eq_of_eqvGen h

/-- A page with a plus sign and zeros, then another one, read as if text and page stood alone;
    and a page that is no integer before one that is, with a key in the wrong case. -/
theorem ofPairs_reads_first_values_repeated :
    let pairs := [("page", "+007"), ("q", "tea"), ("page", "5")]
    let pairs' := [("page", "1.5"), ("page", "3"), ("Q", "tea")]
    (FirstValue "q" pairs "tea" ∧ (ofPairs pairs).text = "tea") ∧
    (FirstValue "page" pairs "+007" ∧ NamesPage "+007" 7 ∧ (ofPairs pairs).page.toInt = 7) ∧
    (Relation.EqvGen Unnoticed pairs [("q", "tea"), ("page", "+007")] ∧
      ofPairs [("q", "tea"), ("page", "+007")] = ofPairs pairs) ∧
    ((∀ e ∈ pairs', e.1 ≠ "q") ∧ (ofPairs pairs').text = "") ∧
    ((¬ ∃ value n, FirstValue "page" pairs' value ∧ NamesPage value n) ∧
      (ofPairs pairs').page = 1) := by
  intro pairs pairs'
  obtain ⟨-, htext, -, hpage, -, -, hchanged⟩ := ofPairs_reads_first_values pairs
  obtain ⟨-, -, habsent, -, hother, -, -⟩ := ofPairs_reads_first_values pairs'
  have hq : FirstValue "q" pairs "tea" := firstValue_iff.mpr rfl
  have hfirst : FirstValue "page" pairs "+007" := firstValue_iff.mpr rfl
  have hseven : NamesPage "+007" 7 :=
    ⟨Or.inr ⟨['0', '0', '7'], rfl, by decide, [0, 0, 7], by decide, rfl⟩, by decide, by decide⟩
  have hrest : Unnoticed [("page", "+007"), ("q", "tea")] pairs :=
    @Unnoticed.repeated [("page", "+007"), ("q", "tea")] [] ("page", "5") (by decide)
  have horder : Unnoticed [("q", "tea"), ("page", "+007")] [("page", "+007"), ("q", "tea")] :=
    @Unnoticed.exchange [] [] "tea" "+007"
  have hsame : Relation.EqvGen Unnoticed pairs [("q", "tea"), ("page", "+007")] :=
    .trans _ _ _ (.symm _ _ (.rel _ _ hrest)) (.symm _ _ (.rel _ _ horder))
  have hnone : ∀ e ∈ pairs', e.1 ≠ "q" := by decide
  have hbad : ¬ ∃ value n, FirstValue "page" pairs' value ∧ NamesPage value n := by
    rintro ⟨value, n, hvalue, hn⟩
    have hsome : some "1.5" = some value := firstValue_iff.mp hvalue
    obtain rfl := Option.some.inj hsome
    obtain ⟨page, hread, -, -⟩ := namesPage_iff.mp hn
    have hfault : Numeral.readInt64 "1.5" = .error .notDigit := by decide
    rw [hfault] at hread
    cases hread
  exact ⟨⟨hq, htext _ hq⟩, ⟨hfirst, hseven, hpage _ _ hfirst hseven⟩,
    ⟨hsame, hchanged _ hsame⟩, ⟨hnone, habsent hnone⟩, ⟨hbad, hother hbad⟩⟩

end Stocklist.Query
