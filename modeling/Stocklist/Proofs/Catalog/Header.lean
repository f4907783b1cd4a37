/-
  Stocklist/Proofs/Catalog/Header.lean
  ====================================
  **A header takes the first row away and nothing else.**

  With a header, the row after it is read in one go with it.  That shows only in the place
  at which a fault of this row is reported: wherever reading succeeds, the rows after the
  first are read alike with a header and without (`readAll_skipHeader`).  So a catalog that
  loads without a header loads with one, less its first item and the remarks on it.  The
  other way round the first row must give an item: it has as many fields as the rows after
  it, so it is enough that these are texts.
-/
import Stocklist.Proofs.Catalog.Remarks

namespace Stocklist.Catalog

open Csv (Position Row)

theorem exists_readRow_of_cons {row : Except LoadError (Item × List Remark)} {rest : Reading}
    (h : (Reading.cons row rest).failure = none) :
    ∃ entry, row = .ok entry ∧ rest.failure = none := by
  cases row with
  | error e => cases h
  | ok entry => exact ⟨entry, rfl, h⟩

/-- A row that is read is read alike at any place. -/
theorem cons_readRow_congr {width : Nat} {p : Position} {row : Row} {rest : Reading}
    (h : (Reading.cons (readRow width p row) rest).failure = none) (q : Position) :
    Reading.cons (readRow width q row) rest = Reading.cons (readRow width p row) rest := by
  obtain ⟨entry, hrow, -⟩ := exists_readRow_of_cons h
  have hrow' : readRow width q row = .ok entry :=
    readRow_eq_ok_iff.mpr (readRow_eq_ok_iff.mp hrow)
  rw [hrow, hrow']

/-- The rows after a header are read as they are without it, if either reading succeeds. -/
theorem readAll_skipHeader {first : Row} {rest : List Row}
    (h : (readAll ⟨true⟩ (first :: rest)).failure = none ∨
      (readRows first.fields.length rest).failure = none) :
    readAll ⟨true⟩ (first :: rest) = readRows first.fields.length rest := by
  cases rest with
  | nil => rfl
  | cons second rest =>
    rcases h with h | h
    · exact (cons_readRow_congr h second.position).symm
    · exact cons_readRow_congr h first.position

section OneSource

variable {s : Source} {c : Catalog}

theorem load_skipHeader_of_load (h : (load ⟨false⟩ s).result = .ok c) :
    (load ⟨true⟩ s).result = .ok ⟨c.items.tail⟩ ∧
      ∃ own, AccountsFor (s.rows.take 1) own ∧ c.items = own.map (·.1) ++ c.items.tail ∧
        (load ⟨false⟩ s).remarks = own.flatMap (·.2) ++ (load ⟨true⟩ s).remarks := by
  rw [load_eq_ok_iff_readAll] at h ⊢
  rw [remarks_load, remarks_load]
  cases hrows : s.rows with
  | nil =>
    rw [hrows] at h
    obtain ⟨-, hmet, hitems⟩ := h
    have hnil : c.items = [] := hitems
    refine ⟨⟨rfl, hmet, by rw [hnil]; rfl⟩, [], .nil, by simp [hnil], rfl⟩
  | cons first rest =>
    rw [hrows] at h
    obtain ⟨hnone, hmet, hitems⟩ := h
    obtain ⟨entry, hfirst, hrest⟩ := exists_readRow_of_cons hnone
    have hwithout : readAll ⟨false⟩ (first :: rest) =
        Reading.cons (.ok entry) (readRows first.fields.length rest) := by
      rw [← hfirst]
      rfl
    rw [hwithout, cons_ok, List.map_cons] at hitems
    rw [readAll_skipHeader (Or.inr hrest), hwithout, cons_ok, hitems, List.tail_cons]
    exact ⟨⟨hrest, hmet, rfl⟩, [entry], .cons (accounts_of_readRow hfirst).2 .nil, rfl, by simp⟩

/-- The first row of a source gives an item if it is a text and the row after it does. -/
theorem load_of_load_skipHeader (h : (load ⟨true⟩ s).result = .ok c) (hitems : c.items ≠ [])
    (htext : ∀ first ∈ s.rows.head?, ∀ f ∈ first.fields, Utf8.IsText f) :
    ∃ item, (load ⟨false⟩ s).result = .ok ⟨item :: c.items⟩ := by
  rw [load_eq_ok_iff_readAll] at h
  obtain ⟨hnone, hmet, hread⟩ := h
  cases hrows : s.rows with
  | nil =>
    rw [hrows] at hread
    exact absurd hread hitems
  | cons first rest =>
    rw [hrows] at hnone hread htext
    have hsame := readAll_skipHeader (Or.inl hnone)
    rw [hsame] at hnone hread
    cases rest with
    | nil => exact absurd hread hitems
    | cons second rest =>
      obtain ⟨entry, hsecond, -⟩ := exists_readRow_of_cons hnone
      obtain ⟨hwidth, haccounts⟩ := accounts_of_readRow hsecond
      have hsound : IsSound first.fields.length first :=
        ⟨rfl, htext first rfl, hwidth ▸ haccounts.isSound.enough⟩
      obtain ⟨item, remarks, hfirst, -⟩ := readRow_of_sound first.position hsound
      have hwithout : readAll ⟨false⟩ (first :: second :: rest) =
          Reading.cons (.ok (item, remarks)) (readRows first.fields.length (second :: rest)) := by
        rw [← hfirst]
        rfl
      refine ⟨item, load_eq_ok_iff_readAll.mpr ?_⟩
      rw [hrows, hwithout, cons_ok]
      exact ⟨hnone, hmet, by rw [hread]; rfl⟩

end OneSource

/-- **With a header the first row gives no item, and all else stays.**  If a source is loaded
    as a catalog without a header, it is loaded with one as the catalog without its first
    item, and what remarks there are on the first row come first and are the only ones that
    are left out.  If it is loaded with a header as a catalog that is not empty, and its
    first row is a text, it is loaded without a header as the same catalog with one item in
    front. -/
theorem skipHeader_removes_first_row (s : Source) :
    (∀ c, (load ⟨false⟩ s).result = .ok c →
      (load ⟨true⟩ s).result = .ok ⟨c.items.tail⟩ ∧
        ∃ own, AccountsFor (s.rows.take 1) own ∧ c.items = own.map (·.1) ++ c.items.tail ∧
          (load ⟨false⟩ s).remarks = own.flatMap (·.2) ++ (load ⟨true⟩ s).remarks) ∧
    (∀ c, (load ⟨true⟩ s).result = .ok c → c.items ≠ [] →
      (∀ first ∈ s.rows.head?, ∀ f ∈ first.fields, Utf8.IsText f) →
        ∃ item, (load ⟨false⟩ s).result = .ok ⟨item :: c.items⟩) :=
  ⟨fun _ h => load_skipHeader_of_load h, fun _ h => load_of_load_skipHeader h⟩

/-- A header of words, which as an item gives three remarks, and after a return with a line
    feed and an empty line a row that gives one. -/
def wordsAndTea : Source :=
  ⟨Utf8.bytes "id,name,price,category,sub,container,margin\r\n\n7,Tea,inf,a,b,c,0\n", none⟩

theorem skipHeader_removes_first_row_words :
    let words : Item := ⟨0, "name", "category", "sub", "container", .zero, .zero⟩
    let tea : Item := ⟨7, "Tea", "a", "b", "c", .zero, .zero⟩
    (load ⟨false⟩ wordsAndTea).result = .ok ⟨[words, tea]⟩ ∧
      (load ⟨true⟩ wordsAndTea).result = .ok ⟨[tea]⟩ ∧
      (∀ first ∈ wordsAndTea.rows.head?, ∀ f ∈ first.fields, Utf8.IsText f) ∧
      ∃ item, (load ⟨false⟩ wordsAndTea).result = .ok ⟨[item, tea]⟩ := by
  intro words tea
  have hload : (load ⟨false⟩ wordsAndTea).result = .ok ⟨[words, tea]⟩ := by decide +kernel
  obtain ⟨hdrop, hprepend⟩ := skipHeader_removes_first_row wordsAndTea
  obtain ⟨hskip, own, hown, -, -⟩ := hdrop _ hload
  have htext : ∀ first ∈ wordsAndTea.rows.head?, ∀ f ∈ first.fields, Utf8.IsText f := by
    intro first hfirst
    obtain ⟨rest, hrows⟩ := List.head?_eq_some_iff.mp hfirst
    rw [hrows] at hown
    obtain _ | ⟨haccounts, -⟩ := hown
    exact haccounts.isSound.isText
  exact ⟨hload, hskip, htext, hprepend ⟨[tea]⟩ hskip (List.cons_ne_nil tea []) htext⟩

end Stocklist.Catalog
