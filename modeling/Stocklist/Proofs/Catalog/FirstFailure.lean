/-
  Stocklist/Proofs/Catalog/FirstFailure.lean
  ==========================================
  **A load gives all items or the first failure.**

  A source delivers rows (`Source.rows`): the end of the input ends the last one, whereas
  a source that fails leaves it unfinished and it does not count.  A load succeeds exactly
  if the source does not fail and all rows of items are sound, and the catalog is then
  what they give, row by row.  Otherwise it reports the first row that fails, and only if
  there is none the failure of the source (`load_all_or_first_failure`).

  There is one exception.  A source that fails after a byte order mark and nothing else is
  loaded as an empty catalog: the reader passes over the mark, finds nothing left of what it
  was given and takes that for the end (`load_broken_after_mark`).  It is the only one as
  long as the bytes arrive in full reads, which a source stands for; if the first read gave
  the mark alone, the same would come of it whatever followed.
-/
import Stocklist.Proofs.Catalog.Rows

namespace Stocklist.Catalog

open Csv (Row)

/-- The rows that a source delivers. -/
def Source.rows (s : Source) : List Row :=
  if s.failure.isSome then (Csv.read s.bytes).endedRows else (Csv.read s.bytes).allRows

/-- Whether a source fails after a byte order mark and nothing else. -/
def Source.BreaksAfterMark (s : Source) : Prop :=
  s.bytes = Csv.byteOrderMark ∧ s.failure.isSome

section OneSource

variable {options : LoadOptions} {s : Source}

/-- The reader meets the failure of the source, but for the exception. -/
theorem metFailure_eq (h : ¬ s.BreaksAfterMark) : s.metFailure = s.failure := by
  unfold Source.metFailure
  split_ifs with hmark
  · cases hfailure : s.failure with
    | none => rfl
    | some reason => exact absurd ⟨hmark, by rw [hfailure, Option.isSome_some]⟩ h
  · rfl

theorem result_load (h : ¬ s.BreaksAfterMark) :
    (load options s).result =
      match (readAll options s.rows).failure, s.failure with
      | some e, _ => .error e
      | none, some reason => .error (.broken reason)
      | none, none => .ok ⟨(readAll options s.rows).items.map (·.1)⟩ := by
  simp only [load, metFailure_eq h]
  rfl

theorem load_of_fails (h : ¬ s.BreaksAfterMark) {before after : List Row} {row : Row}
    {e : LoadError} (hrows : itemRows options s.rows = before ++ row :: after)
    (hbefore : ∀ r ∈ before, IsSound (widthOf s.rows) r)
    (he : Fails (widthOf s.rows) (reportedAt s.rows before row) row e) :
    (load options s).result = .error e := by
  rw [result_load h, readAll_of_fails hrows hbefore he]

theorem load_of_sound_of_failure (h : ¬ s.BreaksAfterMark)
    (hsound : ∀ row ∈ itemRows options s.rows, IsSound (widthOf s.rows) row)
    {reason : String} (hfailure : s.failure = some reason) :
    (load options s).result = .error (.broken reason) := by
  rw [result_load h, (readAll_of_sound hsound).1, hfailure]

theorem load_of_sound (options : LoadOptions) (h : ¬ s.BreaksAfterMark)
    (hsound : ∀ row ∈ itemRows options s.rows, IsSound (widthOf s.rows) row)
    (hfailure : s.failure = none) :
    ∃ items, (load options s).result = .ok ⟨items⟩ ∧
      List.Forall₂ Gives (itemRows options s.rows) items := by
  obtain ⟨hnone, hitems⟩ := readAll_of_sound hsound
  refine ⟨_, ?_, hitems⟩
  rw [result_load h, hnone, hfailure]

/-- Only the first row of items can lack columns: a later one has as many fields as it. -/
theorem eq_nil_of_fails_short {before : List Row} {row : Row} {line found : Nat}
    (hbefore : ∀ r ∈ before, IsSound (widthOf s.rows) r)
    (he : Fails (widthOf s.rows) (reportedAt s.rows before row) row (.shortRow line found)) :
    before = [] ∧ found = row.fields.length ∧ line = row.position.line := by
  cases he with
  | short hlength htext hshort =>
    cases before with
    | nil => exact ⟨rfl, rfl, rfl⟩
    | cons r before =>
      have hr := hbefore r List.mem_cons_self
      have henough := hr.enough
      rw [hr.length_eq, ← hlength] at henough
      omega

theorem forall₂_gives_unique {rows : List Row} {xs ys : List Item}
    (hx : List.Forall₂ Gives rows xs) (hy : List.Forall₂ Gives rows ys) : xs = ys :=
  Relator.RightUnique.forall₂ (fun _ _ _ ha hb => ha.unique hb) hx hy

theorem load_eq_ok_iff (h : ¬ s.BreaksAfterMark) (c : Catalog) :
    (load options s).result = .ok c ↔
      s.failure = none ∧ (∀ row ∈ itemRows options s.rows, IsSound (widthOf s.rows) row) ∧
        List.Forall₂ Gives (itemRows options s.rows) c.items := by
  constructor
  · intro hc
    rcases sound_or_fails options s.rows with hsound | ⟨before, row, after, e, hrows, hbefore, he⟩
    · cases hfailure : s.failure with
      | some reason =>
        rw [load_of_sound_of_failure h hsound hfailure] at hc
        cases hc
      | none =>
        obtain ⟨items, hitems, hgives⟩ := load_of_sound options h hsound hfailure
        rw [hitems] at hc
        cases hc
        exact ⟨rfl, hsound, hgives⟩
    · rw [load_of_fails h hrows hbefore he] at hc
      cases hc
  · rintro ⟨hfailure, hsound, hgives⟩
    obtain ⟨items, hitems, hgives'⟩ := load_of_sound options h hsound hfailure
    rw [hitems, forall₂_gives_unique hgives' hgives]

theorem load_eq_error_iff (h : ¬ s.BreaksAfterMark) (e : LoadError) :
    (load options s).result = .error e ↔
      (∃ before row after, itemRows options s.rows = before ++ row :: after ∧
        (∀ r ∈ before, IsSound (widthOf s.rows) r) ∧
        Fails (widthOf s.rows) (reportedAt s.rows before row) row e) ∨
      ((∀ row ∈ itemRows options s.rows, IsSound (widthOf s.rows) row) ∧
        ∃ reason, s.failure = some reason ∧ e = .broken reason) := by
  constructor
  · intro he
    rcases sound_or_fails options s.rows with hsound | ⟨before, row, after, e', hrows, hbefore, he'⟩
    · cases hfailure : s.failure with
      | some reason =>
        rw [load_of_sound_of_failure h hsound hfailure] at he
        cases he
        exact Or.inr ⟨hsound, reason, rfl, rfl⟩
      | none =>
        obtain ⟨items, hitems, -⟩ := load_of_sound options h hsound hfailure
        rw [hitems] at he
        cases he
    · rw [load_of_fails h hrows hbefore he'] at he
      cases he
      exact Or.inl ⟨before, row, after, hrows, hbefore, he'⟩
  · rintro (⟨before, row, after, hrows, hbefore, he⟩ | ⟨hsound, reason, hfailure, rfl⟩)
    · exact load_of_fails h hrows hbefore he
    · exact load_of_sound_of_failure h hsound hfailure

end OneSource

/-- The reader takes a byte order mark with nothing after it for all there is. -/
theorem load_of_breaksAfterMark (options : LoadOptions) {s : Source} (h : s.BreaksAfterMark) :
    (load options s).result = .ok .empty := by
  obtain ⟨bytes, failure⟩ := s
  obtain ⟨hbytes, -⟩ := h
  obtain rfl : bytes = Csv.byteOrderMark := hbytes
  rfl

/-! ### The main statement -/

/-- **A load gives the items of all rows or reports the first failure.**  Unless the
    source fails after a byte order mark and nothing else:
    a load gives a catalog exactly if the source does not fail and all rows of items are
    sound, and then its items are those that the rows give, one by one;
    it gives an error exactly if a row fails with it after sound rows only, or if all rows
    are sound and the source fails;
    and a lack of columns is reported of no row but the first row of items.
    A source that is the exception is loaded as an empty catalog. -/
theorem load_all_or_first_failure (options : LoadOptions) (s : Source) :
    (¬ s.BreaksAfterMark →
      (∀ c, (load options s).result = .ok c ↔
        s.failure = none ∧ (∀ row ∈ itemRows options s.rows, IsSound (widthOf s.rows) row) ∧
          List.Forall₂ Gives (itemRows options s.rows) c.items) ∧
      (∀ e, (load options s).result = .error e ↔
        (∃ before row after, itemRows options s.rows = before ++ row :: after ∧
          (∀ r ∈ before, IsSound (widthOf s.rows) r) ∧
          Fails (widthOf s.rows) (reportedAt s.rows before row) row e) ∨
        ((∀ row ∈ itemRows options s.rows, IsSound (widthOf s.rows) row) ∧
          ∃ reason, s.failure = some reason ∧ e = .broken reason)) ∧
      (∀ line found, (load options s).result = .error (.shortRow line found) →
        ∃ row rest, itemRows options s.rows = row :: rest ∧ found = row.fields.length ∧
          line = row.position.line)) ∧
    (s.BreaksAfterMark → (load options s).result = .ok .empty) := by
  refine ⟨?_, load_of_breaksAfterMark options⟩
  intro h
  refine ⟨load_eq_ok_iff h, load_eq_error_iff h, ?_⟩
  intro line found hresult
  rcases (load_eq_error_iff h _).mp hresult with
    ⟨before, row, after, hrows, hbefore, he⟩ | ⟨-, reason, -, hreason⟩
  · obtain ⟨rfl, hfound, hline⟩ := eq_nil_of_fails_short hbefore he
    exact ⟨row, after, hrows, hfound, hline⟩
  · cases hreason

/-- A source that fails within its first row gives no catalog, with a header or without. -/
theorem load_broken_in_first_row :
    let s : Source := ⟨"1,Tea,2.5".toUTF8.toList, some "stream broke"⟩
    ¬ s.BreaksAfterMark ∧ ∀ options c, (load options s).result ≠ .ok c := by
  intro s
  have hbreaks : ¬ s.BreaksAfterMark := fun h => absurd h.1 (by decide +kernel)
  refine ⟨hbreaks, ?_⟩
  intro options c hc
  have hfailure := (((load_all_or_first_failure options s).1 hbreaks).1 c).mp hc
  exact absurd hfailure.1 (by decide)

/-- The exception: a source that fails is loaded as an empty catalog. -/
theorem load_broken_after_mark :
    let s : Source := ⟨[0xEF, 0xBB, 0xBF], some "stream broke"⟩
    s.failure.isSome ∧ (load ⟨false⟩ s).result = .ok .empty := by
  intro s
  exact ⟨rfl, rfl⟩

end Stocklist.Catalog
