/-
  Stocklist/Proofs/Catalog/Lines.lean
  ===================================
  **Which line a remark and the report of a short row name.**

  Both name the line on which the reading of the row began, which is that of the byte after
  the end of the row above.  The row itself begins after the rest of that line end and after
  all empty lines, so its line is greater by the line feeds among these
  (`load_names_line_of_reading`).  The line that is named is the right one exactly if there
  are none: where the row above ends with a lone line feed, or a lone return, and no line
  feed stands before the row.  After a return with a line feed it is one too low
  (`not_line_of_first_byte`).
-/
import Stocklist.Proofs.Catalog.Remarks
import Stocklist.Proofs.Csv.Layout

namespace Stocklist.Catalog

open Csv (IsBody IsLayout Laid RowPlace Row lineFeed)

/-- `IsNamedBy p line`: the line is that of the row in the place `p`, less the line feeds
    between the byte that ended the row above and the first byte of the row. -/
structure IsNamedBy (p : RowPlace) (line : Nat) : Prop where
  add_count : line + p.gap.count lineFeed = p.line
  eq_iff : line = p.line ↔ lineFeed ∉ p.gap

theorem isNamedBy_of_add_count {p : RowPlace} {line : Nat}
    (h : line + p.gap.count lineFeed = p.line) : IsNamedBy p line := by
  refine ⟨h, ?_⟩
  rw [← List.count_eq_zero]
  omega

/-- The places of the rows that should give items: all but that of a header. -/
def itemPlaces (options : LoadOptions) (places : List RowPlace) : List RowPlace :=
  if options.skipHeader then places.tail else places

/-- The rows that a source delivers are rows of its bytes: all of them, or all but the last. -/
theorem rows_prefix_allRows (s : Source) : s.rows <+: (Csv.read s.bytes).allRows := by
  unfold Source.rows
  split_ifs
  · unfold Csv.Reader.allRows Csv.Reader.endedRows
    split_ifs
    · simp
    · exact List.prefix_rfl
  · exact List.prefix_rfl

theorem itemRows_prefix_itemPlaces (options : LoadOptions) {rows : List Row}
    {places : List RowPlace} (h : rows <+: places.map RowPlace.row) :
    itemRows options rows <+: (itemPlaces options places).map RowPlace.row := by
  unfold itemRows itemPlaces
  split_ifs
  · rw [List.map_tail, ← List.drop_one, ← List.drop_one]
    exact h.drop 1
  · exact h

/-- The remarks on rows in their places name the lines on which the rows were read. -/
theorem isNamedBy_of_accountsFor {read : List RowPlace} {entries : List (Item × List Remark)}
    (h : AccountsFor (read.map RowPlace.row) entries)
    (hnamed : ∀ p ∈ read, IsNamedBy p p.row.position.line) :
    List.Forall₂ (fun p entry => ∀ r ∈ entry.2, IsNamedBy p r.line) read entries := by
  induction read generalizing entries with
  | nil =>
    cases h
    exact .nil
  | cons p read ih =>
    obtain _ | ⟨haccounts, hrest⟩ := h
    obtain ⟨hp, hread⟩ := List.forall_mem_cons.mp hnamed
    refine .cons ?_ (ih hrest hread)
    intro r hr
    rw [haccounts.line_eq r hr]
    exact hp

/-- A short row is the first row of items. -/
theorem exists_row_of_shortRow {options : LoadOptions} {s : Source} {line found : Nat}
    (h : (load options s).result = .error (.shortRow line found)) :
    ∃ row rest, itemRows options s.rows = row :: rest ∧ found = row.fields.length ∧
      line = row.position.line := by
  by_cases hmark : s.BreaksAfterMark
  · rw [load_of_breaksAfterMark options hmark] at h
    cases h
  · rcases (load_eq_error_iff hmark _).mp h with
      ⟨before, row, after, hrows, hbefore, he⟩ | ⟨-, reason, -, hreason⟩
    · obtain ⟨rfl, hfound, hline⟩ := eq_nil_of_fails_short hbefore he
      exact ⟨row, after, hrows, hfound, hline⟩
    · cases hreason

/-- **Remarks and reports of short rows name the line on which the reading of the row
    began.**  For every source, also one that fails, and with a header or without: each
    remark is on a row in its place and names the line of its first byte, less the line feeds
    between that byte and the end of the row above; and so does the report of a short row,
    which is the first row of items. -/
theorem load_names_line_of_reading (options : LoadOptions) (s : Source) :
    ∃ places, IsLayout s.bytes places ∧ s.rows <+: places.map RowPlace.row ∧
      (∃ read entries, read <+: itemPlaces options places ∧
        AccountsFor (read.map RowPlace.row) entries ∧
        (load options s).remarks = entries.flatMap (·.2) ∧
        List.Forall₂ (fun p entry => ∀ r ∈ entry.2, IsNamedBy p r.line) read entries) ∧
      ∀ line found, (load options s).result = .error (.shortRow line found) →
        ∃ p rest, itemPlaces options places = p :: rest ∧ found = p.row.fields.length ∧
          IsNamedBy p line := by
  obtain ⟨places, hlayout, hall, hline⟩ := Csv.exists_isLayout s.bytes
  have hnamed : ∀ p ∈ itemPlaces options places, IsNamedBy p p.row.position.line := by
    intro p hp
    refine isNamedBy_of_add_count (hline p ?_)
    unfold itemPlaces at hp
    split_ifs at hp
    · exact List.mem_of_mem_tail hp
    · exact hp
  have hrows : s.rows <+: places.map RowPlace.row := hall ▸ rows_prefix_allRows s
  have hitems := itemRows_prefix_itemPlaces options hrows
  refine ⟨places, hlayout, hrows, ?_, ?_⟩
  · obtain ⟨rows, hrows', haccounts⟩ := (reads_readAll options s.rows).exists_read
    obtain ⟨read, hread, rfl⟩ := List.prefix_map_iff.mp (hrows'.trans hitems)
    refine ⟨read, _, hread, haccounts, remarks_load options s, ?_⟩
    exact isNamedBy_of_accountsFor haccounts fun p hp => hnamed p (hread.subset hp)
  · intro line found hresult
    obtain ⟨row, rest, hrow, hfound, rfl⟩ := exists_row_of_shortRow hresult
    rw [hrow] at hitems
    cases hplaces : itemPlaces options places with
    | nil => simp [hplaces] at hitems
    | cons p more =>
      rw [hplaces] at hitems hnamed
      obtain ⟨rfl, -⟩ := List.cons_prefix_cons.mp hitems
      exact ⟨p, more, rfl, hfound, hnamed p List.mem_cons_self⟩

/-- Two rows of one byte, with a return and a line feed between them. -/
def oneByteRows : Source :=
  ⟨[0x61, 0x0D, 0x0A, 0x62], none⟩

theorem load_oneByteRows : (load ⟨true⟩ oneByteRows).result = .error (.shortRow 1 1) := by
  decide +kernel

theorem load_names_line_of_reading_oneByteRows :
    (load ⟨true⟩ oneByteRows).result = .error (.shortRow 1 1) ∧
      ∃ places p rest, IsLayout oneByteRows.bytes places ∧
        itemPlaces ⟨true⟩ places = p :: rest ∧ IsNamedBy p 1 := by
  obtain ⟨places, hlayout, -, -, hshort⟩ := load_names_line_of_reading ⟨true⟩ oneByteRows
  obtain ⟨p, rest, hplaces, -, hnamed⟩ := hshort 1 1 load_oneByteRows
  exact ⟨load_oneByteRows, places, p, rest, hlayout, hplaces, hnamed⟩

/-- **The line that is named is not that of the first byte of the row,** here of the second:
    the line feed before it belongs to the line end of the first, which ended with the
    return. -/
theorem not_line_of_first_byte :
    ¬ ∀ (options : LoadOptions) (s : Source) (places : List RowPlace),
      IsLayout s.bytes places → s.rows <+: places.map RowPlace.row →
      ∀ line found, (load options s).result = .error (.shortRow line found) →
        ∀ p ∈ (itemPlaces options places).head?, line = p.line := by
  intro h
  let first : RowPlace := ⟨[], [], ⟨⟨0, 1, 0⟩, [[0x61]]⟩⟩
  let second : RowPlace := ⟨[0x61, 0x0D], [0x0A], ⟨⟨1, 1, 2⟩, [[0x62]]⟩⟩
  have hgap : ∀ b ∈ ([0x0A] : List UInt8), Csv.EndsLine b := by
    simp [Csv.EndsLine, Csv.lineFeed]
  have hbodyFirst : IsBody [0x61] [[0x61]] := ⟨⟨⟨0x61, rfl, by decide⟩, rfl⟩, rfl⟩
  have hbodySecond : IsBody [0x62] [[0x62]] := ⟨⟨⟨0x62, rfl, by decide⟩, rfl⟩, rfl⟩
  have hsecond : Laid [0x61, 0x0D] ([0x0A] ++ [0x62]) [second] := .last hgap hbodySecond
  have hlaid : Laid [] ([] ++ [0x61] ++ 0x0D :: ([0x0A] ++ [0x62])) [first, second] :=
    .cons (by simp) hbodyFirst rfl hsecond
  have hmark : ¬ Csv.byteOrderMark <+: oneByteRows.bytes := by decide
  have hrows : oneByteRows.rows <+: [first, second].map RowPlace.row := by decide +kernel
  have hline := h ⟨true⟩ oneByteRows _ (.unmarked hmark hlaid) hrows 1 1 load_oneByteRows second rfl
  exact absurd hline (by decide)

end Stocklist.Catalog
