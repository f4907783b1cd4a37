/-
  Stocklist/Proofs/Csv/Written.lean
  =================================
  **Rows are read back from every way of writing them.**

  `WritesFile rows w` says that the bytes `w` write the rows down in the comma-separated
  dialect.  There are many ways to do so: with quotation marks or, where nothing speaks
  against it, without; with three line ends, the last of which may be missing; with empty
  lines and a byte order mark.  The reader gives the same fields for all of them
  (`fields_allRows_read`).

  The proof follows the writing: what a field, a row and a line end do to a reader that
  stands before them.
-/
import Stocklist.Csv.Rows
import Stocklist.Proofs.Text.Utf8

namespace Stocklist.Csv

/-! ### Ways of writing -/

inductive LineEnd where
  | lineFeed
  | carriageReturn
  | both
deriving DecidableEq, Repr

def LineEnd.bytes : LineEnd → List UInt8
  | lineFeed => [Csv.lineFeed]
  | carriageReturn => [Csv.carriageReturn]
  | both => [Csv.carriageReturn, Csv.lineFeed]

/-- Bytes as they stand between quotation marks. -/
def doubleQuotes (bs : List UInt8) : List UInt8 :=
  bs.flatMap fun b => if b = quote then [quote, quote] else [b]

/-- Whether a character has no meaning of its own in the dialect. -/
def IsPlain (c : Char) : Prop :=
  c ≠ ',' ∧ c ≠ '"' ∧ c ≠ '\r' ∧ c ≠ '\n'

instance (c : Char) : Decidable (IsPlain c) :=
  inferInstanceAs (Decidable (_ ∧ _))

/-- `WritesField atStart s w`: the bytes `w` write the field `s`.  At the start of a file
    a field without quotation marks must not begin with what would be a byte order mark. -/
inductive WritesField (atStart : Bool) (s : String) : List UInt8 → Prop where
  | quoted : WritesField atStart s (quote :: doubleQuotes (Utf8.bytes s) ++ [quote])
  | bare : (∀ c ∈ s.toList, IsPlain c) → (atStart → s.toList.head? ≠ some '\uFEFF') →
      WritesField atStart s (Utf8.bytes s)

/-- A row: its fields with commas between them. -/
inductive WritesRow : Bool → List String → List UInt8 → Prop where
  | one {atStart : Bool} {s : String} {w : List UInt8} :
      WritesField atStart s w → WritesRow atStart [s] w
  | more {atStart : Bool} {s : String} {row : List String} {w v : List UInt8} :
      WritesField atStart s w → WritesRow false row v →
      WritesRow atStart (s :: row) (w ++ comma :: v)

/-- Rows: each with a line end, which the last may lack, and with any number of empty
    lines before, between and after them. -/
inductive WritesRows : Bool → List (List String) → List UInt8 → Prop where
  | nil {atStart : Bool} : WritesRows atStart [] []
  | emptyLine {atStart : Bool} {rows : List (List String)} {w : List UInt8} (e : LineEnd) :
      WritesRows false rows w → WritesRows atStart rows (e.bytes ++ w)
  | row {atStart : Bool} {row : List String} {rows : List (List String)} {w v : List UInt8}
      (e : LineEnd) :
      WritesRow atStart row w → WritesRows false rows v →
      WritesRows atStart (row :: rows) (w ++ (e.bytes ++ v))
  | lastRow {atStart : Bool} {row : List String} {w : List UInt8} :
      WritesRow atStart row w → WritesRows atStart [row] w

/-- A file: rows, with a byte order mark before them or without. -/
inductive WritesFile (rows : List (List String)) : List UInt8 → Prop where
  | marked {w : List UInt8} : WritesRows false rows w → WritesFile rows (byteOrderMark ++ w)
  | unmarked {w : List UInt8} : WritesRows true rows w → WritesFile rows w

/-! ### Bytes -/

/-- Whether a byte has no meaning of its own in the dialect. -/
def IsPlainByte (b : UInt8) : Prop :=
  b ≠ comma ∧ b ≠ quote ∧ b ≠ carriageReturn ∧ b ≠ lineFeed

namespace Phase

variable {p : Phase} {b : UInt8}

/-- Phases in which a field may begin. -/
def BeginsField (p : Phase) : Prop :=
  p = .rowStart ∨ p = .afterReturn ∨ p = .fieldStart

theorem outside_of_isPlainByte (hb : IsPlainByte b) : outside b = (.bare, .keep) := by
  obtain ⟨hcomma, -, hreturn, hfeed⟩ := hb
  rw [outside, if_neg hcomma, if_neg hreturn, if_neg hfeed]

theorem step_of_isPlainByte (hp : p.BeginsField ∨ p = .bare) (hb : IsPlainByte b) :
    p.step b = (.bare, .keep) := by
  obtain ⟨-, hquote, hreturn, hfeed⟩ := id hb
  have houtside := outside_of_isPlainByte hb
  have hfield : firstOfField b = (.bare, .keep) := by rw [firstOfField, if_neg hquote, houtside]
  have hrow : firstOfRow b = (.bare, .keep) := by
    rw [firstOfRow, if_neg (not_or.mpr ⟨hreturn, hfeed⟩), hfield]
  rcases hp with (rfl | rfl | rfl) | rfl
  · exact hrow
  · rw [step, if_neg hfeed, hrow]
  · exact hfield
  · exact houtside

theorem step_quote_of_beginsField (hp : p.BeginsField) : p.step quote = (.quoted, .skip) := by
  rcases hp with rfl | rfl | rfl <;> rfl

theorem step_comma (hp : p ≠ .quoted) : p.step comma = (.fieldStart, .endField) := by
  cases p <;> first | rfl | exact absurd rfl hp

theorem step_lineFeed (hp : p ≠ .quoted) (hrow : p.isWithinRow) :
    p.step lineFeed = (.rowStart, .endRow) := by
  cases p <;> first | rfl | exact absurd rfl hp | cases hrow

theorem step_carriageReturn (hp : p ≠ .quoted) (hrow : p.isWithinRow) :
    p.step carriageReturn = (.afterReturn, .endRow) := by
  cases p <;> first | rfl | exact absurd rfl hp | cases hrow

end Phase

namespace Reader

variable {r s : Reader}

theorem run_nil (r : Reader) : r.run [] = r :=
  rfl

theorem run_cons (r : Reader) (b : UInt8) (bs : List UInt8) : r.run (b :: bs) = (r.step b).run bs :=
  rfl

theorem run_append (r : Reader) (bs cs : List UInt8) : r.run (bs ++ cs) = (r.run bs).run cs :=
  List.foldl_append

/-! ### One field -/

/-- `r.HasField s f`: the reader `s` stands where `r` did, but has read the field `f` of the
    row and is not within quotation marks. -/
structure HasField (r s : Reader) (f : List UInt8) : Prop where
  field : s.field = f.reverse
  fields : s.fields = r.fields
  origin : s.origin = r.origin
  rows : s.rows = r.rows
  phase : s.phase = r.phase ∨ s.phase = .bare ∨ s.phase = .quoteInQuoted

theorem step_keep {b : UInt8} {p : Phase} (h : r.phase.step b = (p, .keep)) :
    r.step b = { r with phase := p, here := r.here.advance b, field := b :: r.field } := by
  simp only [step, h]

theorem step_skip {b : UInt8} {p : Phase} (h : r.phase.step b = (p, .skip)) :
    r.step b = { r with phase := p, here := r.here.advance b } := by
  simp only [step, h]

theorem step_endRow {b : UInt8} {p : Phase} (h : r.phase.step b = (p, .endRow)) :
    ∃ here, r.step b = ⟨p, here, here, [], [], r.currentRow :: r.rows⟩ := by
  refine ⟨{ r.here.advance b with record := (r.here.advance b).record + 1 }, ?_⟩
  simp only [step, h]

theorem run_plain {bs : List UInt8} (hplain : ∀ b ∈ bs, IsPlainByte b) (hr : r.phase = .bare) :
    ∃ here, r.run bs = { r with here, field := bs.reverse ++ r.field } := by
  induction bs generalizing r with
  | nil => exact ⟨r.here, rfl⟩
  | cons b bs ih =>
    obtain ⟨hb, hbs⟩ := List.forall_mem_cons.mp hplain
    have hstep := step_keep (Phase.step_of_isPlainByte (Or.inr hr) hb)
    obtain ⟨here, hrun⟩ := ih (r := r.step b) hbs (by rw [hstep])
    refine ⟨here, ?_⟩
    rw [run_cons, hrun, hstep, List.reverse_cons, List.append_assoc, ← hr]
    rfl

theorem run_doubledByte (b : UInt8) (hr : r.phase = .quoted) :
    ∃ here, r.run (if b = quote then [quote, quote] else [b]) =
      { r with here, field := b :: r.field } := by
  obtain ⟨phase, start, origin, field, fields, rows⟩ := r
  obtain rfl : phase = .quoted := hr
  by_cases hb : b = quote
  · subst hb
    exact ⟨_, rfl⟩
  · have hstep : Phase.quoted.step b = (.quoted, .keep) := if_neg hb
    refine ⟨start.advance b, ?_⟩
    rw [if_neg hb, run_cons, run_nil, step_keep hstep]

/-- Between quotation marks all bytes are kept, a doubled quote as one. -/
theorem run_doubleQuotes (bs : List UInt8) (hr : r.phase = .quoted) :
    ∃ here, r.run (doubleQuotes bs) = { r with here, field := bs.reverse ++ r.field } := by
  induction bs generalizing r with
  | nil => exact ⟨r.here, rfl⟩
  | cons b bs ih =>
    obtain ⟨here, hbyte⟩ := run_doubledByte b hr
    obtain ⟨here', hrest⟩ := ih (r := { r with here, field := b :: r.field }) hr
    refine ⟨here', ?_⟩
    rw [doubleQuotes, List.flatMap_cons, run_append, hbyte, ← doubleQuotes, hrest,
      List.reverse_cons, List.append_assoc]
    rfl

theorem hasField_of_plain {bs : List UInt8} (hplain : ∀ b ∈ bs, IsPlainByte b)
    (hr : r.phase.BeginsField) (hfield : r.field = []) : r.HasField (r.run bs) bs := by
  cases bs with
  | nil => exact ⟨hfield, rfl, rfl, rfl, Or.inl rfl⟩
  | cons b bs =>
    obtain ⟨hb, hbs⟩ := List.forall_mem_cons.mp hplain
    have hstep := step_keep (Phase.step_of_isPlainByte (Or.inl hr) hb)
    obtain ⟨here, hrun⟩ := run_plain (r := r.step b) hbs (by rw [hstep])
    rw [run_cons, hrun, hstep, hfield]
    exact ⟨by rw [List.reverse_cons], rfl, rfl, rfl, Or.inr (Or.inl rfl)⟩

theorem hasField_of_quoted (bs : List UInt8) (hr : r.phase.BeginsField) (hfield : r.field = []) :
    r.HasField (r.run (quote :: doubleQuotes bs ++ [quote])) bs := by
  have hopen := step_skip (Phase.step_quote_of_beginsField hr)
  obtain ⟨here, hrun⟩ := run_doubleQuotes (r := r.step quote) bs (by rw [hopen])
  rw [List.cons_append, run_cons, run_append, hrun, run_cons, run_nil, hopen, hfield]
  exact ⟨List.append_nil _, rfl, rfl, rfl, Or.inr (Or.inr rfl)⟩

/-! ### One row -/

/-- `r.HasRow s row`: the reader `s` stands where `r` did, but has read the fields `row`, the
    last of which may end here.  It is within the row, unless nothing of one was read. -/
structure HasRow (r s : Reader) (row : List (List UInt8)) : Prop where
  fields : (s.field.reverse :: s.fields).reverse = r.fields.reverse ++ row
  origin : s.origin = r.origin
  rows : s.rows = r.rows
  not_quoted : s.phase ≠ .quoted
  within : r.phase.isWithinRow ∨ 2 ≤ row.length → s.phase.isWithinRow

theorem HasField.not_quoted {f : List UInt8} (h : r.HasField s f) (hr : r.phase.BeginsField) :
    s.phase ≠ .quoted := by
  rcases h.phase with hs | hs | hs
  · rw [hs]
    rcases hr with hr | hr | hr <;> rw [hr] <;> decide
  · rw [hs]
    decide
  · rw [hs]
    decide

theorem HasField.hasRow {f : List UInt8} (h : r.HasField s f) (hr : r.phase.BeginsField) :
    r.HasRow s [f] where
  fields := by rw [h.field, h.fields, List.reverse_reverse, List.reverse_cons]
  origin := h.origin
  rows := h.rows
  not_quoted := h.not_quoted hr
  within := by
    rintro (hwithin | hlength)
    · rcases h.phase with hs | hs | hs
      · rw [hs, hwithin]
      · rw [hs]
        rfl
      · rw [hs]
        rfl
    · simp at hlength

theorem HasField.step_comma {f : List UInt8} (h : r.HasField s f) (hr : r.phase.BeginsField) :
    s.step comma =
      { s with phase := .fieldStart, here := s.here.advance comma, field := [],
               fields := f :: r.fields } := by
  simp only [step, Phase.step_comma (h.not_quoted hr), h.field, h.fields, List.reverse_reverse]

theorem HasField.hasRow_cons {f : List UInt8} {row : List (List UInt8)} {t : Reader}
    (h : r.HasField s f) (hr : r.phase.BeginsField) (hrow : (s.step comma).HasRow t row) :
    r.HasRow t (f :: row) := by
  rw [h.step_comma hr] at hrow
  refine ⟨?_, hrow.origin.trans h.origin, hrow.rows.trans h.rows, hrow.not_quoted, ?_⟩
  · rw [hrow.fields, List.reverse_cons, List.append_assoc]
    rfl
  · intro _
    exact hrow.within (Or.inl rfl)

/-! ### Line ends -/

/-- Whether a reader is before the first byte of a row, or of an empty line. -/
structure IsBetweenRows (r : Reader) : Prop where
  phase : r.phase = .rowStart ∨ r.phase = .afterReturn
  field : r.field = []
  fields : r.fields = []

theorem isBetweenRows_startAt (p : Position) : (startAt p).IsBetweenRows :=
  ⟨Or.inl rfl, rfl, rfl⟩

theorem IsBetweenRows.beginsField (h : r.IsBetweenRows) : r.phase.BeginsField := by
  rcases h.phase with hr | hr
  · exact Or.inl hr
  · exact Or.inr (Or.inl hr)

theorem HasRow.fields_currentRow {row : List (List UInt8)} (h : r.HasRow s row)
    (hr : r.IsBetweenRows) : s.currentRow.fields = row := by
  rw [currentRow, h.fields, hr.fields]
  rfl

/-- A line end between rows is an empty line and says nothing. -/
theorem IsBetweenRows.run_lineEnd (h : r.IsBetweenRows) (e : LineEnd) :
    (r.run e.bytes).IsBetweenRows ∧ (r.run e.bytes).rows = r.rows := by
  obtain ⟨phase, here, origin, field, fields, rows⟩ := r
  obtain ⟨hphase, hfield, hfields⟩ := h
  rcases hphase with rfl | rfl <;> cases e <;> exact ⟨⟨Or.inl rfl, hfield, hfields⟩, rfl⟩

/-- A line end within a row ends it. -/
theorem run_lineEnd_of_isWithinRow (hquoted : r.phase ≠ .quoted) (hwithin : r.phase.isWithinRow)
    (e : LineEnd) :
    (r.run e.bytes).IsBetweenRows ∧ (r.run e.bytes).rows = r.currentRow :: r.rows := by
  obtain ⟨here, hfeed⟩ := step_endRow (Phase.step_lineFeed hquoted hwithin)
  obtain ⟨here', hreturn⟩ := step_endRow (Phase.step_carriageReturn hquoted hwithin)
  have hbetween : IsBetweenRows ⟨.afterReturn, here', here', [], [], r.currentRow :: r.rows⟩ :=
    ⟨Or.inr rfl, rfl, rfl⟩
  cases e with
  | lineFeed =>
    rw [LineEnd.bytes, run_cons, run_nil, hfeed]
    exact ⟨⟨Or.inl rfl, rfl, rfl⟩, rfl⟩
  | carriageReturn =>
    rw [LineEnd.bytes, run_cons, run_nil, hreturn]
    exact ⟨hbetween, rfl⟩
  | both =>
    -- The line feed that follows is taken for an empty line.
    rw [LineEnd.bytes, run_cons, hreturn]
    exact hbetween.run_lineEnd .lineFeed

end Reader

/-! ### Characters and their bytes -/

theorem isPlainByte_of_mem_bytes {s : String} (h : ∀ c ∈ s.toList, IsPlain c) :
    ∀ b ∈ Utf8.bytes s, IsPlainByte b := by
  intro b hb
  have hchar : b.toNat < 128 → IsPlain (Char.ofNat b.toNat) := fun hlt =>
    h _ (Utf8.ofNat_mem_of_mem_encode hb hlt)
  refine ⟨?_, ?_, ?_, ?_⟩
  · rintro rfl
    exact (hchar (by decide)).1 rfl
  · rintro rfl
    exact (hchar (by decide)).2.1 rfl
  · rintro rfl
    exact (hchar (by decide)).2.2.1 rfl
  · rintro rfl
    exact (hchar (by decide)).2.2.2 rfl

/-- Bytes that begin like a byte order mark encode a text that begins with `U+FEFF`. -/
theorem eq_of_mark_isPrefix {c : Char} {cs : List Char} {rest : List UInt8}
    (h : byteOrderMark <+: Utf8.encode (c :: cs) ++ rest) : c = '\uFEFF' := by
  obtain ⟨more, hmore⟩ := h
  have hmark : byteOrderMark = String.utf8EncodeChar '\uFEFF' := by decide
  -- Both sides decode, and the first characters must agree.
  have hscan := congrArg (Utf8.scanFrom .start) hmore
  rw [hmark, Utf8.encode_cons, List.append_assoc, Utf8.scanFrom_utf8EncodeChar,
    Utf8.scanFrom_utf8EncodeChar, List.cons.injEq, Option.some.injEq] at hscan
  exact hscan.1.symm

/-! ### Reading what was written -/

variable {atStart : Bool}

theorem WritesField.hasField {s : String} {w : List UInt8} (h : WritesField atStart s w)
    {r : Reader} (hr : r.phase.BeginsField) (hfield : r.field = []) :
    r.HasField (r.run w) (Utf8.bytes s) := by
  cases h with
  | quoted => exact Reader.hasField_of_quoted (Utf8.bytes s) hr hfield
  | bare hplain => exact Reader.hasField_of_plain (isPlainByte_of_mem_bytes hplain) hr hfield

theorem WritesRow.hasRow {row : List String} {w : List UInt8} (h : WritesRow atStart row w)
    {r : Reader} (hr : r.phase.BeginsField) (hfield : r.field = []) :
    r.HasRow (r.run w) (row.map Utf8.bytes) := by
  induction h generalizing r with
  | one hs => exact (hs.hasField hr hfield).hasRow hr
  | more hs _ ih =>
    have hread := hs.hasField hr hfield
    have hcomma := hread.step_comma hr
    rw [Reader.run_append, Reader.run_cons, List.map_cons]
    refine hread.hasRow_cons hr (ih ?_ ?_)
    · rw [hcomma]
      exact Or.inr (Or.inr rfl)
    · rw [hcomma]

theorem WritesRows.fields_allRows {rows : List (List String)} {w : List UInt8}
    (h : WritesRows atStart rows w) (hrows : ∀ row ∈ rows, 2 ≤ row.length) {r : Reader}
    (hr : r.IsBetweenRows) :
    (r.run w).allRows.map Row.fields =
      r.endedRows.map Row.fields ++ rows.map (·.map Utf8.bytes) := by
  induction h generalizing r with
  | nil =>
    have hbetween : ¬ r.phase.isWithinRow := by
      rcases hr.phase with hphase | hphase <;> rw [hphase] <;> decide
    rw [Reader.run_nil, Reader.allRows, if_neg hbetween, List.map_nil, List.append_nil]
  | emptyLine e _ ih =>
    obtain ⟨hbetween, hsame⟩ := hr.run_lineEnd e
    rw [Reader.run_append, ih hrows hbetween, Reader.endedRows, Reader.endedRows, hsame]
  | row e hrow _ ih =>
    obtain ⟨hlength, hrest⟩ := List.forall_mem_cons.mp hrows
    have hread := hrow.hasRow hr.beginsField hr.field
    have hwithin := hread.within (Or.inr (by rwa [List.length_map]))
    obtain ⟨hbetween, hmore⟩ := Reader.run_lineEnd_of_isWithinRow hread.not_quoted hwithin e
    rw [Reader.run_append, Reader.run_append, ih hrest hbetween, Reader.endedRows,
      Reader.endedRows, hmore, hread.rows, List.reverse_cons, List.map_append, List.append_assoc,
      List.map_singleton, hread.fields_currentRow hr]
    rfl
  | lastRow hrow =>
    have hlength := hrows _ List.mem_cons_self
    have hread := hrow.hasRow hr.beginsField hr.field
    have hwithin := hread.within (Or.inr (by rwa [List.length_map]))
    rw [Reader.allRows, if_pos hwithin, List.reverse_cons, List.map_append, List.map_singleton,
      hread.fields_currentRow hr, hread.rows]
    rfl

/-! ### The start of a file -/

theorem head?_of_mark_isPrefix {w : List UInt8} (h : byteOrderMark <+: w) :
    w.head? = some 0xEF := by
  obtain ⟨rest, rfl⟩ := h
  rfl

theorem LineEnd.head?_bytes_append (e : LineEnd) (w : List UInt8) :
    (e.bytes ++ w).head? ≠ some 0xEF := by
  intro h
  cases e with
  | lineFeed => exact absurd (Option.some.inj h) (by decide)
  | carriageReturn => exact absurd (Option.some.inj h) (by decide)
  | both => exact absurd (Option.some.inj h) (by decide)

theorem WritesField.not_mark_isPrefix {s : String} {w rest : List UInt8}
    (h : WritesField true s w) (hrest : rest.head? ≠ some 0xEF) :
    ¬ byteOrderMark <+: w ++ rest := by
  intro hmark
  cases h with
  | quoted =>
    have hhead := head?_of_mark_isPrefix hmark
    exact absurd (Option.some.inj hhead) (by decide)
  | bare _ hstart =>
    rw [Utf8.bytes] at hmark
    cases hs : s.toList with
    | nil =>
      rw [hs] at hmark
      exact hrest (head?_of_mark_isPrefix hmark)
    | cons c cs =>
      rw [hs] at hmark
      exact hstart rfl (by rw [hs, eq_of_mark_isPrefix hmark, List.head?_cons])

theorem WritesRow.not_mark_isPrefix {row : List String} {w rest : List UInt8}
    (h : WritesRow true row w) (hrest : rest.head? ≠ some 0xEF) :
    ¬ byteOrderMark <+: w ++ rest := by
  cases h with
  | one hs => exact hs.not_mark_isPrefix hrest
  | more hs _ =>
    rw [List.append_assoc]
    apply hs.not_mark_isPrefix
    intro hhead
    exact absurd (Option.some.inj hhead) (by decide)

theorem WritesRows.not_mark_isPrefix {rows : List (List String)} {w : List UInt8}
    (h : WritesRows true rows w) : ¬ byteOrderMark <+: w := by
  cases h with
  | nil => exact fun hmark => absurd (head?_of_mark_isPrefix hmark) (by decide)
  | emptyLine e _ => exact fun hmark => e.head?_bytes_append _ (head?_of_mark_isPrefix hmark)
  | row e hrow _ => exact hrow.not_mark_isPrefix (e.head?_bytes_append _)
  | lastRow hrow =>
    rw [← List.append_nil w]
    exact hrow.not_mark_isPrefix (by decide)

theorem read_mark_append (w : List UInt8) :
    read (byteOrderMark ++ w) =
      (Reader.startAt ⟨0, 1, byteOrderMark.length⟩).run w := by
  have hmark : byteOrderMark.isPrefixOf (byteOrderMark ++ w) = true := by
    rw [List.isPrefixOf_iff_prefix]
    exact List.prefix_append byteOrderMark w
  rw [read, if_pos hmark, List.drop_left]

theorem read_of_not_mark {w : List UInt8} (h : ¬ byteOrderMark <+: w) :
    read w = (Reader.startAt .start).run w := by
  rw [← List.isPrefixOf_iff_prefix] at h
  rw [read, if_neg h]

/-- **Rows are read back from every file that writes them.** -/
theorem fields_allRows_read {rows : List (List String)} {w : List UInt8} (h : WritesFile rows w)
    (hrows : ∀ row ∈ rows, 2 ≤ row.length) :
    (read w).allRows.map Row.fields = rows.map (·.map Utf8.bytes) := by
  cases h with
  | marked hw =>
    rw [read_mark_append, hw.fields_allRows hrows (Reader.isBetweenRows_startAt _)]
    rfl
  | unmarked hw =>
    rw [read_of_not_mark hw.not_mark_isPrefix,
      hw.fields_allRows hrows (Reader.isBetweenRows_startAt _)]
    rfl

/-- A quote within quotes, two kinds of line ends, and an empty line. -/
example : (read "a,\"b\"\"\"\r\n\nc,\n".toUTF8.toList).allRows.map Row.fields =
    [[[0x61], [0x62, 0x22]], [[0x63], []]] := by decide +kernel

end Stocklist.Csv
