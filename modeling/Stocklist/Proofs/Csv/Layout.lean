/-
  Stocklist/Proofs/Csv/Layout.lean
  ================================
  **Where the rows of an input stand.**

  `IsLayout input places` cuts an input into pieces: line ends, the bytes of a row, the byte
  that ends it, line ends, the bytes of the next row, and so on.  The line feed of a line
  end of two bytes is among the line ends before the next row, as it is for the reader.  A
  place knows what stands before it, so it tells the line of its first byte (`RowPlace.line`).
  An input has one layout (`exists_isLayout`) and no other (`IsLayout.unique`).

  The reader does not give this line.  It begins to read a row where it ended the one above,
  and counts the line feeds that it has met until then: those between that byte and the
  first byte of the row are missing (`exists_isLayout`).

  The proof follows the reader byte by byte.  It stands among line ends (`AtGap`) or within
  a row (`InBody`); there is one lemma for each of the four ways on, and one for the run.
  For uniqueness nothing is followed: line ends reach up to the first byte that is none, and
  a row up to the first byte that ends it.
-/
import Stocklist.Proofs.Csv.Written

namespace Stocklist.Csv

/-! ### Layouts -/

/-- Whether a byte ends lines, wherever it is not within quotation marks. -/
def EndsLine (b : UInt8) : Prop :=
  b = carriageReturn ∨ b = lineFeed

instance (b : UInt8) : Decidable (EndsLine b) :=
  inferInstanceAs (Decidable (_ ∨ _))

/-- The reader that has read the given bytes and nothing else. -/
def readAlone (bs : List UInt8) : Reader :=
  (Reader.startAt .start).run bs

/-- The bytes begin with the first of a row and do not end it. -/
structure BeginsRow (body : List UInt8) : Prop where
  first : ∃ b, body.head? = some b ∧ ¬ EndsLine b
  rows : (readAlone body).rows = []

/-- `IsBody body fields`: the bytes from the first of a row to the last before its line end.
    Read alone they give these fields. -/
structure IsBody (body : List UInt8) (fields : List (List UInt8)) : Prop
    extends BeginsRow body where
  fields_eq : (readAlone body).currentRow.fields = fields

/-- Whether a byte after the body of a row ends it.  Within quotation marks none does. -/
def EndsRow (body : List UInt8) (e : UInt8) : Prop :=
  ((readAlone body).phase.step e).2 = .endRow

/-- A row in its place: the bytes before the place where its reading begins, and the line
    ends from there to its first byte. -/
structure RowPlace where
  before : List UInt8
  gap : List UInt8
  row : Row
deriving DecidableEq, Repr

/-- The line of the first byte of the row, from 1. -/
def RowPlace.line (p : RowPlace) : Nat :=
  1 + (p.before ++ p.gap).count lineFeed

/-- `Laid before rest places`: what follows the bytes `before` in an input is `rest`, and it
    holds rows in these places. -/
inductive Laid : List UInt8 → List UInt8 → List RowPlace → Prop where
  | nil {before gap : List UInt8} : (∀ b ∈ gap, EndsLine b) → Laid before gap []
  | last {before gap body : List UInt8} {row : Row} :
      (∀ b ∈ gap, EndsLine b) → IsBody body row.fields →
      Laid before (gap ++ body) [⟨before, gap, row⟩]
  | cons {before gap body rest : List UInt8} {e : UInt8} {row : Row} {places : List RowPlace} :
      (∀ b ∈ gap, EndsLine b) → IsBody body row.fields → EndsRow body e →
      Laid (before ++ gap ++ body ++ [e]) rest places →
      Laid before (gap ++ body ++ e :: rest) (⟨before, gap, row⟩ :: places)

/-- The places of the rows in an input, which may begin with a byte order mark. -/
inductive IsLayout : List UInt8 → List RowPlace → Prop where
  | marked {content : List UInt8} {places : List RowPlace} :
      Laid byteOrderMark content places → IsLayout (byteOrderMark ++ content) places
  | unmarked {input : List UInt8} {places : List RowPlace} :
      ¬ byteOrderMark <+: input → Laid [] input places → IsLayout input places

/-! ### One byte -/

theorem count_concat (bs : List UInt8) (b : UInt8) :
    (bs ++ [b]).count lineFeed = bs.count lineFeed + if b = lineFeed then 1 else 0 := by
  simp [List.count_append, List.count_singleton]

namespace Phase

variable {p : Phase} {b : UInt8}

theorem step_of_endsLine (hp : p = .rowStart ∨ p = .afterReturn) (hb : EndsLine b) :
    p.step b = (.rowStart, .skip) := by
  have hrow : firstOfRow b = (.rowStart, .skip) := if_pos hb
  rcases hp with rfl | rfl
  · exact hrow
  · simp [step, hrow]

/-- The first byte of a row is read alike at the start of an input and after a return. -/
theorem step_of_not_endsLine (hp : p = .rowStart ∨ p = .afterReturn) (hb : ¬ EndsLine b) :
    p.step b = firstOfField b := by
  have hrow : firstOfRow b = firstOfField b := if_neg hb
  have hfeed : b ≠ lineFeed := fun h => hb (Or.inr h)
  rcases hp with rfl | rfl
  · exact hrow
  · simp [step, hrow, hfeed]

theorem firstOfField_of_not_endsLine (hb : ¬ EndsLine b) :
    (firstOfField b).1.isWithinRow ∧ (firstOfField b).2 ≠ .endRow := by
  obtain ⟨hreturn, hfeed⟩ := not_or.mp hb
  unfold firstOfField outside
  split_ifs <;> simp_all [isWithinRow]

/-- Only the end of a row leads out of it. -/
theorem isWithinRow_step (hp : p.isWithinRow) (hb : (p.step b).2 ≠ .endRow) :
    (p.step b).1.isWithinRow := by
  cases p with
  | rowStart => cases hp
  | afterReturn => cases hp
  | fieldStart =>
    simp only [step, firstOfField, outside] at hb ⊢
    split_ifs at hb ⊢ <;> simp_all [isWithinRow]
  | bare =>
    simp only [step, outside] at hb ⊢
    split_ifs at hb ⊢ <;> simp_all [isWithinRow]
  | quoted =>
    simp only [step] at hb ⊢
    split_ifs <;> rfl
  | quoteInQuoted =>
    simp only [step, outside] at hb ⊢
    split_ifs at hb ⊢ <;> simp_all [isWithinRow]

/-- After the end of a row the machine is between rows. -/
theorem between_of_endRow (hb : (p.step b).2 = .endRow) :
    (p.step b).1 = .rowStart ∨ (p.step b).1 = .afterReturn := by
  cases p <;> simp only [step, firstOfRow, firstOfField, outside] at hb ⊢ <;>
    split_ifs at hb ⊢ <;> simp_all

end Phase

namespace Reader

variable {r s : Reader} {b : UInt8}

/-- `r.SameRow s`: the readers have read the same of the row that they are in. -/
structure SameRow (r s : Reader) : Prop where
  phase : r.phase = s.phase
  field : r.field = s.field
  fields : r.fields = s.fields

theorem sameRow_step (hstep : r.phase.step b = s.phase.step b) (hfield : r.field = s.field)
    (hfields : r.fields = s.fields) : (r.step b).SameRow (s.step b) := by
  rcases hs : s.phase.step b with ⟨p, mark⟩
  rw [hs] at hstep
  cases mark <;> simp only [step, hstep, hs, hfield, hfields] <;> exact ⟨rfl, rfl, rfl⟩

theorem line_step (r : Reader) (b : UInt8) :
    (r.step b).here.line = r.here.line + if b = lineFeed then 1 else 0 := by
  have hadvance : (r.here.advance b).line = r.here.line + if b = lineFeed then 1 else 0 := by
    unfold Position.advance
    split_ifs <;> rfl
  rcases hr : r.phase.step b with ⟨p, mark⟩
  cases mark <;> simp only [step, hr] <;> exact hadvance

theorem step_of_ne_endRow (hb : (r.phase.step b).2 ≠ .endRow) :
    (r.step b).rows = r.rows ∧ (r.step b).origin = r.origin ∧
      (r.step b).phase = (r.phase.step b).1 := by
  rcases hr : r.phase.step b with ⟨p, mark⟩
  cases mark <;> simp_all [step]

/-! ### A reader in a layout -/

/-- The reader has read the bytes `before`, where it began to look for a row, and the line
    ends `gap`. -/
structure AtGap (r : Reader) (before gap : List UInt8) : Prop where
  between : r.IsBetweenRows
  endsLine : ∀ b ∈ gap, EndsLine b
  here : r.here.line = 1 + (before ++ gap).count lineFeed
  origin : r.origin.line = 1 + before.count lineFeed

/-- The reader has read the bytes `before`, the line ends `gap` and the bytes `body` of a row. -/
structure InBody (r : Reader) (before gap body : List UInt8) : Prop where
  within : r.phase.isWithinRow
  endsLine : ∀ b ∈ gap, EndsLine b
  begins : BeginsRow body
  same : r.SameRow (readAlone body)
  here : r.here.line = 1 + (before ++ gap ++ body).count lineFeed
  origin : r.origin.line = 1 + before.count lineFeed

variable {before gap body : List UInt8}

theorem InBody.isBody (h : r.InBody before gap body) : IsBody body r.currentRow.fields where
  toBeginsRow := h.begins
  fields_eq := by rw [currentRow, currentRow, h.same.field, h.same.fields]

theorem InBody.endsRow_iff (h : r.InBody before gap body) :
    EndsRow body b ↔ (r.phase.step b).2 = .endRow := by
  rw [EndsRow, h.same.phase]

theorem readAlone_concat (body : List UInt8) (b : UInt8) :
    readAlone (body ++ [b]) = (readAlone body).step b :=
  run_append _ body [b]

theorem beginsRow_singleton (hb : ¬ EndsLine b) : BeginsRow [b] := by
  have hphase : (startAt .start).phase.step b = Phase.firstOfField b :=
    Phase.step_of_not_endsLine (Or.inl rfl) hb
  obtain ⟨-, hmark⟩ := Phase.firstOfField_of_not_endsLine hb
  exact ⟨⟨b, rfl, hb⟩, (step_of_ne_endRow (r := startAt .start) (hphase ▸ hmark)).1⟩

theorem beginsRow_concat (h : BeginsRow body) (hb : ¬ EndsRow body b) :
    BeginsRow (body ++ [b]) := by
  obtain ⟨⟨c, hc, hfirst⟩, hrows⟩ := h
  refine ⟨⟨c, ?_, hfirst⟩, ?_⟩
  · rw [List.head?_append, hc, Option.some_or]
  · rw [readAlone_concat, (step_of_ne_endRow hb).1, hrows]

theorem AtGap.step_endsLine (h : r.AtGap before gap) (hb : EndsLine b) :
    (r.step b).AtGap before (gap ++ [b]) ∧ (r.step b).rows = r.rows := by
  have hstep := step_skip (Phase.step_of_endsLine h.between.phase hb)
  refine ⟨⟨?_, ?_, ?_, ?_⟩, ?_⟩
  · rw [hstep]
    exact ⟨Or.inl rfl, h.between.field, h.between.fields⟩
  · simpa [or_imp, forall_and] using ⟨h.endsLine, hb⟩
  · rw [line_step, h.here, ← List.append_assoc, count_concat, Nat.add_assoc]
  · rw [hstep]
    exact h.origin
  · rw [hstep]

theorem AtGap.step_first (h : r.AtGap before gap) (hb : ¬ EndsLine b) :
    (r.step b).InBody before gap [b] ∧ (r.step b).rows = r.rows := by
  obtain ⟨hwithin, hmark⟩ := Phase.firstOfField_of_not_endsLine hb
  have hphase := Phase.step_of_not_endsLine h.between.phase hb
  have halone : (startAt .start).phase.step b = Phase.firstOfField b :=
    Phase.step_of_not_endsLine (Or.inl rfl) hb
  obtain ⟨hrows, horigin, hnext⟩ := step_of_ne_endRow (r := r) (hphase ▸ hmark)
  refine ⟨⟨?_, h.endsLine, beginsRow_singleton hb, ?_, ?_, ?_⟩, hrows⟩
  · rw [hnext, hphase]
    exact hwithin
  · exact sameRow_step (hphase.trans halone.symm) h.between.field h.between.fields
  · rw [line_step, h.here, count_concat, Nat.add_assoc]
  · rw [horigin, h.origin]

theorem InBody.step_within (h : r.InBody before gap body) (hb : ¬ EndsRow body b) :
    (r.step b).InBody before gap (body ++ [b]) ∧ (r.step b).rows = r.rows := by
  have hmark := mt h.endsRow_iff.mpr hb
  obtain ⟨hrows, horigin, hnext⟩ := step_of_ne_endRow hmark
  refine ⟨⟨?_, h.endsLine, beginsRow_concat h.begins hb, ?_, ?_, ?_⟩, hrows⟩
  · rw [hnext]
    exact Phase.isWithinRow_step h.within hmark
  · rw [readAlone_concat]
    exact sameRow_step (by rw [h.same.phase]) h.same.field h.same.fields
  · rw [line_step, h.here, ← List.append_assoc, count_concat, Nat.add_assoc]
  · rw [horigin, h.origin]

theorem InBody.step_end (h : r.InBody before gap body) (hb : EndsRow body b) :
    (r.step b).AtGap (before ++ gap ++ body ++ [b]) [] ∧
      (r.step b).rows = r.currentRow :: r.rows := by
  rw [h.endsRow_iff] at hb
  have hbetween := Phase.between_of_endRow hb
  have hline := line_step r b
  rw [h.here, Nat.add_assoc, ← count_concat] at hline
  rcases hr : r.phase.step b with ⟨p, mark⟩
  rw [hr] at hb hbetween
  obtain rfl : mark = .endRow := hb
  obtain ⟨here, hstep⟩ := step_endRow hr
  rw [hstep] at hline ⊢
  refine ⟨⟨⟨hbetween, rfl, rfl⟩, by simp, ?_, hline⟩, rfl⟩
  rw [List.append_nil]
  exact hline

/-! ### All bytes -/

/-- What a reader makes of the rest of an input: rows in their places, each with the line of
    the place where its reading began. -/
structure LaysOut (r : Reader) (rest : List UInt8) (places : List RowPlace) : Prop where
  allRows : (r.run rest).allRows = r.endedRows ++ places.map RowPlace.row
  line : ∀ p ∈ places, p.row.position.line = 1 + p.before.count lineFeed

theorem exists_laysOut (rest : List UInt8) :
    (∀ (r : Reader) (before gap : List UInt8), r.AtGap before gap →
      ∃ places, Laid before (gap ++ rest) places ∧ r.LaysOut rest places) ∧
    (∀ (r : Reader) (before gap body : List UInt8), r.InBody before gap body →
      ∃ places, Laid before (gap ++ body ++ rest) places ∧ r.LaysOut rest places) := by
  induction rest with
  | nil =>
    constructor
    · intro r before gap h
      refine ⟨[], by simpa using .nil h.endsLine, ?_, by simp⟩
      have hbetween : ¬ r.phase.isWithinRow := by
        rcases h.between.phase with hphase | hphase <;> simp [hphase, Phase.isWithinRow]
      simp [run_nil, allRows, hbetween]
    · intro r before gap body h
      refine ⟨[⟨before, gap, r.currentRow⟩], ?_, ?_, ?_⟩
      · simpa using .last h.endsLine h.isBody
      · simp [run_nil, allRows, h.within, endedRows]
      · intro p hp
        obtain rfl := List.mem_singleton.mp hp
        exact h.origin
  | cons b rest ih =>
    obtain ⟨ihGap, ihBody⟩ := ih
    constructor
    · intro r before gap h
      by_cases hb : EndsLine b
      · obtain ⟨hnext, hrows⟩ := h.step_endsLine hb
        obtain ⟨places, hlaid, hall, hline⟩ := ihGap _ _ _ hnext
        refine ⟨places, by simpa using hlaid, ?_, hline⟩
        rw [run_cons, hall, endedRows, hrows, endedRows]
      · obtain ⟨hnext, hrows⟩ := h.step_first hb
        obtain ⟨places, hlaid, hall, hline⟩ := ihBody _ _ _ _ hnext
        refine ⟨places, by simpa using hlaid, ?_, hline⟩
        rw [run_cons, hall, endedRows, hrows, endedRows]
    · intro r before gap body h
      by_cases hb : EndsRow body b
      · obtain ⟨hnext, hrows⟩ := h.step_end hb
        obtain ⟨places, hlaid, hall, hline⟩ := ihGap _ _ _ hnext
        refine ⟨⟨before, gap, r.currentRow⟩ :: places, ?_, ?_, ?_⟩
        · exact .cons h.endsLine h.isBody hb hlaid
        · rw [run_cons, hall, endedRows, hrows, endedRows]
          simp
        · exact List.forall_mem_cons.mpr ⟨h.origin, hline⟩
      · obtain ⟨hnext, hrows⟩ := h.step_within hb
        obtain ⟨places, hlaid, hall, hline⟩ := ihBody _ _ _ _ hnext
        refine ⟨places, by simpa using hlaid, ?_, hline⟩
        rw [run_cons, hall, endedRows, hrows, endedRows]

theorem atGap_startAt {p : Position} {before : List UInt8} (hp : p.line = 1)
    (hbefore : before.count lineFeed = 0) : (startAt p).AtGap before [] where
  between := isBetweenRows_startAt p
  endsLine := by simp
  here := by simp [startAt, hp, hbefore]
  origin := by simp [startAt, Position.start, hbefore]

end Reader

/-- **Every input has a layout,** and the lines of the rows that are read are those of their
    places, less the line feeds that are passed over before their first bytes. -/
theorem exists_isLayout (input : List UInt8) :
    ∃ places, IsLayout input places ∧ (read input).allRows = places.map RowPlace.row ∧
      ∀ p ∈ places, p.row.position.line + p.gap.count lineFeed = p.line := by
  have hlines {places : List RowPlace}
      (h : ∀ p ∈ places, p.row.position.line = 1 + p.before.count lineFeed) :
      ∀ p ∈ places, p.row.position.line + p.gap.count lineFeed = p.line := by
    intro p hp
    rw [h p hp, RowPlace.line, List.count_append, Nat.add_assoc]
  by_cases hmark : byteOrderMark <+: input
  · obtain ⟨content, rfl⟩ := hmark
    obtain ⟨places, hlaid, hall, hline⟩ := (Reader.exists_laysOut content).1 _ byteOrderMark []
      (Reader.atGap_startAt (p := ⟨0, 1, byteOrderMark.length⟩) rfl (by decide))
    refine ⟨places, .marked hlaid, ?_, hlines hline⟩
    rw [read_mark_append, hall]
    rfl
  · obtain ⟨places, hlaid, hall, hline⟩ := (Reader.exists_laysOut input).1 _ [] []
      (Reader.atGap_startAt (p := .start) rfl rfl)
    refine ⟨places, .unmarked hmark hlaid, ?_, hlines hline⟩
    rw [read_of_not_mark hmark, hall]
    rfl

/-! ### Only one layout -/

namespace Reader

theorem rows_step_of_endRow {r : Reader} {b : UInt8} (hb : (r.phase.step b).2 = .endRow) :
    (r.step b).rows = r.currentRow :: r.rows := by
  rcases hr : r.phase.step b with ⟨p, mark⟩
  rw [hr] at hb
  obtain rfl : mark = .endRow := hb
  obtain ⟨here, hstep⟩ := step_endRow hr
  rw [hstep]

/-- A row that has been read stays. -/
theorem rows_suffix_run (r : Reader) (bs : List UInt8) : r.rows <:+ (r.run bs).rows := by
  induction bs generalizing r with
  | nil => exact List.suffix_rfl
  | cons b bs ih =>
    refine List.IsSuffix.trans ?_ (ih (r.step b))
    by_cases hb : (r.phase.step b).2 = .endRow
    · rw [rows_step_of_endRow hb]
      exact List.suffix_cons _ _
    · rw [(step_of_ne_endRow hb).1]

end Reader

/-- The places are one, and the rows in them have the same fields. -/
structure RowPlace.Agrees (p q : RowPlace) : Prop where
  before : p.before = q.before
  gap : p.gap = q.gap
  fields : p.row.fields = q.row.fields

section Unique

variable {gap gap' body body' rest rest' : List UInt8} {e e' : UInt8}

theorem takeWhile_endsLine (hgap : ∀ b ∈ gap, EndsLine b)
    (hrest : ∀ b ∈ rest.head?, ¬ EndsLine b) :
    (gap ++ rest).takeWhile (fun b => decide (EndsLine b)) = gap := by
  rw [List.takeWhile_append_of_pos (by simpa using hgap)]
  cases rest with
  | nil => simp
  | cons b rest =>
    rw [List.takeWhile_cons_of_neg (by simpa using hrest b rfl), List.append_nil]

/-- Line ends reach up to the first byte that is none. -/
theorem gap_unique (hgap : ∀ b ∈ gap, EndsLine b) (hgap' : ∀ b ∈ gap', EndsLine b)
    (hrest : ∀ b ∈ rest.head?, ¬ EndsLine b) (hrest' : ∀ b ∈ rest'.head?, ¬ EndsLine b)
    (h : gap ++ rest = gap' ++ rest') : gap = gap' ∧ rest = rest' := by
  have hgaps : gap = gap' := by
    rw [← takeWhile_endsLine hgap hrest, h, takeWhile_endsLine hgap' hrest']
  subst hgaps
  exact ⟨rfl, List.append_cancel_left h⟩

theorem BeginsRow.head (h : BeginsRow body) (rest : List UInt8) :
    ∀ b ∈ (body ++ rest).head?, ¬ EndsLine b := by
  obtain ⟨c, hc, hfirst⟩ := h.first
  rw [List.head?_append, hc, Option.some_or]
  rintro b ⟨⟩
  exact hfirst

theorem BeginsRow.not_forall_endsLine (h : BeginsRow body) (gap : List UInt8) :
    ¬ ∀ b ∈ gap ++ body, EndsLine b := by
  obtain ⟨c, hc, hfirst⟩ := h.first
  intro hall
  exact hfirst (hall c (List.mem_append_right gap (List.mem_of_head? hc)))

/-- The byte that ends a row is not within it. -/
theorem not_beginsRow_of_endsRow (he : EndsRow body e) (rest : List UInt8) :
    ¬ BeginsRow (body ++ e :: rest) := by
  intro h
  have hrows := Reader.rows_suffix_run ((readAlone body).step e) rest
  rw [Reader.rows_step_of_endRow he, ← Reader.run_cons, readAlone, ← Reader.run_append] at hrows
  have hnone : (Reader.run (.startAt .start) (body ++ e :: rest)).rows = [] := h.rows
  simp [hnone] at hrows

/-- A row reaches up to the first byte that ends it. -/
theorem body_unique (hbody : BeginsRow body) (hbody' : BeginsRow body') (he : EndsRow body e)
    (he' : EndsRow body' e') (h : body ++ e :: rest = body' ++ e' :: rest') :
    body = body' ∧ e = e' ∧ rest = rest' := by
  rcases List.append_eq_append_iff.mp h with ⟨more, hlong, hmore⟩ | ⟨more, hlong, hmore⟩
  · cases more with
    | nil => simpa [hlong, eq_comm] using hmore
    | cons b more =>
      obtain ⟨rfl, -⟩ := List.cons.inj hmore
      exact absurd (hlong ▸ hbody') (not_beginsRow_of_endsRow he more)
  · cases more with
    | nil => simpa [hlong, eq_comm] using hmore
    | cons b more =>
      obtain ⟨rfl, -⟩ := List.cons.inj hmore
      exact absurd (hlong ▸ hbody) (not_beginsRow_of_endsRow he' more)

end Unique

theorem Laid.unique {before input : List UInt8} {ps qs : List RowPlace}
    (hp : Laid before input ps) (hq : Laid before input qs) :
    List.Forall₂ RowPlace.Agrees ps qs := by
  induction hp generalizing qs with
  | nil hgap =>
    cases hq with
    | nil => exact .nil
    | last _ hbody' => exact absurd hgap (hbody'.not_forall_endsLine _)
    | cons _ hbody' _ _ =>
      exact absurd (fun b hb => hgap b (List.mem_append_left _ hb))
        (hbody'.not_forall_endsLine _)
  | @last before gap body row hgap hbody =>
    generalize hinput : gap ++ body = input at hq
    have hhead : ∀ b ∈ body.head?, ¬ EndsLine b := by simpa using hbody.head []
    cases hq with
    | nil hgap' => exact absurd (hinput ▸ hgap') (hbody.not_forall_endsLine _)
    | last hgap' hbody' =>
      obtain ⟨rfl, rfl⟩ := gap_unique hgap hgap' hhead (by simpa using hbody'.head []) hinput
      exact .cons ⟨rfl, rfl, hbody.fields_eq.symm.trans hbody'.fields_eq⟩ .nil
    | cons hgap' hbody' he' _ =>
      rw [List.append_assoc] at hinput
      obtain ⟨-, rfl⟩ := gap_unique hgap hgap' hhead (hbody'.head _) hinput
      exact absurd hbody.toBeginsRow (not_beginsRow_of_endsRow he' _)
  | @cons before gap body rest e row places hgap hbody he _ ih =>
    generalize hinput : gap ++ body ++ e :: rest = input at hq
    rw [List.append_assoc] at hinput
    cases hq with
    | nil hgap' =>
      rw [← hinput, ← List.append_assoc] at hgap'
      exact absurd (fun b hb => hgap' b (List.mem_append_left _ hb))
        (hbody.not_forall_endsLine _)
    | last hgap' hbody' =>
      obtain ⟨-, rfl⟩ := gap_unique hgap hgap' (hbody.head _)
        (by simpa using hbody'.head []) hinput
      exact absurd hbody'.toBeginsRow (not_beginsRow_of_endsRow he _)
    | cons hgap' hbody' he' hrest' =>
      rw [List.append_assoc] at hinput
      obtain ⟨rfl, hrests⟩ := gap_unique hgap hgap' (hbody.head _) (hbody'.head _) hinput
      obtain ⟨rfl, rfl, rfl⟩ := body_unique hbody.toBeginsRow hbody'.toBeginsRow he he' hrests
      exact .cons ⟨rfl, rfl, hbody.fields_eq.symm.trans hbody'.fields_eq⟩ (ih hrest')

/-- **An input has one layout only,** but for the positions that its rows are said to have. -/
theorem IsLayout.unique {input : List UInt8} {ps qs : List RowPlace}
    (hp : IsLayout input ps) (hq : IsLayout input qs) : List.Forall₂ RowPlace.Agrees ps qs := by
  generalize hinput : input = other at hq
  cases hp with
  | marked hp =>
    cases hq with
    | marked hq =>
      obtain rfl := List.append_cancel_left hinput
      exact hp.unique hq
    | unmarked hmark hq => exact absurd (hinput ▸ List.prefix_append _ _) hmark
  | unmarked hmark hp =>
    cases hq with
    | marked hq => exact absurd (hinput ▸ List.prefix_append _ _) hmark
    | unmarked _ hq =>
      subst hinput
      exact hp.unique hq

end Stocklist.Csv
