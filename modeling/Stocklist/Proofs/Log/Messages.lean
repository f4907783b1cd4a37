/-
  Stocklist/Proofs/Log/Messages.lean
  ==================================
  **No input can forge or break a line of the log.**

  The messages of the loader and of the search are put together from fixed words, numbers
  and quoted texts, and each of these stays within a line (`OneLine`).  So does every message,
  whatever the cells of a catalog and the queries hold (`oneLine_message`,
  `oneLine_searchEntry`).

  Nor can two inputs be mixed up: where a number or a quoted text ends is known from it
  alone (`digits_append_inj`, `Text.quoted_append_inj`), so a message determines the cell or
  the query text that it is about (`Remark.message_injective`, `text_eq_of_message_eq`).
-/
import Stocklist.Catalog.Load
import Stocklist.Http.Endpoint
import Stocklist.Proofs.Json.Number
import Stocklist.Proofs.Text.Quoted
import Stocklist.Proofs.Text.Utf8

namespace Stocklist

open Decimal (digits)
open Text (IsInline quoted)

/-! ### Texts of one line -/

/-- A text that stays within a line. -/
def OneLine (s : String) : Prop :=
  ∀ c ∈ s.toList, IsInline c

instance (s : String) : Decidable (OneLine s) :=
  decidable_of_iff (s.toList.all fun c => decide (IsInline c)) (by
    simp only [OneLine, List.all_eq_true, decide_eq_true_eq])

theorem OneLine.append {s t : String} (hs : OneLine s) (ht : OneLine t) : OneLine (s ++ t) := by
  intro c hc
  rw [String.toList_append] at hc
  rcases List.mem_append.mp hc with hc | hc
  · exact hs c hc
  · exact ht c hc

theorem oneLine_quoted (s : String) : OneLine (quoted s) :=
  Text.isInline_quoted s

theorem isInline_of_isDigit {c : Char} (h : c.isDigit) : IsInline c := by
  have hbounds : 48 ≤ c.toNat ∧ c.toNat ≤ 57 := Char.isDigit_iff_toNat.mp h
  refine ⟨by omega, by omega, ?_, ?_⟩
  · rintro rfl
    exact absurd h (by decide)
  · rintro rfl
    exact absurd h (by decide)

theorem oneLine_natural (n : ℕ) : OneLine (toString n) := by
  intro c hc
  have hdigits : c ∈ digits n := by rwa [digits, ← Nat.toList_repr]
  exact isInline_of_isDigit (Decimal.isDigit_of_mem_digits hdigits)

theorem oneLine_integer (n : ℤ) : OneLine (toString n) := by
  cases n with
  | ofNat n => exact oneLine_natural n
  | negSucc n => exact OneLine.append (by decide +kernel) (oneLine_natural n.succ)

/-! ### Messages -/

theorem oneLine_name (column : Catalog.Column) : OneLine column.name := by
  cases column <;> decide +kernel

theorem oneLine_faultMessage (fault : Catalog.CellFault) : OneLine fault.message := by
  cases fault <;> decide +kernel

theorem oneLine_message (r : Catalog.Remark) : OneLine r.message := by
  have hline : OneLine "Line " := by decide +kernel
  have hcolon : OneLine ": " := by decide +kernel
  have hblank : OneLine " " := by decide +kernel
  exact ((((((hline.append (oneLine_natural r.line)).append hcolon).append
    (oneLine_name r.column)).append hblank).append (oneLine_quoted r.cell)).append
    hblank).append (oneLine_faultMessage r.fault)

theorem oneLine_searchEntry (q : Query) (page : ResultPage) :
    OneLine (Http.searchEntry q page).message := by
  have hquery : OneLine "Query " := by decide +kernel
  have hpage : OneLine " page " := by decide +kernel
  have hcolon : OneLine ": " := by decide +kernel
  have hmatches : OneLine " matches, " := by decide +kernel
  have hshowing : OneLine "showing " := by decide +kernel
  have hdash : OneLine "-" := by decide +kernel
  have hasked := ((hquery.append (oneLine_quoted q.text)).append hpage).append
    (oneLine_integer q.page.toInt)
  have hcount := ((hasked.append hcolon).append (oneLine_natural page.count.toNat)).append hmatches
  exact hcount.append (((hshowing.append (oneLine_natural page.rangeLeft.toNat)).append
    hdash).append (oneLine_natural page.rangeRight.toNat))

theorem oneLine_loadFile (options : Catalog.LoadOptions) (path : String)
    (opened : Except String Catalog.Source) :
    ∀ e ∈ (Catalog.loadFile options path opened).1, OneLine e.message := by
  intro e he
  cases opened with
  | error reason => cases he
  | ok s =>
    rcases List.mem_append.mp he with he | he
    · obtain ⟨r, -, rfl⟩ := List.mem_map.mp he
      exact oneLine_message r
    · cases hresult : (Catalog.load options s).result with
      | error _ =>
        rw [hresult] at he
        cases he
      | ok c =>
        rw [hresult] at he
        obtain rfl := List.mem_singleton.mp he
        have hloaded : OneLine "Loaded " := by decide +kernel
        have hrecords : OneLine " records from disk." := by decide +kernel
        exact (hloaded.append (oneLine_natural c.size)).append hrecords

/-! ### What a message is about -/

/-- Where no digit follows, the end of a number is known. -/
theorem digits_append_inj {m n : ℕ} {rest rest' : List Char} (hrest : Json.NoDigitAhead rest)
    (hrest' : Json.NoDigitAhead rest') (h : digits m ++ rest = digits n ++ rest') :
    m = n ∧ rest = rest' := by
  have hread := congrArg Numeral.takeDigits h
  rw [Json.takeDigits_append (fun c hc => Decimal.isDigit_of_mem_digits hc) hrest,
    Json.takeDigits_append (fun c hc => Decimal.isDigit_of_mem_digits hc) hrest'] at hread
  obtain ⟨hvalues, hrests⟩ := Prod.mk.inj hread
  have hvalue := congrArg Numeral.ofDigits hvalues
  rw [Json.ofDigits_digits, Json.ofDigits_digits] at hvalue
  exact ⟨hvalue, hrests⟩

namespace Catalog

theorem name_append_inj {a b : Column} {rest rest' : List Char}
    (h : a.name.toList ++ ' ' :: rest = b.name.toList ++ ' ' :: rest') :
    a = b ∧ rest = rest' := by
  cases a <;> cases b <;> simp_all [Column.name]

theorem faultMessage_injective : Function.Injective CellFault.message := by
  intro a b h
  cases a <;> cases b <;> simp_all [CellFault.message]

theorem message_toList (r : Remark) : r.message.toList =
    "Line ".toList ++ (digits r.line ++ ':' :: ' ' :: (r.column.name.toList ++ ' ' ::
      ((quoted r.cell).toList ++ ' ' :: r.fault.message.toList))) := by
  simp [Remark.message, toString, digits]

/-- **A remark can be read off its message.** -/
theorem Remark.message_injective : Function.Injective Remark.message := by
  intro r r' h
  have hchars := congrArg String.toList h
  rw [message_toList, message_toList] at hchars
  obtain ⟨hline, hmore⟩ := digits_append_inj (Json.noDigitAhead_cons rfl _)
    (Json.noDigitAhead_cons rfl _) (List.append_cancel_left hchars)
  simp only [List.cons.injEq, true_and] at hmore
  obtain ⟨hcolumn, hmore⟩ := name_append_inj hmore
  obtain ⟨hcell, hmore⟩ := Text.quoted_append_inj hmore
  have hfault : r.fault = r'.fault :=
    faultMessage_injective (String.toList_inj.mp (List.cons.inj hmore).2)
  cases r
  cases r'
  simp_all

end Catalog

/-- The text of a query can be read off the report on it. -/
theorem text_eq_of_message_eq {q q' : Query} {page page' : ResultPage}
    (h : (Http.searchEntry q page).message = (Http.searchEntry q' page').message) :
    q.text = q'.text := by
  have hchars := congrArg String.toList h
  simp only [Http.searchEntry, String.toList_append, List.append_assoc] at hchars
  exact (Text.quoted_append_inj (List.append_cancel_left hchars)).1

/-- **No input can forge or break a line of the log.**  Every message of a load, whether it
    succeeds or not, and every report on a request stays within one line: it has no control
    character and nothing else that separates lines, whatever the cells of the source and
    the text of the query hold.  And no two texts have the same quoted form: two remarks with
    one message are the same remark, about the same cell, and two requests with one
    report have the same query text. -/
theorem log_messages_stay_within_lines :
    (∀ (options : Catalog.LoadOptions) (s : Catalog.Source),
      ∀ r ∈ (Catalog.load options s).remarks, OneLine r.message) ∧
    (∀ (options : Catalog.LoadOptions) (path : String) (opened : Except String Catalog.Source),
      ∀ e ∈ (Catalog.loadFile options path opened).1, OneLine e.message) ∧
    (∀ (c : Catalog) (size : UInt64) (request : Http.Request),
      OneLine (Http.respond c size request).2.message) ∧
    Function.Injective quoted ∧
    Function.Injective Catalog.Remark.message ∧
    ∀ (c c' : Catalog) (size size' : UInt64) (request request' : Http.Request),
      (Http.respond c size request).2.message = (Http.respond c' size' request').2.message →
        request.query.text = request'.query.text :=
  ⟨fun _ _ r _ => oneLine_message r, oneLine_loadFile, fun _ _ _ => oneLine_searchEntry _ _,
    Text.quoted_injective, Catalog.Remark.message_injective,
    fun _ _ _ _ _ _ h => text_eq_of_message_eq h⟩

/-- A cell that would end the line and begin another one. -/
def forgedCell : String :=
  "0\r\nLine 9: id \"x\" is not a number, using 0\u2028\u0085"

def forgedSource : Catalog.Source :=
  ⟨Utf8.bytes "\"0\r\nLine 9: id \"\"x\"\" is not a number, using 0\u2028\u0085\",Tea,1,c,s,t,0\n",
    none⟩

theorem log_messages_stay_within_lines_forged :
    ∃ r ∈ (Catalog.load ⟨false⟩ forgedSource).remarks, r.cell = forgedCell ∧
      OneLine r.message ∧
      r.message = "Line 1: id \"0\\r\\nLine 9: id \\\"x\\\" is not a number, using 0" ++
        "\\u\x7b2028\x7d\\u\x7b85\x7d\" is not a number, using 0" := by
  have hmem : (⟨1, .id, forgedCell, .notNumber⟩ : Catalog.Remark) ∈
      (Catalog.load ⟨false⟩ forgedSource).remarks := by
    decide +kernel
  exact ⟨_, hmem, rfl, log_messages_stay_within_lines.1 ⟨false⟩ forgedSource _ hmem,
    by decide +kernel⟩

end Stocklist
