/-
  Stocklist/Proofs/Http/SearchAddress.lean
  ========================================
  **What is written into an address is what is searched.**

  A written query consists of characters that an address takes as they are, so an address
  of `/?` and the query is accepted as long as it is not too long, and it keeps the query
  character by character.  The parameters are read back from it, and the first `q` and the
  first `page` make up the search (`respond_written`).
-/
import Mathlib.Data.List.TakeWhile
import Mathlib.Tactic
import Stocklist.Http.Endpoint
import Stocklist.Proofs.Http.Parameters
import Stocklist.Proofs.Numeral
import Stocklist.Proofs.Wire.Query

namespace Stocklist.Http

/-! ### The address -/

theorem isQueryChar_of_lt : ∀ n < 128,
    isEscapeChar (Char.ofNat n) ∨ Char.ofNat n = '=' ∨ Char.ofNat n = '&' →
      isQueryChar (Char.ofNat n) := by
  decide +kernel

theorem isQueryChar_of_isEscapeChar {c : Char} (h : isEscapeChar c) : isQueryChar c := by
  have hc := isQueryChar_of_lt c.toNat (toNat_lt_of_isEscapeChar h)
  rw [Char.ofNat_toNat] at hc
  exact hc (Or.inl h)

theorem WritesPair.all_isQueryChar {pair : String × String} {cs : List Char}
    (h : WritesPair pair cs) : ∀ c ∈ cs, isQueryChar c := by
  obtain ⟨key, value, hkey, hvalue, rfl⟩ := h
  intro c hc
  rw [List.mem_append, List.mem_cons] at hc
  rcases hc with hc | rfl | hc
  · exact isQueryChar_of_isEscapeChar (hkey.all_isEscapeChar c hc)
  · decide
  · exact isQueryChar_of_isEscapeChar (hvalue.all_isEscapeChar c hc)

theorem WritesQuery.all_isQueryChar {pairs : List (String × String)} {cs : List Char}
    (h : WritesQuery pairs cs) : ∀ c ∈ cs, isQueryChar c := by
  obtain ⟨written, hwritten, rfl⟩ := h
  intro c hc
  rcases Text.mem_join hc with rfl | ⟨piece, hpiece, hmem⟩
  · decide
  · obtain ⟨pair, hpair⟩ := exists_writesPair hwritten piece hpiece
    exact hpair.all_isQueryChar c hmem

theorem Target.ofChars?_root {cs : List Char} (h : ∀ c ∈ cs, isQueryChar c) :
    Target.ofChars? ('/' :: '?' :: cs) = some ⟨"/", some (String.ofList cs)⟩ := by
  have hpath : ('/' :: '?' :: cs).takeWhile isPathChar = ['/'] := by
    rw [List.takeWhile_cons_of_pos (by decide), List.takeWhile_cons_of_neg (by decide)]
  have hrest : ('/' :: '?' :: cs).dropWhile isPathChar = '?' :: cs := by
    rw [List.dropWhile_cons_of_pos (by decide), List.dropWhile_cons_of_neg (by decide)]
  have hnil : cs.dropWhile isQueryChar = [] := List.dropWhile_eq_nil_iff.mpr h
  rw [Target.ofChars?, hpath, hrest]
  change (if isOver (cs.dropWhile isQueryChar) then _ else none) = _
  rw [hnil, List.takeWhile_eq_self_iff.mpr h]
  rfl

theorem Uri.ofText?_written {pairs : List (String × String)} {cs : List Char}
    (h : WritesQuery pairs cs) (hsize : ("/?" ++ String.ofList cs).utf8ByteSize ≤ maxLength) :
    Uri.ofText? ("/?" ++ String.ofList cs) = some (.origin ⟨"/", some (String.ofList cs)⟩) := by
  have hchars : ("/?" ++ String.ofList cs).toList = '/' :: '?' :: cs := by simp
  rw [Uri.ofText?, if_neg (Nat.not_lt.mpr hsize), hchars]
  change (Target.ofChars? ('/' :: '?' :: cs)).map Uri.origin = _
  rw [Target.ofChars?_root h.all_isQueryChar]
  rfl

/-! ### The search -/

/-- The parameters that count are the first of their keys. -/
theorem ofPairs_eq {pairs : List (String × String)} {text page : String} {n : Int64}
    (htext : pairs.lookup "q" = some text) (hpage : pairs.lookup "page" = some page)
    (hn : Numeral.Denotes page.toList n.toInt) : Query.ofPairs pairs = .ofPage text n := by
  have hread : Numeral.readInt64 page = .ok n := Numeral.readInt64_eq_ok_iff.mpr hn
  rw [Query.ofPairs, htext, hpage]
  dsimp only [Option.bind_some]
  rw [hread]
  rfl

/-- **A text that is sent in an address is searched as that text.**  Let the query write
    some pairs in any way, the first `q` among them with the text and the first `page` with
    a numeral of `n`, in whatever order and company.  If the address is not too long, it
    is accepted, and the response to any method carries the page that a search for the
    text finds.  Whatever the prices on it, its body is read as an object with the text as
    its query. -/
theorem respond_written (c : Catalog) (size : UInt64) {pairs : List (String × String)}
    {cs : List Char} {text page : String} {n : Int64} (hquery : WritesQuery pairs cs)
    (htext : pairs.lookup "q" = some text) (hpage : pairs.lookup "page" = some page)
    (hn : Numeral.Denotes page.toList n.toInt)
    (hsize : ("/?" ++ String.ofList cs).utf8ByteSize ≤ maxLength) :
    ∃ uri, Uri.ofText? ("/?" ++ String.ofList cs) = some uri ∧
      ∀ method,
        (respond c size ⟨method, uri⟩).1.status = 200 ∧
        (respond c size ⟨method, uri⟩).1.body =
          String.ofList (Wire.pageText (c.search (.ofPage text n) size)) ∧
        ∃ v, Json.Document.ofText (respond c size ⟨method, uri⟩).1.body.toList = ⟨v, none⟩ ∧
          Wire.AnswersText text v := by
  refine ⟨_, Uri.ofText?_written hquery hsize, fun method => ?_⟩
  have hasked :
      Request.query ⟨method, .origin ⟨"/", some (String.ofList cs)⟩⟩ = .ofPage text n := by
    rw [Request.query, Uri.query, Option.getD_some, parameters_of_writesQuery hquery]
    exact ofPairs_eq htext hpage hn
  have hbody : (respond c size ⟨method, .origin ⟨"/", some (String.ofList cs)⟩⟩).1.body =
      String.ofList (Wire.pageText (c.search (.ofPage text n) size)) := by
    rw [respond, hasked]
    rfl
  refine ⟨rfl, hbody, ?_⟩
  rw [hbody, String.toList_ofList]
  exact Wire.exists_document (Wire.readsAs_pageText_query (c.search (.ofPage text n) size))

/-- The text `ü t` with a letter of two bytes and a blank, the page with a leading zero, and
    another parameter between them. -/
theorem respond_written_umlaut :
    let c : Catalog := ⟨[⟨1, "Menü Tee", "", "", "", .zero, .zero⟩]⟩
    ∃ uri, Uri.ofText? "/?page=01&sort=&q=%C3%bc+t" = some uri ∧
      ∀ method, (respond c 20 ⟨method, uri⟩).1.body =
        String.ofList (Wire.pageText (c.search (.ofPage "ü t" 1) 20)) := by
  intro c
  have htext : Escapes (Utf8.bytes "ü t") "%C3%bc+t".toList := by
    have hbytes : Utf8.bytes "ü t" = [0xC3, 0xBC, 0x20, UInt8.ofNat 't'.toNat] := by
      decide +kernel
    rw [hbytes]
    exact .percent rfl rfl <| .percent rfl rfl <| .blank <| .literal rfl .nil
  have hself : ∀ s ∈ ["q", "page", "01", "sort", ""], Escapes (Utf8.bytes s) s.toList := by
    intro s hs
    exact escapes_self (List.all_eq_true.mp ((by decide :
      ∀ s ∈ ["q", "page", "01", "sort", ""], s.toList.all isLiteral) s hs))
  have hquery : WritesQuery [("page", "01"), ("sort", ""), ("q", "ü t")]
      "page=01&sort=&q=%C3%bc+t".toList := by
    refine ⟨["page=01".toList, "sort=".toList, "q=%C3%bc+t".toList], ?_, by decide⟩
    refine .cons ?_ (.cons ?_ (.cons ?_ .nil))
    · exact ⟨_, _, hself "page" (by decide), hself "01" (by decide), by decide⟩
    · exact ⟨_, _, hself "sort" (by decide), hself "" (by decide), by decide⟩
    · exact ⟨_, _, hself "q" (by decide), htext, by decide⟩
  have hpage : Numeral.Denotes "01".toList (1 : Int64).toInt :=
    .unsigned ⟨by decide, [0, 1], by decide, by decide⟩
  obtain ⟨uri, huri, hbody⟩ := respond_written c 20 hquery rfl rfl hpage
    (by decide +kernel)
  exact ⟨uri, huri, fun method => (hbody method).2.1⟩

end Stocklist.Http
