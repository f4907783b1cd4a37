/-
  Stocklist/Proofs/Http/Exchange.lean
  ===================================
  **A connection is answered once its head is complete.**

  A head consists of lines that are not empty and of an empty one after them, each ended by
  a line feed with or without a return before it (`WritesHead`).  Bytes have lines exactly if
  they begin with a head, and these are the lines of the head (`headLines?_eq_some_iff`).  So
  an answer depends neither on what comes after the head nor on the pieces in which the
  bytes arrive (`answer?_of_isPrefix`).

  A request that is made on the first line is answered as it is without a connection, but
  for the header that closes the connection and, if it asks for the head alone, for the
  body (`answer?_of_writesHead`).
-/
import Mathlib.Tactic
import Stocklist.Http.Exchange
import Stocklist.Proofs.Http.AnyRequest
import Stocklist.Proofs.Text.Parts
import Stocklist.Proofs.Text.Utf8

namespace Stocklist.Http

/-! ### Heads -/

/-- `WritesLine line bytes`: the bytes are the line and its end. -/
inductive WritesLine (line : List UInt8) : List UInt8 → Prop where
  | withReturn : 0x0A ∉ line → WritesLine line (line ++ [0x0D, 0x0A])
  | bare : 0x0A ∉ line → line.getLast? ≠ some 0x0D → WritesLine line (line ++ [0x0A])

/-- `WritesHead lines bytes`: the bytes are the lines of a head and the empty line after
    them. -/
inductive WritesHead : List (List UInt8) → List UInt8 → Prop where
  | done {bytes : List UInt8} : WritesLine [] bytes → WritesHead [] bytes
  | line {line bytes more : List UInt8} {lines : List (List UInt8)} :
      line ≠ [] → WritesLine line bytes → WritesHead lines more →
        WritesHead (line :: lines) (bytes ++ more)

/-- What is left of the bytes before a line feed without the return at their end. -/
def withoutReturn (raw : List UInt8) : List UInt8 :=
  if raw.getLast? = some 0x0D then raw.dropLast else raw

theorem writesLine_withoutReturn {raw : List UInt8} (h : 0x0A ∉ raw) :
    WritesLine (withoutReturn raw) (raw ++ [0x0A]) := by
  rw [withoutReturn]
  split_ifs with hlast
  · have hraw : raw ++ [0x0A] = raw.dropLast ++ [0x0D, 0x0A] := by
      conv_lhs => rw [← List.dropLast_append_getLast? 0x0D hlast]
      rw [List.append_assoc]
      rfl
    rw [hraw]
    exact .withReturn fun hmem => h (List.mem_of_mem_dropLast hmem)
  · exact .bare h hlast

theorem WritesLine.exists_raw {line bytes : List UInt8} (h : WritesLine line bytes) :
    ∃ raw, 0x0A ∉ raw ∧ withoutReturn raw = line ∧ bytes = raw ++ [0x0A] := by
  cases h with
  | withReturn h =>
    refine ⟨line ++ [0x0D], ?_, ?_, ?_⟩
    · rw [List.mem_append, not_or]
      exact ⟨h, by decide⟩
    · rw [withoutReturn, if_pos List.getLast?_concat, List.dropLast_concat]
    · rw [List.append_assoc]
      rfl
  | bare h hlast => exact ⟨line, h, if_neg hlast, rfl⟩

theorem headLines?_of_notMem {bytes : List UInt8} (h : 0x0A ∉ bytes) :
    headLines? bytes = none := by
  rw [headLines?, Text.parts_of_notMem h]
  rfl

/-- The lines before the first empty one, if there is one. -/
def upToEmpty? (lines : List (List UInt8)) : Option (List (List UInt8)) :=
  if lines.any (·.isEmpty) then some (lines.takeWhile (!·.isEmpty)) else none

theorem upToEmpty?_cons (line : List UInt8) (lines : List (List UInt8)) :
    upToEmpty? (line :: lines) =
      if line = [] then some [] else (upToEmpty? lines).map (line :: ·) := by
  cases line with
  | nil => rfl
  | cons b line =>
    rw [upToEmpty?, upToEmpty?, if_neg (List.cons_ne_nil b line), List.any_cons,
      List.takeWhile_cons_of_pos rfl, List.isEmpty_cons, Bool.false_or]
    split_ifs <;> rfl

theorem headLines?_eq (bytes : List UInt8) :
    headLines? bytes = upToEmpty? ((Text.parts 0x0A bytes).dropLast.map withoutReturn) :=
  rfl

/-- The first line of a head is taken by itself. -/
theorem headLines?_append_cons {raw : List UInt8} (h : 0x0A ∉ raw) (rest : List UInt8) :
    headLines? (raw ++ 0x0A :: rest) =
      if withoutReturn raw = [] then some []
      else (headLines? rest).map (withoutReturn raw :: ·) := by
  rw [headLines?_eq, Text.parts_append_cons h,
    List.dropLast_cons_of_ne_nil (Text.parts_ne_nil rest), List.map_cons, upToEmpty?_cons,
    headLines?_eq]

theorem headLines?_of_writesLine {line bytes : List UInt8} (h : WritesLine line bytes)
    (rest : List UInt8) :
    headLines? (bytes ++ rest) =
      if line = [] then some [] else (headLines? rest).map (line :: ·) := by
  obtain ⟨raw, hraw, rfl, rfl⟩ := h.exists_raw
  rw [List.append_assoc]
  exact headLines?_append_cons hraw rest

theorem headLines?_of_writesHead {lines : List (List UInt8)} {head : List UInt8}
    (h : WritesHead lines head) (rest : List UInt8) : headLines? (head ++ rest) = some lines := by
  induction h with
  | done hline => rw [headLines?_of_writesLine hline, if_pos rfl]
  | line hne hline _ ih =>
    rw [List.append_assoc, headLines?_of_writesLine hline, if_neg hne, ih, Option.map_some]

theorem exists_writesHead {bytes : List UInt8} {lines : List (List UInt8)}
    (h : headLines? bytes = some lines) : ∃ head, WritesHead lines head ∧ head <+: bytes := by
  -- By the number of bytes: what follows the first line feed is shorter.
  induction hn : bytes.length using Nat.strong_induction_on generalizing bytes lines with
  | h n ih =>
    by_cases hmem : 0x0A ∈ bytes
    · obtain ⟨raw, rest, rfl, hraw⟩ := List.eq_append_cons_of_mem hmem
      have hline := writesLine_withoutReturn hraw
      have hbytes : raw ++ 0x0A :: rest = (raw ++ [0x0A]) ++ rest := by simp
      rw [headLines?_append_cons hraw] at h
      split_ifs at h with hempty
      · cases h
        rw [hempty] at hline
        exact ⟨_, .done hline, hbytes ▸ List.prefix_append _ rest⟩
      · obtain ⟨more, hmore, rfl⟩ := Option.map_eq_some_iff.mp h
        obtain ⟨head, hhead, tail, rfl⟩ := ih rest.length (by simp [← hn]; omega) hmore rfl
        refine ⟨_, .line hempty hline hhead, tail, ?_⟩
        rw [hbytes, List.append_assoc, List.append_assoc]
    · rw [headLines?_of_notMem hmem] at h
      cases h

/-- **Bytes have the lines of the head that they begin with**, and none without a head. -/
theorem headLines?_eq_some_iff {bytes : List UInt8} {lines : List (List UInt8)} :
    headLines? bytes = some lines ↔ ∃ head, WritesHead lines head ∧ head <+: bytes := by
  constructor
  · exact exists_writesHead
  · rintro ⟨head, hhead, rest, rfl⟩
    exact headLines?_of_writesHead hhead rest

theorem headLines?_of_isPrefix {bytes all : List UInt8} {lines : List (List UInt8)}
    (h : headLines? bytes = some lines) (hall : bytes <+: all) : headLines? all = some lines := by
  obtain ⟨head, hhead, hbytes⟩ := headLines?_eq_some_iff.mp h
  exact headLines?_eq_some_iff.mpr ⟨head, hhead, hbytes.trans hall⟩

/-! ### Request lines -/

/-- The first line of a head in which a submission is made. -/
def requestLine (s : Submission) (version : String) : List UInt8 :=
  Utf8.encode (s.method.toList ++ ' ' :: (s.uri.toList ++ ' ' :: version.toList))

theorem Submission.IsRequest.blank_notMem_method {s : Submission} (h : s.IsRequest) :
    ' ' ∉ s.method.toList := by
  have hmethod := h.method
  rw [Method.ofName?] at hmethod
  split_ifs at hmethod with hname
  · intro hblank
    exact absurd (List.all_eq_true.mp hname.2 ' ' hblank) (by decide)
  · cases hmethod

/-- A request is read from its line. -/
theorem ofLine?_requestLine {s : Submission} (hs : s.IsRequest) (huri : ' ' ∉ s.uri.toList)
    {version : String} (hversion : version ∈ versions) :
    Request.ofLine? (requestLine s version) = Request.ofTexts? s.method s.uri := by
  have hblank : ' ' ∉ version.toList := (by decide : ∀ v ∈ versions, ' ' ∉ v.toList) _ hversion
  have hwords : (Text.parts ' ' (s.method.toList ++ ' ' :: (s.uri.toList ++ ' ' ::
      version.toList))).map String.ofList = [s.method, s.uri, version] := by
    rw [Text.parts_append_cons hs.blank_notMem_method, Text.parts_append_cons huri,
      Text.parts_of_notMem hblank]
    simp
  rw [Request.ofLine?, requestLine, Utf8.decode?_encode, Option.bind_eq_bind, Option.bind_some]
  simp only [hwords]
  rw [if_pos (List.contains_iff_mem.mpr hversion)]

/-! ### Answers -/

/-- A header is put before the first whose name does not come before its own. -/
theorem addHeader_between {r : Response} {a b : String × String} {more : List (String × String)}
    {name : String} (hr : r.headers = a :: b :: more) (ha : a.1 < name) (hb : ¬ b.1 < name)
    (value : String) :
    r.addHeader name value = { r with headers := a :: (name, value) :: b :: more } := by
  rw [Response.addHeader, hr]
  simp only [List.takeWhile_cons, List.dropWhile_cons, decide_eq_true ha, decide_eq_false hb,
    if_true, Bool.false_eq_true, if_false, List.cons_append, List.nil_append]

theorem closing_eq (status : Nat) (length body : String) :
    Response.closing ⟨status, [("access-control-allow-origin", "*"), ("content-length", length),
        ("content-type", contentType)], body⟩ =
      ⟨status, [("access-control-allow-origin", "*"), ("connection", "close"),
        ("content-length", length), ("content-type", contentType)], body⟩ := by
  have hbefore : "access-control-allow-origin" < "connection" := by decide
  have hafter : ¬ "content-length" < "connection" := by decide
  exact addHeader_between rfl hbefore hafter "close"

/-- The answer to the lines of a head. -/
def answerTo (c : Catalog) (size : UInt64) (lines : List (List UInt8)) :
    Response × List Log.Entry :=
  match lines.head?.bind Request.ofLine? with
  | none => (.closing .malformed, [])
  | some request =>
    (((respond c size request).1.forMethod request.method).closing, [(respond c size request).2])

section Answers

variable (c : Catalog) (size : UInt64)

/-- Only the lines of the head count. -/
theorem answer?_eq_map (bytes : List UInt8) :
    answer? c size bytes = (headLines? bytes).map (answerTo c size) := by
  rw [answer?]
  cases headLines? bytes with
  | none => rfl
  | some lines =>
    cases lines with
    | nil => rfl
    | cons line more =>
      rw [Option.map_some, answerTo, List.head?_cons, Option.bind_some, Option.bind_eq_bind,
        Option.bind_some]
      dsimp only
      cases Request.ofLine? line <;> rfl

/-- **There is no answer before the head is complete.** -/
theorem answer?_eq_none_iff {bytes : List UInt8} :
    answer? c size bytes = none ↔ ∀ lines head, WritesHead lines head → ¬ head <+: bytes := by
  rw [answer?_eq_map, Option.map_eq_none_iff, Option.eq_none_iff_forall_ne_some]
  constructor
  · intro h lines head hhead hprefix
    exact h lines (headLines?_eq_some_iff.mpr ⟨head, hhead, hprefix⟩)
  · intro h lines hlines
    obtain ⟨head, hhead, hprefix⟩ := headLines?_eq_some_iff.mp hlines
    exact h lines head hhead hprefix

/-- **An answer stands, whatever arrives after it.** -/
theorem answer?_of_isPrefix {bytes all : List UInt8} {answer : Response × List Log.Entry}
    (h : answer? c size bytes = some answer) (hall : bytes <+: all) :
    answer? c size all = some answer := by
  rw [answer?_eq_map] at h ⊢
  obtain ⟨lines, hlines, rfl⟩ := Option.map_eq_some_iff.mp h
  rw [headLines?_of_isPrefix hlines hall, Option.map_some]

/-- **A request is answered on a connection as it is without one**, as soon as the empty
    line after it has arrived, but for two things.  The response says that the connection
    closes, and one to `HEAD` has no body, although it tells the length of the body that
    another method would get. -/
theorem answer?_of_writesHead {s : Submission} (hs : s.IsRequest) (huri : ' ' ∉ s.uri.toList)
    {version : String} (hversion : version ∈ versions) {more : List (List UInt8)}
    {head : List UInt8} (hhead : WritesHead (requestLine s version :: more) head)
    (rest : List UInt8) :
    ∃ response entry, s.answer? c size = some (response, entry) ∧
      answer? c size (head ++ rest) = some (
        { status := response.status
          headers := [
            ("access-control-allow-origin", "*"),
            ("connection", "close"),
            ("content-length", toString response.body.utf8ByteSize),
            ("content-type", contentType)]
          body := if s.method = "HEAD" then "" else response.body },
        [entry]) := by
  obtain ⟨request, hrequest, hname, -⟩ := hs.exists_request
  refine ⟨(respond c size request).1, (respond c size request).2, ?_, ?_⟩
  · rw [Submission.answer?, hrequest, Option.map_some]
  · rw [answer?_eq_map, headLines?_of_writesHead hhead, Option.map_some, answerTo,
      List.head?_cons, Option.bind_some, ofLine?_requestLine hs huri hversion, hrequest]
    dsimp only
    rw [Response.forMethod, hname]
    split_ifs
    · exact congrArg (fun r => some (r, _)) (closing_eq _ _ "")
    · exact congrArg (fun r => some (r, _)) (closing_eq _ _ _)

end Answers

/-- Line feeds alone end the lines, and what follows the empty one is not looked at. -/
example : (answer? ⟨[]⟩ 20 (Utf8.encode "HEAD /?q=t HTTP/1.0\n\nGET".toList)).map (·.1.body) =
    some "" := by decide +kernel

end Stocklist.Http
