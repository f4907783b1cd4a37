/-
  Stocklist/Proofs/Http/AnyRequest.lean
  =====================================
  **Every request is served, and only its query counts.**

  The query of an address is what stands between its first question mark and its first
  hash, whichever form the address has (`query_of_ofText?`): no scheme, authority or path
  holds either of the two.  A request is answered by its query alone (`answer?_eq`), and
  whatever the query says, the answer is a page that can be decoded.
-/
import Mathlib.Data.List.TakeWhile
import Mathlib.Tactic
import Stocklist.Proofs.Wire.Prices

namespace Stocklist.Http

/-! ### Queries -/

/-- What stands between the first question mark of a text and its first hash. -/
def queryChars (cs : List Char) : List Char :=
  ((cs.takeWhile (· ≠ '#')).dropWhile (· ≠ '?')).drop 1

/-- The query of an address; one that is absent counts as empty. -/
def queryOf (uri : String) : String :=
  String.ofList (queryChars uri.toList)

/-- A character that may stand before a query. -/
def IsPlain (c : Char) : Prop :=
  c ≠ '?' ∧ c ≠ '#'

theorem queryChars_append {cs : List Char} (h : ∀ c ∈ cs, IsPlain c) (rest : List Char) :
    queryChars (cs ++ rest) = queryChars rest := by
  have hhash : ∀ c ∈ cs, decide (c ≠ '#') = true := fun c hc => decide_eq_true (h c hc).2
  have hmark : ∀ c ∈ cs, decide (c ≠ '?') = true := fun c hc => decide_eq_true (h c hc).1
  rw [queryChars, List.takeWhile_append_of_pos hhash, List.dropWhile_append_of_pos hmark]
  rfl

theorem queryChars_of_plain {cs : List Char} (h : ∀ c ∈ cs, IsPlain c) : queryChars cs = [] := by
  rw [← List.append_nil cs, queryChars_append h]
  rfl

theorem queryChars_of_isOver {cs : List Char} (h : isOver cs) : queryChars cs = [] := by
  cases cs with
  | nil => rfl
  | cons c cs =>
    obtain rfl : c = '#' := of_decide_eq_true h
    rfl

/-! ### Paths -/

theorem isPlain_of_isPathChar {c : Char} (h : isPathChar c) : IsPlain c := by
  simp only [isPathChar, Bool.and_eq_true, decide_eq_true_eq] at h
  exact ⟨h.1.1.2, h.1.1.1.1.1.2⟩

theorem ne_hash_of_isQueryChar {c : Char} (h : isQueryChar c) : c ≠ '#' := by
  simp only [isQueryChar, Bool.and_eq_true, decide_eq_true_eq] at h
  exact h.1.1.1.2

theorem forall_mem_takeWhile {α : Type} {p : α → Bool} {q : α → Prop} (cs : List α)
    (h : ∀ c, p c → q c) : ∀ c ∈ cs.takeWhile p, q c :=
  fun c hc => h c (List.mem_takeWhile_imp hc)

/-- A query reaches up to the hash if no other character cuts it off. -/
theorem takeWhile_isQueryChar {cs : List Char} (h : isOver (cs.dropWhile isQueryChar)) :
    cs.takeWhile isQueryChar = cs.takeWhile (· ≠ '#') := by
  have hquery : ∀ c ∈ cs.takeWhile isQueryChar, decide (c ≠ '#') = true :=
    forall_mem_takeWhile cs fun c hc => decide_eq_true (ne_hash_of_isQueryChar hc)
  -- What cuts the query off is the end of the text or a hash, and there both scans stop.
  have hrest : (cs.dropWhile isQueryChar).takeWhile (· ≠ '#') = [] := by
    cases hcs : cs.dropWhile isQueryChar with
    | nil => rfl
    | cons c rest =>
      rw [hcs] at h
      obtain rfl : c = '#' := of_decide_eq_true h
      rfl
  conv_rhs => rw [← List.takeWhile_append_dropWhile (p := isQueryChar) (l := cs)]
  rw [List.takeWhile_append_of_pos hquery, hrest, List.append_nil]

theorem query_of_ofChars? {cs : List Char} {target : Target}
    (h : Target.ofChars? cs = some target) :
    target.query.getD "" = String.ofList (queryChars cs) := by
  have hpath : ∀ c ∈ cs.takeWhile isPathChar, IsPlain c :=
    forall_mem_takeWhile cs fun c hc => isPlain_of_isPathChar hc
  have hchars : queryChars cs = queryChars (cs.dropWhile isPathChar) := by
    conv_lhs => rw [← List.takeWhile_append_dropWhile (p := isPathChar) (l := cs)]
    exact queryChars_append hpath _
  rw [hchars]
  unfold Target.ofChars? at h
  dsimp only at h
  split at h
  · next rest hrest =>
    split_ifs at h with hover
    cases h
    rw [hrest, Option.getD_some, takeWhile_isQueryChar hover]
    rfl
  · split_ifs at h with hover
    cases h
    rw [queryChars_of_isOver hover]
    rfl

/-! ### Authorities and schemes -/

theorem isPlain_of_step? {s t : AuthorityState} {c : Char} (h : s.step? c = some t) :
    IsPlain c := by
  constructor
  · rintro rfl
    cases h
  · rintro rfl
    cases h

theorem isPlain_of_foldlM {s t : AuthorityState} {cs : List Char}
    (h : cs.foldlM AuthorityState.step? s = some t) : ∀ c ∈ cs, IsPlain c := by
  induction cs generalizing s with
  | nil => exact List.forall_mem_nil _
  | cons c cs ih =>
    rw [List.foldlM_cons] at h
    obtain ⟨u, hu, hrest⟩ := Option.bind_eq_some_iff.mp h
    exact List.forall_mem_cons.mpr ⟨isPlain_of_step? hu, ih hrest⟩

theorem isPlain_of_isAuthority {cs : List Char} (h : isAuthority cs) : ∀ c ∈ cs, IsPlain c := by
  unfold isAuthority at h
  split at h
  · next s hs => exact isPlain_of_foldlM hs
  · cases h

theorem isPlain_of_isSchemeChar {c : Char} (h : isSchemeChar c) : IsPlain c := by
  constructor
  · rintro rfl
    cases h
  · rintro rfl
    cases h

/-- A scheme and the two slashes are no part of the query. -/
theorem queryChars_of_splitScheme {cs scheme rest : List Char}
    (h : splitScheme cs = some (scheme, rest)) : queryChars cs = queryChars rest := by
  unfold splitScheme at h
  split at h
  · next rest' hrest =>
    cases h
    have hscheme : ∀ c ∈ cs.takeWhile isSchemeChar, IsPlain c :=
      forall_mem_takeWhile cs fun c hc => isPlain_of_isSchemeChar hc
    conv_lhs => rw [← List.takeWhile_append_dropWhile (p := isSchemeChar) (l := cs), hrest]
    rw [queryChars_append hscheme]
    rfl
  · cases h

theorem query_of_ofParts? {cs : List Char} {uri : Uri} (h : Uri.ofParts? cs = some uri) :
    uri.query = String.ofList (queryChars cs) := by
  unfold Uri.ofParts? at h
  split at h
  · split_ifs at h with hauthority
    cases h
    rw [queryChars_of_plain (isPlain_of_isAuthority hauthority)]
    rfl
  · next scheme rest hsplit =>
    dsimp only at h
    split_ifs at h with hauthority
    obtain ⟨target, htarget, rfl⟩ := Option.map_eq_some_iff.mp h
    rw [Bool.and_eq_true] at hauthority
    -- The authority ends where a path, a query or a fragment begins, so it holds none of them.
    have hplain := isPlain_of_isAuthority hauthority.2
    rw [Uri.query, query_of_ofChars? htarget, queryChars_of_splitScheme hsplit]
    conv_rhs =>
      rw [← List.takeWhile_append_dropWhile (p := (!endsAuthority ·)) (l := rest),
        queryChars_append hplain]

/-! ### Addresses -/

/-- **The query of an address stands between its first question mark and its first hash**,
    whichever form the address has. -/
theorem query_of_ofText? {text : String} {uri : Uri} (h : Uri.ofText? text = some uri) :
    uri.query = queryOf text := by
  unfold Uri.ofText? at h
  split_ifs at h
  rw [queryOf]
  split at h
  · next htext =>
    cases h
    rw [htext]
    rfl
  · next rest htext =>
    obtain ⟨target, htarget, rfl⟩ := Option.map_eq_some_iff.mp h
    rw [htext, Uri.query, query_of_ofChars? htarget]
  · exact query_of_ofParts? h

/-! ### Answers -/

/-- A submission whose method is a token and whose resource is an address. -/
structure Submission.IsRequest (s : Submission) : Prop where
  method : (Method.ofName? s.method).isSome
  uri : (Uri.ofText? s.uri).isSome

namespace Submission

variable {s t : Submission} (c : Catalog) (size : UInt64)

/-- What is searched for on behalf of a submission. -/
def query (s : Submission) : Query :=
  Query.ofPairs (parameters (queryOf s.uri))

theorem IsRequest.exists_request (h : s.IsRequest) :
    ∃ request : Request, Request.ofTexts? s.method s.uri = some request ∧
      request.method.name = s.method ∧ Uri.ofText? s.uri = some request.uri := by
  obtain ⟨method, hmethod⟩ := Option.isSome_iff_exists.mp h.method
  obtain ⟨uri, huri⟩ := Option.isSome_iff_exists.mp h.uri
  refine ⟨⟨method, uri⟩, ?_, ?_, huri⟩
  · rw [Request.ofTexts?, hmethod, huri]
    rfl
  · rw [Method.ofName?] at hmethod
    split_ifs at hmethod
    cases hmethod
    rfl

/-- A request is answered by its query alone. -/
theorem answer?_eq (h : s.IsRequest) :
    s.answer? c size =
      some (pageResponse (c.search s.query size), searchEntry s.query (c.search s.query size)) := by
  obtain ⟨request, hrequest, -, huri⟩ := h.exists_request
  have hquery : request.query = s.query := by
    rw [Request.query, query_of_ofText? huri, query]
  rw [answer?, hrequest, Option.map_some, respond, hquery]

end Submission

/-- **Every request succeeds, and only its query matters.**  On a catalog that was loaded,
    whatever the size of a page:
    a submission with a method and a resource in form is answered with status 200, headers
    that open the response to any origin and give the length and the type of its body, and
    the text of a result page, which can be decoded;
    and two submissions of one query get the same answer, whatever their methods, the rest
    of their addresses and their bodies. -/
theorem answer_any (options : Catalog.LoadOptions) (source : Catalog.Source) (c : Catalog)
    (size : UInt64) (hload : (Catalog.load options source).result = .ok c) :
    (∀ s : Submission, s.IsRequest →
      ∃ response entry, s.answer? c size = some (response, entry) ∧
        response.status = 200 ∧
        response.headers = [
          ("access-control-allow-origin", "*"),
          ("content-length", toString response.body.utf8ByteSize),
          ("content-type", "application/json")] ∧
        response.body = String.ofList (Wire.pageText (c.search s.query size)) ∧
        ∃ decoded, Wire.pageOfText response.body = .ok decoded ∧
          (c.search s.query size).ComesBackAs decoded) ∧
    (∀ s t : Submission, s.IsRequest → t.IsRequest → queryOf s.uri = queryOf t.uri →
      s.answer? c size = t.answer? c size) := by
  constructor
  · intro s hs
    refine ⟨_, _, s.answer?_eq c size hs, rfl, rfl, rfl, ?_⟩
    exact Wire.exists_pageOfText (Catalog.isFinite_results hload s.query size)
  · intro s t hs ht huri
    have hquery : s.query = t.query := by
      rw [Submission.query, huri, Submission.query]
    rw [Submission.answer?_eq c size hs, Submission.answer?_eq c size ht, hquery]

/-- An address with a scheme and a fragment, and a path alone, with a query that holds a bad
    escape, an escape that is no UTF-8, an empty pair and a key twice. -/
theorem answer_any_oddQuery :
    let browsed : Submission := ⟨"GET", "http://shop?q=%zz&&q=t%FF#q=tea", []⟩
    let brewed : Submission := ⟨"BREW", "/pots/1?q=%zz&&q=t%FF", [0x7B, 0xFF]⟩
    (Catalog.load ⟨false⟩ Wire.oneTea).result = .ok ⟨[Wire.teaAt "9.100000000000001"]⟩ ∧
      browsed.IsRequest ∧ brewed.IsRequest ∧ queryOf browsed.uri = queryOf brewed.uri ∧
      (∃ response entry,
        browsed.answer? ⟨[Wire.teaAt "9.100000000000001"]⟩ 20 = some (response, entry) ∧
          response.status = 200) ∧
      browsed.answer? ⟨[Wire.teaAt "9.100000000000001"]⟩ 20 =
        brewed.answer? ⟨[Wire.teaAt "9.100000000000001"]⟩ 20 := by
  intro browsed brewed
  have hbrowsed : browsed.IsRequest := ⟨by decide +kernel, by decide +kernel⟩
  have hbrewed : brewed.IsRequest := ⟨by decide +kernel, by decide +kernel⟩
  have hquery : queryOf browsed.uri = queryOf brewed.uri := by decide +kernel
  obtain ⟨hserved, hsame⟩ := answer_any ⟨false⟩ Wire.oneTea _ 20 Wire.load_oneTea
  obtain ⟨response, entry, hanswer, hstatus, -⟩ := hserved browsed hbrowsed
  exact ⟨Wire.load_oneTea, hbrowsed, hbrewed, hquery, ⟨response, entry, hanswer, hstatus⟩,
    hsame browsed brewed hbrowsed hbrewed hquery⟩

end Stocklist.Http
