/-
  Stocklist/Proofs/Settings/Precedence.lean
  =========================================
  **Command line, environment and defaults, setting by setting.**

  A command line that gives settings, in any order and each once at most, is read as what it
  gives: an argument that gives one setting leaves the others as they are (`step_written`),
  and so by induction the arguments together give what each gives alone
  (`foldlM_step_written`).  The last value may still be pending then; `Progress.Holds` counts
  it in.

  A setting has the value of the command line, without one that of the environment, and
  without either its default.  The environment is refused only for a text of a setting that
  the command line leaves open (`read_written`).
-/
import Mathlib.Tactic
import Stocklist.Proofs.Settings.Values
import Stocklist.Startup

namespace Stocklist

/-! ### Command lines that give settings -/

/-- `WritesSetting s text arguments`: the arguments give the setting the text, which stands
    by itself, without a dash before it, or is joined to the name. -/
inductive WritesSetting : Setting → String → List String → Prop where
  | apart {s : Setting} {text : String} : s.takesValue → text.toList.head? ≠ some '-' →
      WritesSetting s text [s!"--{s.name}", text]
  | joined {s : Setting} {text : String} : s.takesValue →
      WritesSetting s text [s!"--{s.name}={text}"]
  | switch : WritesSetting .skipHeader "true" ["--skip-header"]

/-- `WritesSettings choices arguments`: the arguments give settings texts that these accept,
    in the order of the choices and no setting twice. -/
inductive WritesSettings : List (Setting × String) → List String → Prop where
  | nil : WritesSettings [] []
  | cons {s : Setting} {text : String} {choices : List (Setting × String)}
      {front rest : List String} :
      WritesSetting s text front → s.Accepts text → choices.lookup s = none →
      WritesSettings choices rest → WritesSettings ((s, text) :: choices) (front ++ rest)

/-! ### Words -/

namespace Word

theorem find?_name (s : Setting) : Topic.all.find? (·.name = s.name) = some (.setting s) := by
  cases s <;> decide

theorem ofName_joined (s : Setting) (value : List Char) :
    ofName (s.name.toList ++ '=' :: value) = .known (.setting s) (some (String.ofList value)) := by
  have hname : ∀ c ∈ s.name.toList, decide (c ≠ '=') = true := by
    apply List.all_eq_true.mp
    cases s <;> decide
  have htake : (s.name.toList ++ '=' :: value).takeWhile (· ≠ '=') = s.name.toList := by
    rw [List.takeWhile_append_of_pos hname, List.takeWhile_cons_of_neg (by decide),
      List.append_nil]
  have hdrop : (s.name.toList ++ '=' :: value).dropWhile (· ≠ '=') = '=' :: value := by
    rw [List.dropWhile_append_of_pos hname, List.dropWhile_cons_of_neg (by decide)]
  simp only [ofName, htake, hdrop, String.ofList_toList, find?_name]

theorem ofText_name (s : Setting) : ofText s!"--{s.name}" = .known (.setting s) none := by
  cases s <;> decide

theorem ofText_of_dashes {text : String} {c : Char} {cs : List Char}
    (h : text.toList = '-' :: '-' :: c :: cs) : ofText text = ofName (c :: cs) := by
  rw [ofText, h]
  rfl

theorem ofText_joined (s : Setting) (text : String) :
    ofText s!"--{s.name}={text}" = .known (.setting s) (some text) := by
  obtain ⟨c, cs, hname⟩ : ∃ c cs, s.name.toList = c :: cs := by
    cases s <;> exact ⟨_, _, rfl⟩
  have hchars : (s!"--{s.name}={text}").toList = '-' :: '-' :: c :: (cs ++ '=' :: text.toList) := by
    have happend : s!"--{s.name}={text}" = "--" ++ s.name ++ "=" ++ text := rfl
    rw [happend]
    simp [hname]
  rw [ofText_of_dashes hchars, ← List.cons_append, ← hname, ofName_joined, String.ofList_toList]

theorem ofText_plain {text : String} (h : text.toList.head? ≠ some '-') :
    ofText text = .plain := by
  unfold ofText
  split
  · next htext =>
    rw [htext] at h
    exact absurd rfl h
  · next htext =>
    rw [htext] at h
    exact absurd rfl h
  · next htext =>
    rw [htext] at h
    exact absurd rfl h
  · rfl

end Word

/-! ### Single steps -/

namespace Progress

variable {p q : Progress} {s : Setting} {text : String}

theorem step_known {topic : Topic} {value? : Option String} (hp : p.isClosed = false)
    (hword : Word.ofText text = .known topic value?) : p.step text = p.take topic value? := by
  rw [step, hp, hword]
  rfl

theorem step_plain (hp : p.isClosed = false) (hword : Word.ofText text = .plain)
    (hpending : p.pending? = some ⟨s, none⟩) :
    p.step text = .ok { p with pending? := some ⟨s, some text⟩ } := by
  rw [step, hp, hword]
  simp only [hpending]
  rfl

theorem take_name (hsettle : p.settle = .ok q) (htakes : s.takesValue) :
    p.take (.setting s) none = .ok { q with pending? := some ⟨s, none⟩ } := by
  rw [take, hsettle]
  exact if_pos htakes

theorem take_switch (hsettle : p.settle = .ok q) (htakes : ¬ s.takesValue) :
    p.take (.setting s) none = q.give s "true" := by
  rw [take, hsettle]
  exact if_neg htakes

theorem take_joined (hsettle : p.settle = .ok q) (htakes : s.takesValue) :
    p.take (.setting s) (some text) = q.give s text := by
  rw [take, if_pos htakes, hsettle]
  rfl

/-- A setting that is still open gets the value, and no other changes. -/
theorem give_of_means {v : s.Value} (hopen : p.given.value s = none) (hv : s.Means text v) :
    p.give s text = .ok { p with given := p.given.set s v, met := p.met ++ [s] } := by
  have hput : p.given.put? s text = .ok (p.given.set s v) :=
    Given.put?_eq_ok_iff.mpr ⟨v, hv, rfl⟩
  rw [give, Given.has_eq, hopen, hput]
  rfl

theorem settle_of_eq_none (h : p.pending? = none) : p.settle = .ok p := by
  rw [settle, h]

end Progress

/-! ### Reading -/

/-- A text for one setting is what that setting gets, and it leaves the others as they are. -/
theorem Given.gets_set {chosen : Setting → Option String} {g : Given} {s : Setting}
    {text : String} {v : s.Value} (hg : ∀ t : Setting, t.Gets chosen none (g.value t))
    (hv : s.Means text v) (t : Setting) :
    t.Gets (Function.update chosen s (some text)) none ((g.set s v).value t) := by
  by_cases ht : t = s
  · subst ht
    rw [value_set_self]
    exact .taken (Function.update_self ..) hv
  · rw [value_set_of_ne g v ht]
    exact (hg t).congr (Function.update_of_ne ht ..)

namespace Progress

/-- All that the arguments so far say, a pending value included, is what `chosen` says. -/
def Holds (p : Progress) (chosen : Setting → Option String) : Prop :=
  p.isClosed = false ∧ ∃ q, p.settle = .ok q ∧ q.pending? = none ∧ q.isClosed = false ∧
    ∀ s : Setting, s.Gets chosen none (q.given.value s)

variable {p q : Progress} {chosen : Setting → Option String}

theorem holds_empty : Holds {} fun _ => none := by
  refine ⟨rfl, {}, rfl, rfl, rfl, ?_⟩
  intro s
  cases s <;> exact .left rfl

theorem holds_of_settled (hpending : p.pending? = none) (hclosed : p.isClosed = false)
    (hgets : ∀ s : Setting, s.Gets chosen none (p.given.value s)) : p.Holds chosen :=
  ⟨hclosed, p, settle_of_eq_none hpending, hpending, hclosed, hgets⟩

/-- The arguments that give one setting give it alone. -/
theorem step_written {s : Setting} {text : String} {front : List String}
    (hfront : WritesSetting s text front) (haccepts : s.Accepts text)
    (hopen : chosen s = none) (hp : p.Holds chosen) :
    ∃ q, front.foldlM step p = .ok q ∧ q.Holds (Function.update chosen s (some text)) := by
  obtain ⟨v, hv⟩ := Setting.accepts_iff.mp haccepts
  obtain ⟨hclosed, q, hsettle, hpending, hqclosed, hq⟩ := hp
  have hnone : q.given.value s = none :=
    (hq s).unique (.left hopen)
  have hgive := give_of_means hnone hv
  have hgets := Given.gets_set hq hv
  have hgiven : Holds { q with given := q.given.set s v, met := q.met ++ [s] }
      (Function.update chosen s (some text)) := holds_of_settled hpending hqclosed hgets
  cases hfront with
  | apart htakes hplain =>
    have hname : p.step s!"--{s.name}" = .ok { q with pending? := some ⟨s, none⟩ } := by
      rw [step_known hclosed (Word.ofText_name s), take_name hsettle htakes]
    have hvalue : step { q with pending? := some ⟨s, none⟩ } text =
        .ok { q with pending? := some ⟨s, some text⟩ } :=
      step_plain hqclosed (Word.ofText_plain hplain) rfl
    refine ⟨{ q with pending? := some ⟨s, some text⟩ }, ?_, ?_⟩
    · rw [List.foldlM_cons, hname]
      change List.foldlM step { q with pending? := some ⟨s, none⟩ } [text] = _
      rw [List.foldlM_cons, hvalue]
      rfl
    · -- The value is read when the option is settled.
      exact ⟨hqclosed, _, give_of_means hnone hv, rfl, hqclosed, hgets⟩
  | joined htakes =>
    refine ⟨_, ?_, hgiven⟩
    rw [List.foldlM_cons, step_known hclosed (Word.ofText_joined s text),
      take_joined hsettle htakes, hgive]
    rfl
  | switch =>
    have hword : Word.ofText "--skip-header" = .known (.setting .skipHeader) none := by decide
    refine ⟨_, ?_, hgiven⟩
    rw [List.foldlM_cons, step_known hclosed hword, take_switch hsettle (by decide), hgive]
    rfl

theorem lookup_cons_of_ne {choices : List (Setting × String)} {s t : Setting} {text : String}
    (h : t ≠ s) : List.lookup t ((s, text) :: choices) = choices.lookup t := by
  rw [List.lookup_cons, beq_false_of_ne h]

/-- **Arguments that give settings give all of them**, whatever their order. -/
theorem foldlM_step_written {choices : List (Setting × String)} {arguments : List String}
    (h : WritesSettings choices arguments)
    (hopen : ∀ s, (choices.lookup s).isSome → chosen s = none) (hp : p.Holds chosen) :
    ∃ q, arguments.foldlM step p = .ok q ∧ q.Holds fun s => (chosen s).or (choices.lookup s) := by
  -- By induction on the choices: each finds its setting open and leaves those of the rest open.
  induction h generalizing p chosen with
  | nil =>
    refine ⟨p, rfl, ?_⟩
    have hsame : (fun s => (chosen s).or (List.lookup s [])) = chosen :=
      funext fun s => Option.or_none
    rw [hsame]
    exact hp
  | @cons s text choices front rest hfront haccepts hfresh _ ih =>
    have hself : List.lookup s ((s, text) :: choices) = some text := List.lookup_cons_self
    have hs : chosen s = none := hopen s (by rw [hself, Option.isSome_some])
    obtain ⟨k, hk, hkholds⟩ := step_written hfront haccepts hs hp
    have hlater : ∀ t, (choices.lookup t).isSome →
        Function.update chosen s (some text) t = none := by
      intro t ht
      have hne : t ≠ s := by
        rintro rfl
        rw [hfresh] at ht
        cases ht
      rw [Function.update_of_ne hne]
      exact hopen t (by rw [lookup_cons_of_ne hne, ht])
    obtain ⟨q, hq, hqholds⟩ := ih hlater hkholds
    refine ⟨q, ?_, ?_⟩
    · rw [List.foldlM_append, hk]
      exact hq
    · have hsame : (fun t => (chosen t).or (List.lookup t ((s, text) :: choices))) =
          fun t => (Function.update chosen s (some text) t).or (choices.lookup t) := by
        funext t
        by_cases ht : t = s
        · rw [ht, hself, hs, Function.update_self, Option.none_or, Option.some_or]
        · rw [lookup_cons_of_ne ht, Function.update_of_ne ht]
      rw [hsame]
      exact hqholds

end Progress

/-! ### The main statement -/

/-- What a command line gives is completed from the environment. -/
theorem Settings.read_eq {choices : List (Setting × String)} {arguments : List String}
    (h : WritesSettings choices arguments) :
    ∃ g : Given, (∀ s : Setting, s.Gets (fun t => choices.lookup t) none (g.value s)) ∧
      ∀ environment, Settings.read arguments environment =
        (g.complete environment).map Given.settings := by
  obtain ⟨p, hp, -, q, hsettle, -, -, hgets⟩ :=
    Progress.foldlM_step_written h (fun _ _ => rfl) Progress.holds_empty
  refine ⟨q.given, fun s => (hgets s).congr Option.none_or.symm, ?_⟩
  intro environment
  rw [Settings.read, hp]
  change (do let given ← (← p.settle).given.complete environment; return given.settings) = _
  rw [hsettle]
  change (do let given ← q.given.complete environment; return given.settings) = _
  cases q.given.complete environment <;> rfl

/-- **Each setting has the value of the command line, else that of the environment, else its
    default.**  Let the arguments give some settings, in any order, in either spelling and
    each once at most, texts that these accept.  Then
    they are read exactly if the environment holds no text that an open setting does not
    accept, whatever it holds for the settings that are given;
    each setting has the value that its text on the command line means, without one the
    value that its text in the environment means, and without either its default, and these
    are the values that the catalog is loaded with and searched with;
    and arguments that give the same settings the same texts are read alike. -/
theorem Settings.read_written (environment : Setting → Option String)
    {choices : List (Setting × String)} {arguments : List String}
    (h : WritesSettings choices arguments) :
    ((∃ settings, Settings.read arguments environment = .ok settings) ↔
      ∀ s : Setting, choices.lookup s = none →
        ∀ text, environment s = some text → s.Accepts text) ∧
    (∀ settings, Settings.read arguments environment = .ok settings →
      (∀ s : Setting,
        match (choices.lookup s).or (environment s) with
        | some text => s.Means text (settings.value s)
        | none => settings.value s = s.default) ∧
      settings.loadOptions = ⟨settings.skipHeader⟩ ∧
      settings.searchSettings = ⟨settings.pageSize⟩) ∧
    (∀ choices' arguments', WritesSettings choices' arguments' →
      (∀ s : Setting, choices'.lookup s = choices.lookup s) →
        Settings.read arguments' environment = Settings.read arguments environment) := by
  obtain ⟨g, hg, hread⟩ := Settings.read_eq h
  refine ⟨?_, ?_, ?_⟩
  · have hopen : ∀ s : Setting, g.value s = none ↔ choices.lookup s = none :=
      fun s => (hg s).eq_none_iff
    simp only [hread, Numeral.map_eq_ok_iff, ← hopen, ← Given.exists_complete_iff]
    constructor
    · rintro ⟨_, h, hok, -⟩
      exact ⟨h, hok⟩
    · rintro ⟨h, hok⟩
      exact ⟨_, h, hok, rfl⟩
  · intro settings hsettings
    rw [hread, Numeral.map_eq_ok_iff] at hsettings
    obtain ⟨h, hok, rfl⟩ := hsettings
    refine ⟨?_, rfl, rfl⟩
    intro s
    rw [Given.value_settings]
    exact ((hg s).trans (Given.complete_eq_ok_iff.mp hok s)).getD_default
  · intro choices' arguments' h' hsame
    obtain ⟨g', hg', hread'⟩ := Settings.read_eq h'
    have heq : g' = g := by
      apply Given.ext_value
      intro s
      exact ((hg' s).congr (hsame s).symm).unique (hg s)
    rw [hread', hread, heq]

/-- The page size stands on the command line, so what the environment says of it is not looked
    at; the address comes from there. -/
theorem Settings.read_written_pageSize :
    let environment : Setting → Option String
      | .bind => some "[::1]:80"
      | .pageSize => some "none"
      | _ => none
    WritesSettings [(.pageSize, "+05"), (.data, "tea.csv")]
        ["--page-size=+05", "--data", "tea.csv"] ∧
      ∃ settings, Settings.read ["--page-size=+05", "--data", "tea.csv"] environment =
          .ok settings ∧
        settings.data = "tea.csv" ∧ settings.pageSize = 5 ∧ settings.skipHeader = false ∧
        SocketAddress.ofText? "[::1]:80" = some settings.bind := by
  intro environment
  have hfive : Numeral.Denotes "+05".toList (5 : Nat) :=
    .plus ⟨by decide, [0, 5], by decide, by decide⟩
  have hdata : Setting.data.Accepts "tea.csv" := by
    change "tea.csv" ≠ ""
    decide
  have hwritten : WritesSettings [(.pageSize, "+05"), (.data, "tea.csv")]
      ["--page-size=+05", "--data", "tea.csv"] :=
    .cons (.joined (by decide)) ⟨5, by decide, by decide, hfive⟩ (by decide) <|
      .cons (.apart (by decide) (by decide)) hdata rfl .nil
  obtain ⟨hiff, hvalues, -⟩ := Settings.read_written environment hwritten
  obtain ⟨settings, hsettings⟩ := hiff.mpr (by
    intro s hopen text htext
    cases s with
    | data => cases hopen
    | bind =>
      cases htext
      change (SocketAddress.ofText? "[::1]:80").isSome
      decide +kernel
    | pageSize => cases hopen
    | skipHeader => cases htext)
  obtain ⟨hvalue, -, -⟩ := hvalues settings hsettings
  have hdata : "tea.csv" ≠ "" ∧ settings.data = "tea.csv" := hvalue .data
  have hbind : SocketAddress.ofText? "[::1]:80" = some settings.bind := hvalue .bind
  have hpageSize : 1 ≤ settings.pageSize.toNat ∧
      Numeral.Denotes "+05".toList settings.pageSize.toNat := hvalue .pageSize
  have hskipHeader : settings.skipHeader = false := hvalue .skipHeader
  have hpages : settings.pageSize = 5 :=
    UInt64.toNat_inj.mp (Int.ofNat_inj.mp (hpageSize.2.unique hfive))
  exact ⟨hwritten, settings, hsettings, hdata.2, hpages, hskipHeader, hbind⟩

end Stocklist
