/-
  Stocklist/Proofs/Settings/CommandLine.lean
  ==========================================
  **Which argument lists give settings, and where each value comes from.**

  `CommandLine arguments choices` says what a command line looks like: options with values,
  switches, and perhaps two dashes at the end.  It says which setting is given which text,
  and not whether the texts are accepted.  `Given.Takes` does that, choice by choice: the
  setting is still open, and the text means a value.

  A single argument has one of five effects or is refused (`step_eq_ok_iff`).  By induction
  over the arguments, they are read to the end exactly if they are a command line whose
  choices are taken (`finishes_iff`).  So for every list of arguments and every environment
  that give settings, each value is that of a text on the command line, else that of a text
  in the environment, else the default (`value_of_read`).
-/
import Stocklist.Proofs.Settings.Precedence

namespace Stocklist

/-! ### Command lines -/

/-- A text that is taken for a value by itself: it does not start with a dash, unless it is
    nothing but a dash. -/
def StandsAlone (text : String) : Prop :=
  text.toList.head? ≠ some '-' ∨ text = "-"

/-- `CommandLine arguments choices`: the arguments are options and switches that give settings
    the texts of the choices, in this order, with two dashes at the end or without. -/
inductive CommandLine : List String → List (Setting × String) → Prop where
  | nil : CommandLine [] []
  | ended : CommandLine ["--"] []
  | apart {s : Setting} {text : String} {rest : List String}
      {choices : List (Setting × String)} :
      s.takesValue → StandsAlone text → CommandLine rest choices →
      CommandLine (s!"--{s.name}" :: text :: rest) ((s, text) :: choices)
  | joined {s : Setting} {text : String} {rest : List String}
      {choices : List (Setting × String)} :
      s.takesValue → CommandLine rest choices →
      CommandLine (s!"--{s.name}={text}" :: rest) ((s, text) :: choices)
  | switch {rest : List String} {choices : List (Setting × String)} :
      CommandLine rest choices →
      CommandLine ("--skip-header" :: rest) ((.skipHeader, "true") :: choices)

/-- `g.Takes choices h`: each choice gives an open setting a value that its text means, which
    leads from `g` to `h`. -/
inductive Given.Takes : Given → List (Setting × String) → Given → Prop where
  | nil (g : Given) : Takes g [] g
  | cons {g h : Given} {s : Setting} {text : String} {v : s.Value}
      {choices : List (Setting × String)} :
      g.value s = none → s.Means text v → Takes (g.set s v) choices h →
      Takes g ((s, text) :: choices) h

/-- Choices that are taken are a source of texts. -/
theorem Given.Takes.gets {g h : Given} {choices : List (Setting × String)}
    (htakes : g.Takes choices h) (t : Setting) :
    t.Gets (fun s => choices.lookup s) (g.value t) (h.value t) := by
  induction htakes with
  | nil g =>
    cases g.value t with
    | none => exact .left rfl
    | some v => exact .kept v
  | @cons g h s text v choices hopen hv _ ih =>
    by_cases hts : t = s
    · subst hts
      rw [value_set_self] at ih
      rw [hopen, ih.unique (.kept v)]
      exact .taken List.lookup_cons_self hv
    · rw [value_set_of_ne g v hts] at ih
      exact ih.congr (Progress.lookup_cons_of_ne hts)

/-! ### Words -/

namespace Word

theorem eq_of_ofName {cs : List Char} {s : Setting} {value? : Option String}
    (h : ofName cs = .known (.setting s) value?) :
    cs = s.name.toList ++ (value?.map fun value => '=' :: value.toList).getD [] := by
  have hsplit : cs.takeWhile (· ≠ '=') ++ cs.dropWhile (· ≠ '=') = cs :=
    List.takeWhile_append_dropWhile
  unfold ofName at h
  dsimp only at h
  split at h
  · cases h
  · next topic hfind =>
    have hname : topic.name.toList = cs.takeWhile (· ≠ '=') := by
      have hfound : topic.name = String.ofList (cs.takeWhile (· ≠ '=')) := by
        simpa using List.find?_some hfind
      rw [hfound, String.toList_ofList]
    rw [← hname] at hsplit
    split at h
    · next hdrop =>
      cases h
      rw [Option.map_none, Option.getD_none, ← hdrop]
      exact hsplit.symm
    · next c value hdrop =>
      cases h
      have hequals : c = '=' := by
        have hhead := List.head?_dropWhile_not (· ≠ '=') cs
        rw [hdrop] at hhead
        simpa using hhead
      rw [Option.map_some, Option.getD_some, String.toList_ofList, ← hequals, ← hdrop]
      exact hsplit.symm

/-- A known option or switch stands after two dashes; no letter is one for a setting. -/
theorem eq_of_ofText {text : String} {s : Setting} {value? : Option String}
    (h : ofText text = .known (.setting s) value?) :
    text.toList = '-' :: '-' ::
      (s.name.toList ++ (value?.map fun value => '=' :: value.toList).getD []) := by
  unfold ofText at h
  split at h
  · cases h
  · next cs htext => rw [htext, eq_of_ofName h]
  · next c _ _ _ =>
    split at h
    · cases h
    · next topic hfind =>
      cases h
      have hletter := List.find?_some hfind
      simp [Topic.letter?] at hletter
  · cases h

theorem eq_of_ofText_none {text : String} {s : Setting}
    (h : ofText text = .known (.setting s) none) : text = s!"--{s.name}" := by
  have hchars : text.toList = ("--" ++ s.name).toList := by
    rw [eq_of_ofText h]
    simp
  exact String.toList_inj.mp hchars

theorem eq_of_ofText_some {text value : String} {s : Setting}
    (h : ofText text = .known (.setting s) (some value)) : text = s!"--{s.name}={value}" := by
  have hchars : text.toList = ("--" ++ s.name ++ "=" ++ value).toList := by
    rw [eq_of_ofText h]
    simp
  exact String.toList_inj.mp hchars

theorem ofName_known_or_unknown (cs : List Char) :
    (∃ topic value?, ofName cs = .known topic value?) ∨ ∃ name, ofName cs = .unknownName name := by
  unfold ofName
  dsimp only
  split
  · exact Or.inr ⟨_, rfl⟩
  · split
    · exact Or.inl ⟨_, _, rfl⟩
    · exact Or.inl ⟨_, _, rfl⟩

theorem ofText_eq_plain_iff {text : String} : ofText text = .plain ↔ StandsAlone text := by
  constructor
  · intro h
    unfold ofText at h
    split at h
    · cases h
    · next cs _ _ =>
      rcases ofName_known_or_unknown cs with ⟨topic, value?, hname⟩ | ⟨name, hname⟩
      · cases hname.symm.trans h
      · cases hname.symm.trans h
    · split at h <;> cases h
    · next hletter =>
      cases htext : text.toList with
      | nil => exact Or.inl (by simp [htext])
      | cons c cs =>
        by_cases hdash : c = '-'
        · subst hdash
          cases cs with
          | nil => exact Or.inr (String.toList_inj.mp htext)
          | cons d ds => exact absurd htext (hletter d ds)
        · exact Or.inl (by simpa [htext] using hdash)
  · rintro (h | rfl)
    · exact ofText_plain h
    · rfl

theorem ofText_eq_separator_iff {text : String} : ofText text = .separator ↔ text = "--" := by
  constructor
  · intro h
    unfold ofText at h
    split at h
    · next htext => exact String.toList_inj.mp htext
    · next cs _ _ =>
      rcases ofName_known_or_unknown cs with ⟨topic, value?, hname⟩ | ⟨name, hname⟩
      · cases hname.symm.trans h
      · cases hname.symm.trans h
    · split at h <;> cases h
    · cases h
  · rintro rfl
    rfl

end Word

/-- The choices that a command line makes, found word by word. -/
def choicesOf : List String → List (Setting × String)
  | [] => []
  | text :: rest =>
    match Word.ofText text with
    | .known (.setting s) (some value) => (s, value) :: choicesOf rest
    | .known (.setting s) none =>
      if s.takesValue then
        match rest with
        | [] => []
        | value :: rest => (s, value) :: choicesOf rest
      else (s, "true") :: choicesOf rest
    | _ => []

theorem CommandLine.choicesOf_eq {arguments : List String} {choices : List (Setting × String)}
    (h : CommandLine arguments choices) : choicesOf arguments = choices := by
  induction h with
  | nil => rfl
  | ended => rfl
  | apart htakes _ _ ih => simp only [choicesOf, Word.ofText_name, if_pos htakes, ih]
  | joined _ _ ih => simp only [choicesOf, Word.ofText_joined, ih]
  | switch _ ih =>
    have hword : Word.ofText "--skip-header" = .known (.setting .skipHeader) none := by decide
    have htakes : ¬ Setting.skipHeader.takesValue := by decide
    simp only [choicesOf, hword, if_neg htakes, ih]

/-- A command line makes its choices in one way only. -/
theorem CommandLine.unique {arguments : List String} {choices others : List (Setting × String)}
    (h : CommandLine arguments choices) (hothers : CommandLine arguments others) :
    choices = others :=
  h.choicesOf_eq.symm.trans hothers.choicesOf_eq

/-! ### Single steps -/

namespace Progress

variable {p q : Progress} {s : Setting} {text : String}

theorem give_eq_ok_iff : p.give s text = .ok q ↔
    p.given.value s = none ∧ ∃ v, s.Means text v ∧
      q = { p with given := p.given.set s v, met := p.met ++ [s] } := by
  constructor
  · intro h
    rw [give] at h
    split_ifs at h with hhas
    obtain ⟨g, hput, hq⟩ := bind_eq_ok_iff.mp h
    obtain ⟨v, hv, rfl⟩ := Given.put?_eq_ok_iff.mp hput
    cases hq
    rw [Given.has_eq, Bool.not_eq_true, Option.isSome_eq_false_iff, Option.isNone_iff_eq_none]
      at hhas
    exact ⟨hhas, v, hv, rfl⟩
  · rintro ⟨hopen, v, hv, rfl⟩
    exact give_of_means hopen hv

/-- What is settled: nothing, or the value of the option that was met last. -/
theorem settle_eq_ok_iff : p.settle = .ok q ↔
    p.pending? = none ∧ q = p ∨ ∃ s text, p.pending? = some ⟨s, some text⟩ ∧
      give { p with pending? := none } s text = .ok q := by
  unfold settle
  split
  · next hpending => simp [hpending, eq_comm]
  · next s hpending => simp [hpending]
  · next s text hpending =>
    simp only [hpending, Option.some.injEq, Pending.mk.injEq, reduceCtorEq, false_and, false_or]
    constructor
    · intro h
      exact ⟨s, text, ⟨rfl, rfl⟩, h⟩
    · rintro ⟨_, _, ⟨rfl, rfl⟩, h⟩
      exact h

theorem settled (h : p.settle = .ok q) : q.pending? = none ∧ q.isClosed = p.isClosed := by
  rcases settle_eq_ok_iff.mp h with ⟨hpending, rfl⟩ | ⟨s, text, -, hgive⟩
  · exact ⟨hpending, rfl⟩
  · obtain ⟨-, v, -, rfl⟩ := give_eq_ok_iff.mp hgive
    exact ⟨rfl, rfl⟩

theorem settled_of_give {r : Progress} (h : p.settle = .ok q) (hgive : q.give s text = .ok r) :
    r.pending? = none ∧ r.isClosed = p.isClosed := by
  obtain ⟨hpending, hclosed⟩ := settled h
  obtain ⟨-, v, -, rfl⟩ := give_eq_ok_iff.mp hgive
  exact ⟨hpending, hclosed⟩

theorem not_settle_of_waiting (h : p.pending? = some ⟨s, none⟩) : p.settle ≠ .ok q := by
  rw [settle, h]
  intro herror
  cases herror

/-- The end of the options has no part in settling. -/
theorem settle_ended : settle { p with isClosed := true } =
    p.settle.map fun q => { q with isClosed := true } := by
  obtain ⟨given, met, pending?, isClosed⟩ := p
  cases pending? with
  | none => rfl
  | some pending =>
    obtain ⟨s, _ | text⟩ := pending
    · rfl
    · simp only [settle, give]
      split_ifs
      · rfl
      · cases given.put? s text <;> rfl

/-- `Steps p text q`: one argument leads from `p` to `q`, in one of five ways. -/
inductive Steps (p : Progress) : String → Progress → Prop where
  | ended : Steps p "--" { p with isClosed := true }
  | named {s : Setting} {q : Progress} : s.takesValue → p.settle = .ok q →
      Steps p s!"--{s.name}" { q with pending? := some ⟨s, none⟩ }
  | joined {s : Setting} {text : String} {q r : Progress} : s.takesValue → p.settle = .ok q →
      q.give s text = .ok r → Steps p s!"--{s.name}={text}" r
  | switch {q r : Progress} : p.settle = .ok q → q.give .skipHeader "true" = .ok r →
      Steps p "--skip-header" r
  | value {s : Setting} {text : String} : p.pending? = some ⟨s, none⟩ → StandsAlone text →
      Steps p text { p with pending? := some ⟨s, some text⟩ }

theorem eq_skipHeader (h : ¬ s.takesValue) : s = .skipHeader := by
  cases s <;> first | rfl | exact absurd rfl h

theorem steps_of_take {value? : Option String} {topic : Topic}
    (hword : Word.ofText text = .known topic value?) (h : p.take topic value? = .ok q) :
    Steps p text q := by
  cases topic with
  | help =>
    cases value? with
    | none =>
      obtain ⟨_, _, h⟩ := bind_eq_ok_iff.mp h
      cases h
    | some value => cases h
  | version =>
    cases value? with
    | none =>
      obtain ⟨_, _, h⟩ := bind_eq_ok_iff.mp h
      cases h
    | some value => cases h
  | setting s =>
    cases value? with
    | none =>
      obtain rfl := Word.eq_of_ofText_none hword
      obtain ⟨r, hsettle, h⟩ := bind_eq_ok_iff.mp h
      split_ifs at h with htakes
      · cases h
        exact .named htakes hsettle
      · obtain rfl := eq_skipHeader htakes
        exact .switch hsettle h
    | some value =>
      obtain rfl := Word.eq_of_ofText_some hword
      rw [take] at h
      split_ifs at h with htakes
      obtain ⟨r, hsettle, h⟩ := bind_eq_ok_iff.mp h
      exact .joined htakes hsettle h

theorem step_of_steps (hp : p.isClosed = false) (h : Steps p text q) : p.step text = .ok q := by
  cases h with
  | ended =>
    rw [step, hp]
    rfl
  | named htakes hsettle =>
    rw [step_known hp (Word.ofText_name _), take_name hsettle htakes]
  | joined htakes hsettle hgive =>
    rw [step_known hp (Word.ofText_joined _ _), take_joined hsettle htakes, hgive]
  | switch hsettle hgive =>
    have hword : Word.ofText "--skip-header" = .known (.setting .skipHeader) none := by decide
    rw [step_known hp hword, take_switch hsettle (by decide), hgive]
  | value hpending halone =>
    rw [step_plain hp (Word.ofText_eq_plain_iff.mpr halone) hpending]

/-- **An argument has one of five effects,** or it is refused. -/
theorem step_eq_ok_iff (hp : p.isClosed = false) : p.step text = .ok q ↔ Steps p text q := by
  refine ⟨?_, step_of_steps hp⟩
  intro h
  have hopen : ¬ p.isClosed = true := by simp [hp]
  rw [step, if_neg hopen] at h
  split at h
  · next hword =>
    obtain rfl := Word.ofText_eq_separator_iff.mp hword
    cases h
    exact .ended
  · next hword => exact steps_of_take hword h
  · cases h
  · cases h
  · next hword =>
    split at h
    · next hpending =>
      cases h
      exact .value hpending (Word.ofText_eq_plain_iff.mp hword)
    · cases h

/-! ### Whole command lines -/

/-- `p.Finishes arguments g`: from `p` on, the arguments are read to the end, and `g` is what
    has been given then. -/
def Finishes (p : Progress) (arguments : List String) (g : Given) : Prop :=
  ∃ q r, arguments.foldlM step p = .ok q ∧ q.settle = .ok r ∧ r.given = g

variable {g : Given} {rest : List String}

theorem finishes_nil : p.Finishes [] g ↔ ∃ r, p.settle = .ok r ∧ r.given = g := by
  constructor
  · rintro ⟨q, r, hrun, hsettle, hgiven⟩
    cases hrun
    exact ⟨r, hsettle, hgiven⟩
  · rintro ⟨r, hsettle, hgiven⟩
    exact ⟨p, r, rfl, hsettle, hgiven⟩

theorem finishes_cons (hp : p.isClosed = false) :
    p.Finishes (text :: rest) g ↔ ∃ q, Steps p text q ∧ q.Finishes rest g := by
  constructor
  · rintro ⟨q, r, hrun, hend⟩
    rw [List.foldlM_cons] at hrun
    obtain ⟨k, hk, hrun⟩ := bind_eq_ok_iff.mp hrun
    exact ⟨k, (step_eq_ok_iff hp).mp hk, q, r, hrun, hend⟩
  · rintro ⟨k, hk, q, r, hrun, hend⟩
    refine ⟨q, r, ?_, hend⟩
    rw [List.foldlM_cons, step_of_steps hp hk]
    exact hrun

/-- Nothing follows the end of the options. -/
theorem finishes_ended : Finishes { p with isClosed := true } rest g ↔
    rest = [] ∧ ∃ r, p.settle = .ok r ∧ r.given = g := by
  cases rest with
  | nil =>
    rw [finishes_nil, settle_ended]
    cases p.settle <;> simp [Except.map]
  | cons text rest =>
    constructor
    · rintro ⟨q, r, hrun, -⟩
      cases hrun
    · rintro ⟨h, -⟩
      cases h

/-- An option that waits for its value gets it from the next argument. -/
theorem finishes_waiting (hp : p.isClosed = false) (hwaiting : p.pending? = some ⟨s, none⟩)
    {arguments : List String} (h : p.Finishes arguments g) :
    ∃ text rest, arguments = text :: rest ∧ StandsAlone text ∧
      Finishes { p with pending? := some ⟨s, some text⟩ } rest g := by
  cases arguments with
  | nil =>
    obtain ⟨r, hsettle, -⟩ := finishes_nil.mp h
    exact absurd hsettle (not_settle_of_waiting hwaiting)
  | cons text rest =>
    obtain ⟨q, hstep, hrest⟩ := (finishes_cons hp).mp h
    cases hstep with
    | ended =>
      obtain ⟨-, r, hsettle, -⟩ := finishes_ended.mp hrest
      exact absurd hsettle (not_settle_of_waiting hwaiting)
    | named _ hsettle => exact absurd hsettle (not_settle_of_waiting hwaiting)
    | joined _ hsettle => exact absurd hsettle (not_settle_of_waiting hwaiting)
    | switch hsettle => exact absurd hsettle (not_settle_of_waiting hwaiting)
    | value hpending halone =>
      cases hwaiting.symm.trans hpending
      exact ⟨text, rest, rfl, halone, hrest⟩

/-- A value that is given is the first choice of all that follow. -/
theorem takes_of_give {k r : Progress} {choices : List (Setting × String)}
    (hgive : k.give s text = .ok r) (htakes : r.given.Takes choices g) :
    k.given.Takes ((s, text) :: choices) g := by
  obtain ⟨hopen, v, hv, rfl⟩ := give_eq_ok_iff.mp hgive
  exact .cons hopen hv htakes

theorem commandLine_of_finishes {arguments : List String} (hp : p.isClosed = false)
    (hwaiting : ∀ s, p.pending? ≠ some ⟨s, none⟩) (h : p.Finishes arguments g) :
    ∃ q choices, p.settle = .ok q ∧ CommandLine arguments choices ∧ q.given.Takes choices g := by
  -- By induction on the number of arguments: an option takes one or two.
  induction hlength : arguments.length using Nat.strong_induction_on
    generalizing arguments p with
  | _ n ih =>
    cases arguments with
    | nil =>
      obtain ⟨r, hsettle, rfl⟩ := finishes_nil.mp h
      exact ⟨r, [], hsettle, .nil, .nil r.given⟩
    | cons text rest =>
      rw [List.length_cons] at hlength
      obtain ⟨q, hstep, hrest⟩ := (finishes_cons hp).mp h
      cases hstep with
      | ended =>
        obtain ⟨rfl, r, hsettle, rfl⟩ := finishes_ended.mp hrest
        exact ⟨r, [], hsettle, .ended, .nil r.given⟩
      | @named s k htakes hsettle =>
        obtain ⟨-, hclosed⟩ := settled hsettle
        obtain ⟨value, rest, rfl, halone, hrest⟩ :=
          finishes_waiting (p := { k with pending? := some ⟨s, none⟩ }) (hclosed.trans hp) rfl hrest
        rw [List.length_cons] at hlength
        obtain ⟨q', choices, hsettle', hline, htaken⟩ :=
          ih rest.length (by omega) (p := { k with pending? := some ⟨s, some value⟩ })
            (hclosed.trans hp) (by simp) hrest rfl
        have htaken' : k.given.Takes ((s, value) :: choices) g :=
          takes_of_give (k := { k with pending? := none }) hsettle' htaken
        exact ⟨k, _, hsettle, .apart htakes halone hline, htaken'⟩
      | joined htakes hsettle hgive =>
        obtain ⟨hnone, hclosed⟩ := settled_of_give hsettle hgive
        obtain ⟨q', choices, hsettle', hline, htaken⟩ :=
          ih rest.length (by omega) (hclosed.trans hp) (by simp [hnone]) hrest rfl
        cases (settle_of_eq_none hnone).symm.trans hsettle'
        exact ⟨_, _, hsettle, .joined htakes hline, takes_of_give hgive htaken⟩
      | switch hsettle hgive =>
        obtain ⟨hnone, hclosed⟩ := settled_of_give hsettle hgive
        obtain ⟨q', choices, hsettle', hline, htaken⟩ :=
          ih rest.length (by omega) (hclosed.trans hp) (by simp [hnone]) hrest rfl
        cases (settle_of_eq_none hnone).symm.trans hsettle'
        exact ⟨_, _, hsettle, .switch hline, takes_of_give hgive htaken⟩
      | value hpending => exact absurd hpending (hwaiting _)

theorem finishes_of_commandLine {arguments : List String} {choices : List (Setting × String)}
    (hline : CommandLine arguments choices) (hp : p.isClosed = false) (hsettle : p.settle = .ok q)
    (htakes : q.given.Takes choices g) : p.Finishes arguments g := by
  induction hline generalizing p q with
  | nil =>
    cases htakes
    exact finishes_nil.mpr ⟨q, hsettle, rfl⟩
  | ended =>
    cases htakes
    exact (finishes_cons hp).mpr ⟨_, .ended, finishes_ended.mpr ⟨rfl, q, hsettle, rfl⟩⟩
  | @apart s _ _ _ hvalue halone _ ih =>
    cases htakes with
    | cons hopen hv htakes =>
      obtain ⟨hpending, hclosed⟩ := settled hsettle
      have hwaiting := hclosed.trans hp
      refine (finishes_cons hp).mpr ⟨_, .named hvalue hsettle, ?_⟩
      refine (finishes_cons (p := { q with pending? := some ⟨s, none⟩ }) hwaiting).mpr
        ⟨_, .value rfl halone, ?_⟩
      exact ih hwaiting (give_of_means hopen hv) htakes
  | joined hvalue _ ih =>
    cases htakes with
    | cons hopen hv htakes =>
      obtain ⟨hpending, hclosed⟩ := settled hsettle
      refine (finishes_cons hp).mpr
        ⟨_, .joined hvalue hsettle (give_of_means hopen hv), ?_⟩
      exact ih (hclosed.trans hp) (settle_of_eq_none hpending) htakes
  | switch _ ih =>
    cases htakes with
    | cons hopen hv htakes =>
      obtain ⟨hpending, hclosed⟩ := settled hsettle
      refine (finishes_cons hp).mpr ⟨_, .switch hsettle (give_of_means hopen hv), ?_⟩
      exact ih (hclosed.trans hp) (settle_of_eq_none hpending) htakes

/-- **Arguments are read to the end exactly if they are a command line whose choices are
    taken.** -/
theorem finishes_iff {arguments : List String} :
    Finishes {} arguments g ↔
      ∃ choices, CommandLine arguments choices ∧ Given.Takes {} choices g := by
  constructor
  · intro h
    obtain ⟨q, choices, hsettle, hline, htakes⟩ := commandLine_of_finishes rfl (by simp) h
    cases hsettle
    exact ⟨choices, hline, htakes⟩
  · rintro ⟨choices, hline, htakes⟩
    exact finishes_of_commandLine hline rfl rfl htakes

end Progress

/-! ### Settings -/

namespace Settings

variable {arguments : List String} {environment : Setting → Option String} {settings : Settings}

/-- **Which arguments and environments give which settings.** -/
theorem read_eq_ok_iff : Settings.read arguments environment = .ok settings ↔
    ∃ choices g h, CommandLine arguments choices ∧ Given.Takes {} choices g ∧
      g.complete environment = .ok h ∧ h.settings = settings := by
  constructor
  · intro hread
    obtain ⟨p, hrun, hread⟩ := bind_eq_ok_iff.mp hread
    obtain ⟨q, hsettle, hread⟩ := bind_eq_ok_iff.mp hread
    obtain ⟨h, hcomplete, hread⟩ := bind_eq_ok_iff.mp hread
    obtain ⟨choices, hline, htakes⟩ := Progress.finishes_iff.mp ⟨p, q, hrun, hsettle, rfl⟩
    exact ⟨choices, q.given, h, hline, htakes, hcomplete, Except.ok.inj hread⟩
  · rintro ⟨choices, g, h, hline, htakes, hcomplete, rfl⟩
    obtain ⟨p, q, hrun, hsettle, rfl⟩ := Progress.finishes_iff.mpr ⟨choices, hline, htakes⟩
    refine bind_eq_ok_iff.mpr ⟨p, hrun, bind_eq_ok_iff.mpr ⟨q, hsettle, ?_⟩⟩
    exact bind_eq_ok_iff.mpr ⟨h, hcomplete, rfl⟩

/-- **Every value has its text,** on the command line or else in the environment, or it is
    the default. -/
theorem value_of_read (hread : Settings.read arguments environment = .ok settings) :
    ∃ choices, CommandLine arguments choices ∧ ∀ s : Setting,
      match (choices.lookup s).or (environment s) with
      | some text => s.Means text (settings.value s)
      | none => settings.value s = s.default := by
  obtain ⟨choices, g, h, hline, htakes, hcomplete, rfl⟩ := read_eq_ok_iff.mp hread
  refine ⟨choices, hline, ?_⟩
  intro s
  have hnone : Given.value {} s = none := by
    cases s <;> rfl
  have hgets := htakes.gets s
  rw [hnone] at hgets
  rw [Given.value_settings]
  exact (hgets.trans (Given.complete_eq_ok_iff.mp hcomplete s)).getD_default

end Settings

end Stocklist
