/-
  Stocklist/Proofs/Settings/PageSize.lean
  =======================================
  **No configuration gives a page size of zero or one that wraps around.**

  `IsPageSize text n` says which texts are page sizes, digit by digit and without a bound on
  their number.  A text that is none is refused with a reason (`readPageSize_of_not`).

  Whatever the arguments and the environment are, the size in the settings is the one that
  the text it was taken from denotes (`Proofs/Settings/CommandLine`), so it is at least 1
  and no larger than the text says (`pageSize_exact`).
-/
import Stocklist.Proofs.Settings.CommandLine

namespace Stocklist

open Numeral (IsDigits)

/-! ### Texts of page sizes -/

/-- `IsPageSize text n`: the text is one or more digits, after a plus sign or without, and they
    denote `n`, a positive integer of 64 bits. -/
def IsPageSize (text : String) (n : ℕ) : Prop :=
  1 ≤ n ∧ n ≤ 2 ^ 64 - 1 ∧
    (IsDigits text.toList n ∨ ∃ digits, text.toList = '+' :: digits ∧ IsDigits digits n)

theorem isPageSize_iff {text : String} {n : UInt64} :
    IsPageSize text n.toNat ↔ Setting.pageSize.Means text n := by
  constructor
  · rintro ⟨hpos, -, hdigits⟩
    exact ⟨hpos, (Numeral.denotes_pos_iff hpos).mpr hdigits⟩
  · rintro ⟨hpos, hdenotes⟩
    exact ⟨hpos, Nat.le_sub_one_of_lt n.toNat_lt, (Numeral.denotes_pos_iff hpos).mp hdenotes⟩

theorem exists_isPageSize_iff {text : String} :
    (∃ n, IsPageSize text n) ↔ ∃ n : UInt64, Setting.pageSize.Means text n := by
  have haccepts : (∃ n, IsPageSize text n) ↔ Setting.pageSize.Accepts text :=
    exists_congr fun n => and_congr_right fun hpos => and_congr_right fun _ =>
      (Numeral.denotes_pos_iff hpos).symm
  rw [haccepts]
  exact Setting.accepts_iff

theorem exists_message_of_readPageSize {text : String} {fault : ValueFault}
    (h : readPageSize text = .error fault) : ∃ reason, fault.message? = some reason := by
  unfold readPageSize at h
  split at h
  · cases h
    exact ⟨_, rfl⟩
  · split_ifs at h
    cases h
    exact ⟨_, rfl⟩

/-- A text that is no page size is refused, and something is said of why. -/
theorem readPageSize_of_not {text : String} (h : ¬ ∃ n, IsPageSize text n) :
    ∃ fault reason, readPageSize text = .error fault ∧ fault.message? = some reason := by
  cases hread : readPageSize text with
  | ok n => exact absurd ⟨n.toNat, isPageSize_iff.mpr (readPageSize_eq_ok_iff.mp hread)⟩ h
  | error fault =>
    obtain ⟨reason, hreason⟩ := exists_message_of_readPageSize hread
    exact ⟨fault, reason, rfl, hreason⟩

/-! ### A page size and nothing else -/

/-- `GivesPageSize text arguments environment`: the text is given as the page size, joined to
    the option or in the environment, and no other setting is given. -/
inductive GivesPageSize (text : String) : List String → (Setting → Option String) → Prop where
  | argument {environment : Setting → Option String} :
      (∀ s, s ≠ .pageSize → environment s = none) →
      GivesPageSize text [s!"--page-size={text}"] environment
  | environment {environment : Setting → Option String} :
      (∀ s, s ≠ .pageSize → environment s = none) → environment .pageSize = some text →
      GivesPageSize text [] environment

section GivesPageSize

variable {text : String} {arguments : List String} {environment : Setting → Option String}

theorem put?_pageSize {g : Given} {fault : ValueFault} (h : readPageSize text = .error fault) :
    g.put? .pageSize text = .error (.misuse (.badValue .pageSize text fault)) := by
  simp only [Given.put?, Given.put, h, Except.map]

theorem read_of_pageSize_refused {fault : ValueFault}
    (hgives : GivesPageSize text arguments environment) (h : readPageSize text = .error fault) :
    Settings.read arguments environment = .error (.misuse (.badValue .pageSize text fault)) := by
  cases hgives with
  | argument =>
    have hstep : Progress.step {} s!"--page-size={text}" =
        .error (.misuse (.badValue .pageSize text fault)) := by
      change Progress.step {} s!"--{Setting.pageSize.name}={text}" = _
      rw [Progress.step_known rfl (Word.ofText_joined _ _), Progress.take_joined rfl (by decide),
        Progress.give, put?_pageSize h]
      rfl
    rw [Settings.read, List.foldlM_cons, hstep]
    rfl
  | environment hnone hpageSize =>
    have hdata := hnone .data (by decide)
    have hbind := hnone .bind (by decide)
    have hcomplete : Given.complete environment {} =
        .error (.misuse (.badValue .pageSize text fault)) := by
      rw [Given.complete_eq_foldlM, Setting.all, List.foldlM_cons, Given.ask_of_eq_none hdata]
      change List.foldlM (Given.ask environment) {} [.bind, .pageSize, .skipHeader] = _
      rw [List.foldlM_cons, Given.ask_of_eq_none hbind]
      change List.foldlM (Given.ask environment) {} [.pageSize, .skipHeader] = _
      rw [List.foldlM_cons, Given.ask_of_open rfl hpageSize, put?_pageSize h]
      rfl
    change (do let given ← Given.complete environment {}; return given.settings) = _
    rw [hcomplete]
    rfl

theorem read_of_pageSize_accepted {n : UInt64}
    (hgives : GivesPageSize text arguments environment) (h : Setting.pageSize.Means text n) :
    ∃ settings, Settings.read arguments environment = .ok settings ∧ settings.pageSize = n := by
  have hgiven : Given.value {} = fun _ => none := by
    funext s
    cases s <;> rfl
  cases hgives with
  | argument hnone =>
    have htakes : Given.Takes {} [(.pageSize, text)] (Given.set {} .pageSize n) :=
      .cons (by rw [hgiven]) h (.nil _)
    have hcomplete : (Given.set {} .pageSize n).complete environment =
        .ok (Given.set {} .pageSize n) := by
      rw [Given.complete_eq_ok_iff]
      intro s
      cases s with
      | pageSize => exact .kept (s := .pageSize) n
      | data | bind | skipHeader => exact .left (hnone _ (by decide))
    have hline : CommandLine [s!"--{Setting.pageSize.name}={text}"] [(.pageSize, text)] :=
      .joined (by decide) .nil
    exact ⟨_, Settings.read_eq_ok_iff.mpr ⟨_, _, _, hline, htakes, hcomplete, rfl⟩, rfl⟩
  | environment hnone hpageSize =>
    have hcomplete : Given.complete environment {} = .ok (Given.set {} .pageSize n) := by
      rw [Given.complete_eq_ok_iff]
      intro s
      cases s with
      | pageSize => exact .taken hpageSize h
      | data | bind | skipHeader => exact .left (hnone _ (by decide))
    exact ⟨_, Settings.read_eq_ok_iff.mpr ⟨_, _, _, .nil, .nil _, hcomplete, rfl⟩, rfl⟩

end GivesPageSize

/-! ### The main statement -/

section AnyArguments

variable {arguments : List String} {environment : Setting → Option String} {settings : Settings}
  {choices : List (Setting × String)}

theorem Settings.pageSize_of_read (hread : Settings.read arguments environment = .ok settings)
    (hline : CommandLine arguments choices) :
    match (choices.lookup .pageSize).or (environment .pageSize) with
    | some text => IsPageSize text settings.searchSettings.pageSize.toNat
    | none => settings.searchSettings.pageSize.toNat = 20 := by
  obtain ⟨others, hothers, hvalues⟩ := Settings.value_of_read hread
  obtain rfl := hothers.unique hline
  have hvalue := hvalues .pageSize
  cases htext : (others.lookup .pageSize).or (environment .pageSize) with
  | none =>
    rw [htext] at hvalue
    exact congrArg UInt64.toNat hvalue
  | some text =>
    rw [htext] at hvalue
    exact isPageSize_iff.mpr hvalue

theorem Settings.one_le_pageSize (hread : Settings.read arguments environment = .ok settings) :
    1 ≤ settings.searchSettings.pageSize.toNat := by
  obtain ⟨choices, hline, -⟩ := Settings.value_of_read hread
  have hsize := Settings.pageSize_of_read hread hline
  split at hsize
  · exact hsize.1
  · rw [hsize]
    decide

end AnyArguments

/-- **No configuration gives a page size of zero or one that wraps around.**  Whenever
    arguments and an environment give settings, the page size is from 1 to 2^64 - 1, the
    arguments are a command line, and the size is exactly what the text denotes that the
    command line chooses for it, without one the text in the environment, and without
    either 20.  And a text that is given as the page size, with no other setting, gives
    settings exactly if it is a page size; any other is refused for a reason that is told. -/
theorem Settings.pageSize_exact :
    (∀ (arguments : List String) (environment : Setting → Option String) (settings : Settings),
      Settings.read arguments environment = .ok settings →
      1 ≤ settings.searchSettings.pageSize.toNat ∧
      settings.searchSettings.pageSize.toNat ≤ 2 ^ 64 - 1 ∧
      (∃ choices, CommandLine arguments choices) ∧
      ∀ choices, CommandLine arguments choices →
        match (choices.lookup .pageSize).or (environment .pageSize) with
        | some text => IsPageSize text settings.searchSettings.pageSize.toNat
        | none => settings.searchSettings.pageSize.toNat = 20) ∧
    ∀ (text : String) (arguments : List String) (environment : Setting → Option String),
      GivesPageSize text arguments environment →
      ((∃ settings, Settings.read arguments environment = .ok settings) ↔
        ∃ n, IsPageSize text n) ∧
      ((¬ ∃ n, IsPageSize text n) → ∃ fault reason,
        Settings.read arguments environment = .error (.misuse (.badValue .pageSize text fault)) ∧
        fault.message? = some reason) := by
  constructor
  · intro arguments environment settings hread
    obtain ⟨choices, hline, -⟩ := Settings.value_of_read hread
    exact ⟨Settings.one_le_pageSize hread, Nat.le_sub_one_of_lt (UInt64.toNat_lt _),
      ⟨choices, hline⟩, fun _ hothers => Settings.pageSize_of_read hread hothers⟩
  · intro text arguments environment hgives
    have hrefused : (¬ ∃ n, IsPageSize text n) → ∃ fault reason,
        Settings.read arguments environment = .error (.misuse (.badValue .pageSize text fault)) ∧
        fault.message? = some reason := by
      intro hnot
      obtain ⟨fault, reason, hread, hreason⟩ := readPageSize_of_not hnot
      exact ⟨fault, reason, read_of_pageSize_refused hgives hread, hreason⟩
    refine ⟨⟨?_, ?_⟩, hrefused⟩
    · rintro ⟨settings, hread⟩
      by_contra hnot
      obtain ⟨fault, reason, herror, -⟩ := hrefused hnot
      cases hread.symm.trans herror
    · intro hsize
      obtain ⟨n, hn⟩ := exists_isPageSize_iff.mp hsize
      obtain ⟨settings, hread, -⟩ := read_of_pageSize_accepted hgives hn
      exact ⟨settings, hread⟩

/-- The largest word, with zeros before it and in the face of a bad environment, and the number
    after it, which would wrap around to zero. -/
theorem Settings.pageSize_exact_at_limit :
    let environment : Setting → Option String := fun s => if s = .pageSize then some "0" else none
    (∃ settings,
      Settings.read ["--page-size", "+0018446744073709551615", "--"] environment = .ok settings ∧
      IsPageSize "+0018446744073709551615" settings.searchSettings.pageSize.toNat) ∧
    GivesPageSize "18446744073709551616" ["--page-size=18446744073709551616"] environment ∧
    ∃ fault reason, Settings.read ["--page-size=18446744073709551616"] environment =
        .error (.misuse (.badValue .pageSize "18446744073709551616" fault)) ∧
      fault.message? = some reason := by
  intro environment
  have hread : Settings.read ["--page-size", "+0018446744073709551615", "--"] environment =
      .ok { Settings.default with pageSize := 18446744073709551615 } := by
    decide +kernel
  have hline : CommandLine ["--page-size", "+0018446744073709551615", "--"]
      [(.pageSize, "+0018446744073709551615")] :=
    .apart (s := .pageSize) (by decide) (Or.inl (by decide)) .ended
  have hgives : GivesPageSize "18446744073709551616" ["--page-size=18446744073709551616"]
      environment := .argument fun s hs => if_neg hs
  have hdigits : IsDigits "18446744073709551616".toList (2 ^ 64) :=
    ⟨by decide, [1, 8, 4, 4, 6, 7, 4, 4, 0, 7, 3, 7, 0, 9, 5, 5, 1, 6, 1, 6], by decide, by decide⟩
  have hnot : ¬ ∃ n, IsPageSize "18446744073709551616" n := by
    rintro ⟨n, -, hle, hn | ⟨digits, hplus, -⟩⟩
    · obtain rfl := hn.unique hdigits
      exact absurd hle (by decide)
    · exact absurd hplus (by simp)
  obtain ⟨-, -, -, hsize⟩ := Settings.pageSize_exact.1 _ environment _ hread
  exact ⟨⟨_, hread, hsize _ hline⟩, hgives, (Settings.pageSize_exact.2 _ _ _ hgives).2 hnot⟩

end Stocklist
