/-
  Stocklist/Proofs/Startup.lean
  =============================
  **How a start ends.**

  A start goes through its steps in order and ends at the first that fails (`start_cases`).
  So the program listens exactly if its settings are read, its catalog is loaded and its
  address is free, and otherwise the exit code tells which step has failed
  (`exitCode?_start`).  What is said instead of running has no control characters but blanks,
  whatever the user has written (`isPrinted_of_interruption`).  A load that fails ends the
  start before an address is asked for: the remarks on the rows before the failure are all
  that is printed but for the report (`start_of_load_error`).
-/
import Mathlib.Tactic
import Stocklist.Proofs.Text.Terminal
import Stocklist.Startup

namespace Stocklist

open Catalog (LoadError Source)

namespace Host

variable {h : Host} {s : Settings} {c : Catalog} {i : Interruption}

/-! ### Interruptions -/

/-- Whatever stands on the command line and in the environment, what is said about it
    controls no terminal. -/
theorem isPrinted_of_interruption (hs : h.settings = .error i) :
    ∀ c ∈ h.start.output.toList ++ h.start.errors.toList, Text.isPrinted c := by
  rw [start, hs]
  intro c hc
  have hmem : c ∈ (i.output h.settingValues).toList := by
    cases i <;> simpa [Interruption.printed] using hc
  exact Text.isPrinted_of_mem_plainOutput hmem

/-! ### The steps -/

/-- The settings are read, the catalog at their path is loaded, and their address is free. -/
structure Listens (h : Host) (s : Settings) (c : Catalog) : Prop where
  settings : h.settings = .ok s
  loaded : ∃ source, h.openPath s.data = .ok source ∧
    (Catalog.load s.loadOptions source).result = .ok c
  free : h.refusal? s.bind = none

theorem catalog_eq_ok_iff :
    (h.catalog s).2 = .ok c ↔
      ∃ source, h.openPath s.data = .ok source ∧
        (Catalog.load s.loadOptions source).result = .ok c := by
  cases hopen : h.openPath s.data with
  | error reason => simp [catalog, Catalog.loadFile, hopen]
  | ok source => simp [catalog, Catalog.loadFile, hopen]

theorem Listens.catalog_eq (hl : h.Listens s c) : (h.catalog s).2 = .ok c :=
  catalog_eq_ok_iff.mpr hl.loaded

/-- What is printed at a start that comes as far as the catalog. -/
theorem start_of_settings (hs : h.settings = .ok s) :
    h.start =
      match (h.catalog s).2 with
      | .error e => (h.catalog s).1.append (Failure.ofLoad s.data e).printed
      | .ok _ =>
        match h.refusal? s.bind with
        | some reason => (h.catalog s).1.append (Failure.ofBind s.bind reason).printed
        | none => (h.catalog s).1.append (.ofEntries h.filter (listening s.bind)) := by
  rw [start, hs]
  dsimp only
  rcases h.catalog s with ⟨printed, _ | _⟩ <;> rfl

/-- A start ends with its settings, with its catalog or with its address, or it listens. -/
theorem start_cases (h : Host) :
    (∃ i, h.settings = .error i ∧ h.start = i.printed h.settingValues) ∨
    (∃ s e, h.settings = .ok s ∧ (h.catalog s).2 = .error e ∧
      h.start = (h.catalog s).1.append (Failure.ofLoad s.data e).printed) ∨
    (∃ s c reason, h.settings = .ok s ∧ (h.catalog s).2 = .ok c ∧
      h.refusal? s.bind = some reason ∧
      h.start = (h.catalog s).1.append (Failure.ofBind s.bind reason).printed) ∨
    ∃ s c, h.Listens s c ∧
      h.start = (h.catalog s).1.append (.ofEntries h.filter (listening s.bind)) := by
  cases hs : h.settings with
  | error i =>
    refine Or.inl ⟨i, rfl, ?_⟩
    rw [start, hs]
  | ok s =>
    have hstart := start_of_settings hs
    cases hc : (h.catalog s).2 with
    | error e =>
      rw [hc] at hstart
      exact Or.inr (Or.inl ⟨s, e, rfl, hc, hstart⟩)
    | ok c =>
      rw [hc] at hstart
      cases hr : h.refusal? s.bind with
      | some reason =>
        rw [hr] at hstart
        exact Or.inr (Or.inr (Or.inl ⟨s, c, reason, rfl, hc, hr, hstart⟩))
      | none =>
        rw [hr] at hstart
        exact Or.inr (Or.inr (Or.inr ⟨s, c, ⟨hs, catalog_eq_ok_iff.mp hc, hr⟩, hstart⟩))

/-! ### Exit codes -/

theorem settings_eq_of_listens {s t : Settings} (hs : h.settings = .ok s) (ht : h.Listens t c) :
    t = s :=
  Except.ok.inj (ht.settings.symm.trans hs)

/-- **The exit code tells how a start has ended.**  There is none exactly if the program
    listens.  It is 0 if the command line asks for help or the version only, 2 if it is
    misused, and 1 if it gives settings with which the program does not come to listen. -/
theorem exitCode?_start (h : Host) :
    (h.start.exitCode? = none ↔ ∃ s c, h.Listens s c) ∧
    (h.start.exitCode? = some 0 ↔ h.settings = .error .help ∨ h.settings = .error .version) ∧
    (h.start.exitCode? = some 2 ↔ ∃ e, h.settings = .error (.misuse e)) ∧
    (h.start.exitCode? = some 1 ↔ ∃ s, h.settings = .ok s ∧ ∀ c, ¬ h.Listens s c) := by
  rcases start_cases h with ⟨i, hs, hstart⟩ | ⟨s, e, hs, he, hstart⟩ |
    ⟨s, c, reason, hs, hc, hr, hstart⟩ | ⟨s, c, hl, hstart⟩
  · have hno : ¬ ∃ s c, h.Listens s c := by
      rintro ⟨s, c, hl⟩
      rw [hl.settings] at hs
      cases hs
    cases i <;> simp [hstart, hs, hno, Interruption.printed]
  · have hno : ∀ t c, ¬ h.Listens t c := by
      intro t c hl
      obtain rfl := settings_eq_of_listens hs hl
      rw [hl.catalog_eq] at he
      cases he
    simp [hstart, hs, hno, Printed.append, Failure.printed]
  · have hno : ∀ t c, ¬ h.Listens t c := by
      intro t c hl
      obtain rfl := settings_eq_of_listens hs hl
      rw [hl.free] at hr
      cases hr
    simp [hstart, hs, hno, Printed.append, Failure.printed]
  · have hyes : ∃ s c, h.Listens s c := ⟨s, c, hl⟩
    have hyes' : ∃ c, h.Listens s c := ⟨c, hl⟩
    simp [hstart, hl.settings, hyes, hyes', Printed.append, Printed.ofEntries]

/-! ### Failed loads -/

theorem catalog_of_opened {source : Source} (hopen : h.openPath s.data = .ok source) {e : LoadError}
    (he : (Catalog.load s.loadOptions source).result = .error e) :
    h.catalog s =
      (.ofEntries h.filter ((Catalog.load s.loadOptions source).remarks.map (·.entry)),
        .error e) := by
  simp only [catalog, Catalog.loadFile, hopen, he, List.append_nil]

/-- Nobody asks for the address as long as there is no catalog. -/
theorem start_of_catalog_error (hs : h.settings = .ok s) {e : LoadError}
    (he : (h.catalog s).2 = .error e) :
    h.start = (h.catalog s).1.append (Failure.ofLoad s.data e).printed ∧
      ∀ refusal?, ({ h with refusal? } : Host).start = h.start := by
  have hstart : ∀ refusal?, ({ h with refusal? } : Host).start =
      (h.catalog s).1.append (Failure.ofLoad s.data e).printed := by
    intro refusal?
    have hcatalog : ({ h with refusal? } : Host).catalog s = h.catalog s := rfl
    have hother := start_of_settings (h := { h with refusal? }) hs
    rwa [hcatalog, he] at hother
  exact ⟨hstart h.refusal?, fun refusal? => (hstart refusal?).trans (hstart h.refusal?).symm⟩

/-- **A load that fails ends the start.**  The program prints the remarks on the rows before
    the failure and reports it with the path of the catalog, and its exit code is 1.  It is
    the same whatever would have come of taking the address. -/
theorem start_of_load_error (hs : h.settings = .ok s) {source : Source}
    (hopen : h.openPath s.data = .ok source) {e : LoadError}
    (he : (Catalog.load s.loadOptions source).result = .error e) :
    h.start =
      { output := String.join ((h.filter.lines
          ((Catalog.load s.loadOptions source).remarks.map (·.entry))).map (· ++ "\n"))
        errors := (Failure.ofLoad s.data e).report
        exitCode? := some 1 } ∧
      ∀ refusal?, ({ h with refusal? } : Host).start = h.start := by
  have hcatalog := catalog_of_opened hopen he
  obtain ⟨hstart, hsame⟩ := start_of_catalog_error hs (congrArg Prod.snd hcatalog)
  refine ⟨?_, hsame⟩
  rw [hstart, hcatalog]
  simp [Printed.append, Printed.ofEntries, Failure.printed]

end Host

end Stocklist
