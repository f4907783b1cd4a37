/-
  Stocklist/Proofs/Settings/Values.lean
  =====================================
  **Which texts a setting accepts, and what they give it.**

  `Setting.Means` says which value a text stands for, setting by setting, without the order
  in which its faults are looked for.  A text that means a value gives it to its setting
  and touches no other (`exists_put_of_means`); any other text is refused
  (`means_of_put`).

  A source of texts fills a setting that is open, and leaves alone one that has a value
  (`Setting.Gets`).  The environment does so for each setting by itself
  (`complete_eq_ok_iff`).
-/
import Mathlib.Tactic
import Stocklist.Proofs.Numeral
import Stocklist.Proofs.Result
import Stocklist.Settings.Arguments

namespace Stocklist

open Numeral (Denotes)

/-! ### Page sizes -/

/-- A page size is a word that is not zero. -/
theorem readPageSize_eq_ok_iff_and_ne {text : String} {n : UInt64} :
    readPageSize text = .ok n ↔ Numeral.readUInt64 text = .ok n ∧ n ≠ 0 := by
  unfold readPageSize
  split
  · next fault hfault =>
    rw [hfault]
    simp
  · next m hm =>
    rw [hm]
    split_ifs with hzero
    · constructor
      · intro h
        cases h
      · rintro ⟨h, hne⟩
        cases h
        exact absurd hzero hne
    · constructor
      · intro h
        cases h
        exact ⟨rfl, hzero⟩
      · rintro ⟨h, -⟩
        cases h
        rfl

/-- A page size is read from the texts of positive words. -/
theorem readPageSize_eq_ok_iff {text : String} {n : UInt64} :
    readPageSize text = .ok n ↔ 1 ≤ n.toNat ∧ Denotes text.toList n.toNat := by
  have hpos : n ≠ 0 ↔ 1 ≤ n.toNat := by
    rw [Nat.one_le_iff_ne_zero, Ne, Ne, ← UInt64.toNat_inj]
    rfl
  rw [readPageSize_eq_ok_iff_and_ne, Numeral.readUInt64_eq_ok_iff, hpos, and_comm]
  exact and_congr_right fun h => (Numeral.denotes_pos_iff h).symm

/-! ### Values -/

namespace Setting

/-- The values that a setting can have. -/
def Value : Setting → Type
  | .data => String
  | .bind => SocketAddress
  | .pageSize => UInt64
  | .skipHeader => Bool

def default : (s : Setting) → s.Value
  | .data => "db.csv"
  | .bind => .allInterfaces
  | .pageSize => (20 : UInt64)
  | .skipHeader => false

/-- `s.Means text v`: for the setting `s` the text stands for the value `v`. -/
def Means : (s : Setting) → String → s.Value → Prop
  | .data, text, path => text ≠ "" ∧ path = text
  | .bind, text, address => SocketAddress.ofText? text = some address
  | .pageSize, text, n => 1 ≤ UInt64.toNat n ∧ Denotes text.toList (UInt64.toNat n)
  | .skipHeader, text, b => text = cond b "true" "false"

/-- The texts that a setting takes: a path that is not empty, an address, a positive
    integer of 64 bits, or one of two words. -/
def Accepts : Setting → String → Prop
  | .data, text => text ≠ ""
  | .bind, text => (SocketAddress.ofText? text).isSome
  | .pageSize, text => ∃ n : Nat, 1 ≤ n ∧ n ≤ 2 ^ 64 - 1 ∧ Denotes text.toList n
  | .skipHeader, text => text = "true" ∨ text = "false"

theorem accepts_iff {s : Setting} {text : String} : s.Accepts text ↔ ∃ v, s.Means text v := by
  cases s with
  | data =>
    constructor
    · intro h
      exact ⟨text, h, rfl⟩
    · rintro ⟨_, h, -⟩
      exact h
  | bind => exact Option.isSome_iff_exists
  | pageSize =>
    constructor
    · rintro ⟨n, hpos, hle, hn⟩
      have hword : (UInt64.ofNat n).toNat = n := UInt64.toNat_ofNat_of_lt' (by
        rw [UInt64.size]
        omega)
      have hmeans : 1 ≤ (UInt64.ofNat n).toNat ∧ Denotes text.toList (UInt64.ofNat n).toNat := by
        rw [hword]
        exact ⟨hpos, hn⟩
      exact ⟨UInt64.ofNat n, hmeans⟩
    · rintro ⟨n, hpos, hn⟩
      exact ⟨UInt64.toNat n, hpos, Nat.le_sub_one_of_lt (UInt64.toNat_lt n), hn⟩
  | skipHeader =>
    constructor
    · rintro (rfl | rfl)
      · exact ⟨true, rfl⟩
      · exact ⟨false, rfl⟩
    · rintro ⟨b, hb⟩
      cases b with
      | false => exact Or.inr hb
      | true => exact Or.inl hb

end Setting

def Settings.value (settings : Settings) : (s : Setting) → s.Value
  | .data => settings.data
  | .bind => settings.bind
  | .pageSize => settings.pageSize
  | .skipHeader => settings.skipHeader

namespace Given

def value (g : Given) : (s : Setting) → Option s.Value
  | .data => g.data
  | .bind => g.bind
  | .pageSize => g.pageSize
  | .skipHeader => g.skipHeader

/-- What is given by a value for each setting or none. -/
def ofValues (f : (s : Setting) → Option s.Value) : Given :=
  ⟨f .data, f .bind, f .pageSize, f .skipHeader⟩

@[simp] theorem value_ofValues (f : (s : Setting) → Option s.Value) (s : Setting) :
    (ofValues f).value s = f s := by
  cases s <;> rfl

theorem ext_value {g h : Given} (heq : ∀ s, g.value s = h.value s) : g = h := by
  obtain ⟨data, bind, pageSize, skipHeader⟩ := g
  obtain ⟨data', bind', pageSize', skipHeader'⟩ := h
  obtain rfl : data = data' := heq .data
  obtain rfl : bind = bind' := heq .bind
  obtain rfl : pageSize = pageSize' := heq .pageSize
  obtain rfl : skipHeader = skipHeader' := heq .skipHeader
  rfl

theorem has_eq (g : Given) (s : Setting) : g.has s = (g.value s).isSome := by
  cases s <;> rfl

theorem value_settings (g : Given) (s : Setting) :
    g.settings.value s = (g.value s).getD s.default := by
  cases s <;> rfl

/-! ### Giving a value -/

/-- Gives a setting a value. -/
def set (g : Given) : (s : Setting) → s.Value → Given
  | .data, path => { g with data := some path }
  | .bind, address => { g with bind := some address }
  | .pageSize, n => { g with pageSize := some n }
  | .skipHeader, b => { g with skipHeader := some b }

@[simp] theorem value_set_self (g : Given) (s : Setting) (v : s.Value) :
    (g.set s v).value s = some v := by
  cases s <;> rfl

/-- No other setting is touched. -/
theorem value_set_of_ne (g : Given) {s t : Setting} (v : s.Value) (h : t ≠ s) :
    (g.set s v).value t = g.value t := by
  cases s <;> cases t <;> first | rfl | exact absurd rfl h

theorem readBoolean_eq_ok_iff {text : String} {b : Bool} :
    readBoolean text = .ok b ↔ text = cond b "true" "false" := by
  unfold readBoolean
  split <;> cases b <;> simp_all

/-- A text is put into a setting exactly if it means a value there. -/
theorem put_eq_ok_iff {g h : Given} {s : Setting} {text : String} :
    g.put s text = .ok h ↔ ∃ v, s.Means text v ∧ h = g.set s v := by
  cases s with
  | data =>
    rw [put]
    split_ifs with hempty
    · constructor
      · intro h
        cases h
      · rintro ⟨_, ⟨hne, -⟩, -⟩
        exact absurd hempty hne
    · constructor
      · intro h
        cases h
        exact ⟨text, ⟨hempty, rfl⟩, rfl⟩
      · rintro ⟨_, ⟨-, rfl⟩, rfl⟩
        rfl
  | bind =>
    rw [put]
    split
    · next hnone =>
      constructor
      · intro h
        cases h
      · rintro ⟨v, hv, -⟩
        cases hnone.symm.trans hv
    · next address haddress =>
      constructor
      · intro h
        cases h
        exact ⟨address, haddress, rfl⟩
      · rintro ⟨v, hv, rfl⟩
        cases haddress.symm.trans hv
        rfl
  | pageSize =>
    rw [put, Numeral.map_eq_ok_iff]
    constructor
    · rintro ⟨n, hn, rfl⟩
      exact ⟨n, readPageSize_eq_ok_iff.mp hn, rfl⟩
    · rintro ⟨n, hn, rfl⟩
      exact ⟨n, readPageSize_eq_ok_iff.mpr hn, rfl⟩
  | skipHeader =>
    rw [put, Numeral.map_eq_ok_iff]
    constructor
    · rintro ⟨b, hb, rfl⟩
      exact ⟨b, readBoolean_eq_ok_iff.mp hb, rfl⟩
    · rintro ⟨b, hb, rfl⟩
      exact ⟨b, readBoolean_eq_ok_iff.mpr hb, rfl⟩

theorem put?_eq_ok_iff {g h : Given} {s : Setting} {text : String} :
    g.put? s text = .ok h ↔ ∃ v, s.Means text v ∧ h = g.set s v := by
  rw [← put_eq_ok_iff, put?]
  cases g.put s text <;> simp

end Given

/-! ### Sources of texts -/

/-- `s.Gets source x y`: where `s` has the value `x` or none, it has `y` after it has asked
    the source, which it does only if it has none. -/
inductive Setting.Gets (s : Setting) (source : Setting → Option String) :
    Option s.Value → Option s.Value → Prop where
  | kept (v : s.Value) : s.Gets source (some v) (some v)
  | taken {text : String} {v : s.Value} : source s = some text → s.Means text v →
      s.Gets source none (some v)
  | left : source s = none → s.Gets source none none

namespace Setting

variable {s : Setting} {source : Setting → Option String}

theorem Means.unique {text : String} {v w : s.Value} (hv : s.Means text v) (hw : s.Means text w) :
    v = w := by
  cases s with
  | data => exact hv.2.trans hw.2.symm
  | bind => exact Option.some.inj (hv.symm.trans hw)
  | pageSize => exact UInt64.toNat_inj.mp (Int.ofNat_inj.mp (hv.2.unique hw.2))
  | skipHeader =>
    have hwords : ∀ b c : Bool, cond b "true" "false" = cond c "true" "false" → b = c := by
      decide
    exact hwords v w (hv.symm.trans hw)

theorem Gets.unique {x y z : Option s.Value} (hy : s.Gets source x y) (hz : s.Gets source x z) :
    y = z := by
  cases hy with
  | kept v =>
    cases hz
    rfl
  | taken hsource hv =>
    cases hz with
    | taken hsource' hw =>
      cases hsource.symm.trans hsource'
      rw [hv.unique hw]
    | left hnone => cases hsource.symm.trans hnone
  | left hnone =>
    cases hz with
    | taken hsource => cases hsource.symm.trans hnone
    | left => rfl

/-- Only what the source has for the setting counts. -/
theorem Gets.congr {others : Setting → Option String} {x y : Option s.Value}
    (h : s.Gets source x y) (hsame : others s = source s) : s.Gets others x y := by
  cases h with
  | kept v => exact .kept v
  | taken hsource hv => exact .taken (hsame.trans hsource) hv
  | left hnone => exact .left (hsame.trans hnone)

theorem Gets.eq_none_iff {x : Option s.Value} (h : s.Gets source none x) :
    x = none ↔ source s = none := by
  cases h with
  | taken hsource => simp [hsource]
  | left hnone => simp [hnone]

theorem Gets.getD_default {x : Option s.Value} (h : s.Gets source none x) :
    match source s with
    | some text => s.Means text (x.getD s.default)
    | none => x.getD s.default = s.default := by
  cases h with
  | taken hsource hv =>
    rw [hsource]
    exact hv
  | left hnone =>
    rw [hnone]
    rfl

/-- Of two sources the second counts for what the first leaves open. -/
theorem Gets.trans {others : Setting → Option String} {x y : Option s.Value}
    (hx : s.Gets source none x) (hy : s.Gets others x y) :
    s.Gets (fun t => (source t).or (others t)) none y := by
  cases hx with
  | taken hsource hv =>
    cases hy
    exact .taken (by rw [hsource, Option.some_or]) hv
  | left hnone =>
    exact hy.congr (by rw [hnone, Option.none_or])

theorem exists_gets_iff {x : Option s.Value} :
    (∃ y, s.Gets source x y) ↔ (x = none → ∀ text, source s = some text → s.Accepts text) := by
  constructor
  · rintro ⟨y, hy⟩ rfl text htext
    cases hy with
    | taken hsource hv =>
      cases htext.symm.trans hsource
      exact accepts_iff.mpr ⟨_, hv⟩
    | left hnone => cases htext.symm.trans hnone
  · intro haccepts
    cases x with
    | some v => exact ⟨some v, .kept v⟩
    | none =>
      cases hsource : source s with
      | none => exact ⟨none, .left hsource⟩
      | some text =>
        obtain ⟨v, hv⟩ := accepts_iff.mp (haccepts rfl text hsource)
        exact ⟨some v, .taken hsource hv⟩

end Setting

namespace Given

variable {source : Setting → Option String}

/-- Asks the environment for one setting. -/
def ask (environment : Setting → Option String) (g : Given) (s : Setting) :
    Except Interruption Given :=
  match environment s with
  | some value => if g.has s then .ok g else g.put? s value
  | none => .ok g

theorem complete_eq_foldlM (environment : Setting → Option String) (g : Given) :
    g.complete environment = Setting.all.foldlM (ask environment) g := rfl

theorem ask_of_isSome {g : Given} {s : Setting} (h : (g.value s).isSome) :
    g.ask source s = .ok g := by
  rw [ask, has_eq, h]
  cases source s <;> rfl

theorem ask_of_eq_none {g : Given} {s : Setting} (h : source s = none) :
    g.ask source s = .ok g := by
  rw [ask, h]

theorem ask_of_open {g : Given} {s : Setting} {text : String} (hopen : g.value s = none)
    (h : source s = some text) : g.ask source s = g.put? s text := by
  rw [ask, h, has_eq, hopen]
  rfl

/-- Asking for a setting touches no other. -/
theorem ask_eq_ok_iff {g h : Given} {s : Setting} :
    g.ask source s = .ok h ↔
      s.Gets source (g.value s) (h.value s) ∧ ∀ t, t ≠ s → h.value t = g.value t := by
  constructor
  · intro hask
    cases hvalue : g.value s with
    | some v =>
      rw [ask_of_isSome (by rw [hvalue, Option.isSome_some])] at hask
      cases hask
      rw [hvalue]
      exact ⟨.kept v, fun t _ => rfl⟩
    | none =>
      cases hsource : source s with
      | none =>
        rw [ask_of_eq_none hsource] at hask
        cases hask
        rw [hvalue]
        exact ⟨.left hsource, fun t _ => rfl⟩
      | some text =>
        rw [ask_of_open hvalue hsource, put?_eq_ok_iff] at hask
        obtain ⟨v, hv, rfl⟩ := hask
        rw [value_set_self]
        exact ⟨.taken hsource hv, fun t ht => g.value_set_of_ne v ht⟩
  · rintro ⟨hgets, hothers⟩
    -- The result is known, setting by setting.
    have heq : ∀ k : Given, k.value s = h.value s → (∀ t, t ≠ s → k.value t = g.value t) →
        k = h := by
      intro k hs hk
      apply ext_value
      intro t
      by_cases ht : t = s
      · rw [ht, hs]
      · rw [hk t ht, hothers t ht]
    generalize hx : g.value s = x at hgets
    generalize hy : h.value s = y at hgets
    cases hgets with
    | kept v =>
      rw [ask_of_isSome (by rw [hx, Option.isSome_some]), heq g (hx.trans hy.symm) fun t _ => rfl]
    | @taken text v hsource hv =>
      rw [ask_of_open hx hsource, put?_eq_ok_iff]
      refine ⟨v, hv, (heq (g.set s v) ?_ fun t ht => g.value_set_of_ne v ht).symm⟩
      rw [value_set_self, hy]
    | left hsource =>
      rw [ask_of_eq_none hsource, heq g (hx.trans hy.symm) fun t _ => rfl]

/-- Settings are asked for one after the other, and each gets what it would get alone. -/
theorem foldlM_ask_eq_ok_iff {settings : List Setting} (hnodup : settings.Nodup) {g h : Given} :
    settings.foldlM (ask source) g = .ok h ↔
      (∀ s ∈ settings, s.Gets source (g.value s) (h.value s)) ∧
        ∀ s, s ∉ settings → h.value s = g.value s := by
  induction settings generalizing g with
  | nil =>
    constructor
    · intro hok
      cases hok
      exact ⟨List.forall_mem_nil _, fun s _ => rfl⟩
    · rintro ⟨-, hsame⟩
      rw [ext_value fun s => hsame s List.not_mem_nil]
      rfl
  | cons s rest ih =>
    obtain ⟨hs, hrest⟩ := List.nodup_cons.mp hnodup
    rw [List.foldlM_cons, bind_eq_ok_iff]
    constructor
    · rintro ⟨k, hk, hok⟩
      obtain ⟨hgets, hothers⟩ := ask_eq_ok_iff.mp hk
      obtain ⟨hall, hsame⟩ := (ih hrest).mp hok
      constructor
      · intro t ht
        rcases List.mem_cons.mp ht with rfl | ht
        · rw [hsame t hs]
          exact hgets
        · rw [← hothers t (ne_of_mem_of_not_mem ht hs)]
          exact hall t ht
      · intro t ht
        rw [hsame t (List.not_mem_of_not_mem_cons ht), hothers t (List.ne_of_not_mem_cons ht)]
    · rintro ⟨hall, hsame⟩
      obtain ⟨hgets, hall⟩ := List.forall_mem_cons.mp hall
      -- In between only the first setting has been asked for.
      obtain ⟨k, hk⟩ : ∃ k : Given, k.value = Function.update g.value s (h.value s) :=
        ⟨ofValues _, funext (value_ofValues _)⟩
      have hself : k.value s = h.value s := by
        rw [hk, Function.update_self]
      have hothers : ∀ t, t ≠ s → k.value t = g.value t := by
        intro t ht
        rw [hk, Function.update_of_ne ht]
      refine ⟨k, ask_eq_ok_iff.mpr ⟨hself ▸ hgets, hothers⟩, (ih hrest).mpr ⟨?_, ?_⟩⟩
      · intro t ht
        rw [hothers t (ne_of_mem_of_not_mem ht hs)]
        exact hall t ht
      · intro t ht
        by_cases hts : t = s
        · rw [hts, hself]
        · rw [hothers t hts, hsame t (List.not_mem_cons_of_ne_of_not_mem hts ht)]

/-- **The environment fills each open setting by itself.** -/
theorem complete_eq_ok_iff {g h : Given} :
    g.complete source = .ok h ↔ ∀ s : Setting, s.Gets source (g.value s) (h.value s) := by
  have hall : ∀ s, s ∈ Setting.all := by
    intro s
    cases s <;> decide
  rw [complete_eq_foldlM, foldlM_ask_eq_ok_iff (by decide)]
  constructor
  · rintro ⟨hgets, -⟩
    exact fun s => hgets s (hall s)
  · intro hgets
    exact ⟨fun s _ => hgets s, fun s hs => absurd (hall s) hs⟩

/-- The environment is refused exactly for a text that an open setting does not accept. -/
theorem exists_complete_iff {g : Given} :
    (∃ h, g.complete source = .ok h) ↔
      ∀ s : Setting, g.value s = none → ∀ text, source s = some text → s.Accepts text := by
  constructor
  · rintro ⟨h, hok⟩ s
    exact Setting.exists_gets_iff.mp ⟨_, complete_eq_ok_iff.mp hok s⟩
  · intro haccepts
    choose f hf using fun s : Setting => Setting.exists_gets_iff.mpr (haccepts s)
    refine ⟨ofValues f, complete_eq_ok_iff.mpr fun s => ?_⟩
    rw [value_ofValues]
    exact hf s

end Given

end Stocklist
