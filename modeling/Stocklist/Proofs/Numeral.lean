/-
  Stocklist/Proofs/Numeral.lean
  =============================
  **Integer texts and the integers they denote.**

  `Denotes cs n` says what an integer text is and which integer it stands for, without a
  range and without an order of reading.  The reader watches the range digit by digit:
  it stops at the first digit that takes the magnitude beyond the limit.  Since further
  digits only make a magnitude larger (`le_foldl_digits`), that is the same as a limit on
  the integer denoted, so a signed word is read exactly from the texts that denote it
  (`readInt64_eq_ok_iff`).
-/
import Mathlib.Tactic
import Stocklist.Numeral

namespace Stocklist.Numeral

/-- `IsDigits cs n`: the text `cs` is one or more ASCII digits, any number of leading zeros
    among them, and denotes `n`. -/
def IsDigits (cs : List Char) (n : Nat) : Prop :=
  cs ≠ [] ∧ ∃ ds : List Nat, cs.map digit? = ds.map some ∧ ofDigits ds = n

/-- `Denotes cs n`: the text `cs` is an integer text that denotes `n`. -/
inductive Denotes : List Char → Int → Prop where
  | unsigned {cs : List Char} {n : Nat} : IsDigits cs n → Denotes cs n
  | plus {cs : List Char} {n : Nat} : IsDigits cs n → Denotes ('+' :: cs) n
  | minus {cs : List Char} {n : Nat} : IsDigits cs n → Denotes ('-' :: cs) (-n)

/-! ### Digits -/

theorem le_foldl_digits (n : Nat) (ds : List Nat) :
    n ≤ ds.foldl (fun n d => 10 * n + d) n := by
  induction ds generalizing n with
  | nil => exact Nat.le_refl n
  | cons d ds ih =>
    have hmore := ih (10 * n + d)
    rw [List.foldl_cons]
    omega

theorem map_digit?_cons_eq_iff {c : Char} {cs : List Char} {ds : List Nat} :
    (c :: cs).map digit? = ds.map some ↔
      ∃ d rest, ds = d :: rest ∧ digit? c = some d ∧ cs.map digit? = rest.map some := by
  cases ds with
  | nil => simp
  | cons d rest =>
    rw [List.map_cons, List.map_cons, List.cons.injEq]
    constructor
    · rintro ⟨hc, hcs⟩
      exact ⟨d, rest, rfl, hc, hcs⟩
    · rintro ⟨d, rest, heq, hc, hcs⟩
      cases heq
      exact ⟨hc, hcs⟩

/-- Reading digits onto `n` gives what they make of `n`, if that is within the limit. -/
theorem magnitude_eq_ok_iff {limit n m : Nat} {beyond : Fault} {cs : List Char} (hn : n ≤ limit) :
    magnitude limit beyond n cs = .ok m ↔
      ∃ ds : List Nat, cs.map digit? = ds.map some ∧
        ds.foldl (fun n d => 10 * n + d) n = m ∧ m ≤ limit := by
  induction cs generalizing n with
  | nil =>
    constructor
    · intro h
      obtain rfl : n = m := Except.ok.inj h
      exact ⟨[], rfl, rfl, hn⟩
    · rintro ⟨ds, hds, hm, -⟩
      obtain rfl : ds = [] := by simpa using hds.symm
      exact congrArg Except.ok hm
  | cons c cs ih =>
    simp only [map_digit?_cons_eq_iff]
    rw [magnitude]
    cases hc : digit? c with
    | none =>
      constructor
      · intro h
        cases h
      · rintro ⟨_, ⟨_, _, _, hd, _⟩, _⟩
        cases hd
    | some d =>
      dsimp only
      split_ifs with hd
      · rw [ih hd]
        constructor
        · rintro ⟨ds, hds, hm, hle⟩
          exact ⟨d :: ds, ⟨d, ds, rfl, rfl, hds⟩, hm, hle⟩
        · rintro ⟨_, ⟨e, ds, rfl, he, hds⟩, hm, hle⟩
          obtain rfl : d = e := Option.some.inj he
          exact ⟨ds, hds, hm, hle⟩
      · constructor
        · intro h
          cases h
        · rintro ⟨_, ⟨e, ds, rfl, he, hds⟩, hm, hle⟩
          obtain rfl : d = e := Option.some.inj he
          have hmore := le_foldl_digits (10 * n + d) ds
          rw [List.foldl_cons] at hm
          omega

theorem magnitude?_eq_ok_iff {limit m : Nat} {beyond : Fault} {cs : List Char} :
    magnitude? limit beyond cs = .ok m ↔ IsDigits cs m ∧ m ≤ limit := by
  cases cs with
  | nil =>
    constructor
    · intro h
      cases h
    · rintro ⟨⟨hne, -⟩, -⟩
      exact absurd rfl hne
  | cons c cs =>
    rw [magnitude?, magnitude_eq_ok_iff (Nat.zero_le limit)]
    constructor
    · rintro ⟨ds, hds, hm, hle⟩
      exact ⟨⟨List.cons_ne_nil c cs, ds, hds, hm⟩, hle⟩
    · rintro ⟨⟨-, ds, hds, hm⟩, hle⟩
      exact ⟨ds, hds, hm, hle⟩

theorem IsDigits.unique {cs : List Char} {m n : Nat} (hm : IsDigits cs m) (hn : IsDigits cs n) :
    m = n := by
  obtain ⟨-, ds, hds, rfl⟩ := hm
  obtain ⟨-, es, hes, rfl⟩ := hn
  have heq : ds.map some = es.map some := hds.symm.trans hes
  rw [List.map_inj_right fun _ _ h => Option.some.inj h] at heq
  rw [heq]

theorem IsDigits.isSome_head {c : Char} {cs : List Char} {n : Nat} (h : IsDigits (c :: cs) n) :
    (digit? c).isSome := by
  obtain ⟨-, ds, hds, -⟩ := h
  obtain ⟨d, _, _, hd, _⟩ := map_digit?_cons_eq_iff.mp hds
  rw [hd, Option.isSome_some]

theorem not_isDigits_plus {cs : List Char} {n : Nat} : ¬ IsDigits ('+' :: cs) n := fun h =>
  absurd h.isSome_head (by decide)

theorem not_isDigits_minus {cs : List Char} {n : Nat} : ¬ IsDigits ('-' :: cs) n := fun h =>
  absurd h.isSome_head (by decide)

/-! ### Signed integers -/

/-- The reader of negative integers turns the sign after reading. -/
theorem map_neg_magnitude? (limit : Nat) (beyond : Fault) (cs : List Char) :
    Except.map (fun n : Int => -n) (do return ((← magnitude? limit beyond cs : Nat) : Int)) =
      (magnitude? limit beyond cs).map fun n : Nat => -(n : Int) := by
  cases magnitude? limit beyond cs <;> rfl

theorem map_eq_ok_iff {ε α β : Type} {x : Except ε α} {f : α → β} {b : β} :
    x.map f = .ok b ↔ ∃ a, x = .ok a ∧ f a = b := by
  cases x with
  | error e => simp [Except.map]
  | ok a => simp [Except.map]

theorem map_magnitude?_eq_ok_iff {limit : Nat} {beyond : Fault} {cs : List Char} {f : Nat → Int}
    {v : Int} :
    (magnitude? limit beyond cs).map f = .ok v ↔ ∃ n, IsDigits cs n ∧ n ≤ limit ∧ f n = v := by
  rw [map_eq_ok_iff]
  simp only [magnitude?_eq_ok_iff, and_assoc]

theorem readInt_eq_ok_iff {limit : Nat} {cs : List Char} {v : Int} :
    readInt limit cs = .ok v ↔ Denotes cs v ∧ -(limit + 1 : Int) ≤ v ∧ v ≤ limit := by
  unfold readInt
  split
  · constructor
    · intro h
      cases h
    · rintro ⟨h, -⟩
      cases h with
      | unsigned hn => exact absurd rfl hn.1
  · rw [map_magnitude?_eq_ok_iff]
    constructor
    · rintro ⟨n, hn, hle, rfl⟩
      have hnat : Int.ofNat n = n := rfl
      exact ⟨.plus hn, by omega, by omega⟩
    · rintro ⟨h, -, hle⟩
      cases h with
      | unsigned hn => exact absurd hn not_isDigits_plus
      | plus hn => exact ⟨_, hn, by omega, rfl⟩
  · rw [map_neg_magnitude?, map_magnitude?_eq_ok_iff]
    constructor
    · rintro ⟨n, hn, hle, rfl⟩
      exact ⟨.minus hn, by omega, by omega⟩
    · rintro ⟨h, hge, -⟩
      cases h with
      | unsigned hn => exact absurd hn not_isDigits_minus
      | minus hn => exact ⟨_, hn, by omega, rfl⟩
  · next hplus hminus =>
    rw [map_magnitude?_eq_ok_iff]
    constructor
    · rintro ⟨n, hn, hle, rfl⟩
      have hnat : Int.ofNat n = n := rfl
      exact ⟨.unsigned hn, by omega, by omega⟩
    · rintro ⟨h, -, hle⟩
      cases h with
      | unsigned hn => exact ⟨_, hn, by omega, rfl⟩
      | plus hn => exact absurd rfl (hplus _)
      | minus hn => exact absurd rfl (hminus _)

theorem Denotes.unique {cs : List Char} {m n : Int} (hm : Denotes cs m) (hn : Denotes cs n) :
    m = n := by
  cases hm with
  | unsigned hm =>
    cases hn with
    | unsigned hn => rw [hm.unique hn]
    | plus hn => exact absurd hm not_isDigits_plus
    | minus hn => exact absurd hm not_isDigits_minus
  | plus hm =>
    cases hn with
    | unsigned hn => exact absurd hn not_isDigits_plus
    | plus hn => rw [hm.unique hn]
  | minus hm =>
    cases hn with
    | unsigned hn => exact absurd hn not_isDigits_minus
    | minus hn => rw [hm.unique hn]

/-- **A signed word is read exactly from the texts that denote it.** -/
theorem readInt64_eq_ok_iff {s : String} {v : Int64} :
    readInt64 s = .ok v ↔ Denotes s.toList v.toInt := by
  have hlimit : ((Int64.maxValue.toInt.toNat : Nat) : Int) = 2 ^ 63 - 1 := rfl
  rw [readInt64, map_eq_ok_iff]
  constructor
  · rintro ⟨n, hn, rfl⟩
    obtain ⟨hdenotes, hge, hle⟩ := readInt_eq_ok_iff.mp hn
    rw [hlimit] at hge hle
    rwa [Int64.toInt_ofInt_of_le (by omega) (by omega)]
  · intro h
    have hge : -2 ^ 63 ≤ v.toInt := v.le_toInt
    have hlt : v.toInt < 2 ^ 63 := v.toInt_lt
    refine ⟨v.toInt, readInt_eq_ok_iff.mpr ⟨h, ?_, ?_⟩, Int64.ofInt_toInt v⟩
    · rw [hlimit]
      omega
    · rw [hlimit]
      omega

example : (readInt64 "-0009223372036854775808").toOption = some Int64.minValue := by decide

example : (readInt64 "9223372036854775808").toOption = none := by decide

/-! ### Unsigned integers -/

theorem readNat_eq_ok_iff {limit : Nat} {cs : List Char} {n : Nat} :
    readNat limit cs = .ok n ↔
      (IsDigits cs n ∨ ∃ digits, cs = '+' :: digits ∧ IsDigits digits n) ∧ n ≤ limit := by
  unfold readNat
  split
  · constructor
    · intro h
      cases h
    · rintro ⟨⟨hne, -⟩ | ⟨digits, hcs, -⟩, -⟩
      · exact absurd rfl hne
      · cases hcs
  · next digits =>
    rw [magnitude?_eq_ok_iff]
    constructor
    · rintro ⟨hn, hle⟩
      exact ⟨Or.inr ⟨digits, rfl, hn⟩, hle⟩
    · rintro ⟨hn | ⟨digits, hcs, hn⟩, hle⟩
      · exact absurd hn not_isDigits_plus
      · cases hcs
        exact ⟨hn, hle⟩
  · next hplus =>
    rw [magnitude?_eq_ok_iff]
    constructor
    · rintro ⟨hn, hle⟩
      exact ⟨Or.inl hn, hle⟩
    · rintro ⟨hn | ⟨digits, rfl, -⟩, hle⟩
      · exact ⟨hn, hle⟩
      · exact absurd rfl (hplus digits)

/-- Every word is in range, so its numeral only has to be well formed. -/
theorem readUInt64_eq_ok_iff {s : String} {n : UInt64} :
    readUInt64 s = .ok n ↔
      IsDigits s.toList n.toNat ∨ ∃ digits, s.toList = '+' :: digits ∧ IsDigits digits n.toNat := by
  rw [readUInt64, map_eq_ok_iff]
  constructor
  · rintro ⟨k, hk, rfl⟩
    obtain ⟨hdigits, hle⟩ := readNat_eq_ok_iff.mp hk
    rw [UInt64.toNat_ofNat_of_lt' (Nat.lt_of_le_pred (by decide) hle)]
    exact hdigits
  · intro hdigits
    have hle : n.toNat ≤ 2 ^ 64 - 1 := Nat.le_sub_one_of_lt n.toNat_lt
    exact ⟨n.toNat, readNat_eq_ok_iff.mpr ⟨hdigits, hle⟩, UInt64.ofNat_toNat⟩

/-- A positive integer is not written with a minus sign. -/
theorem denotes_pos_iff {cs : List Char} {n : Nat} (hn : 1 ≤ n) :
    Denotes cs n ↔ IsDigits cs n ∨ ∃ digits, cs = '+' :: digits ∧ IsDigits digits n := by
  constructor
  · intro h
    generalize hv : (n : Int) = v at h
    cases h with
    | unsigned hdigits =>
      obtain rfl := Int.ofNat_inj.mp hv
      exact Or.inl hdigits
    | plus hdigits =>
      obtain rfl := Int.ofNat_inj.mp hv
      exact Or.inr ⟨_, rfl, hdigits⟩
    | minus => omega
  · rintro (hdigits | ⟨digits, rfl, hdigits⟩)
    · exact .unsigned hdigits
    · exact .plus hdigits

end Stocklist.Numeral
