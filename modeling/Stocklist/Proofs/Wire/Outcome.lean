/-
  Stocklist/Proofs/Wire/Outcome.lean
  ==================================
  **Decoders depend on the value and not on its text.**

  Two texts of one value are read alike up to what is known for the sake of faults only, and a
  decoder comes to the same result on both, faults of the text counted as one.  A decoder is
  `Lawful` if it does so and takes no value with a breach in it; the decoders of the parts of a
  page all are.  For a lawful decoder the result on a text is that on any value the text is
  written of (`outcome_ofText`).
-/
import Mathlib.Tactic
import Stocklist.Proofs.Json.Document
import Stocklist.Proofs.Result
import Stocklist.Wire.Decode

namespace Stocklist

namespace Json

/-! ### Faults of plain values -/

theorem or_map {α β : Type} (g : α → β) (a b : Option α) :
    (a.map g).or (b.map g) = (a.or b).map g := by
  cases a <;> rfl

mutual

theorem Value.looseFault?_plain : ∀ v : Value,
    v.plain.looseFault? = v.looseFault?.map fun _ => Fault.any
  | .null | .bool _ | .number _ | .string _ | .unreadable _ | .broken _ => rfl
  | .array _ items => items.looseFault?_plain
  | .object _ members => members.looseFault?_plain

theorem Items.looseFault?_plain : ∀ items : Items,
    items.plain.looseFault? = items.looseFault?.map fun _ => Fault.any
  | .close | .broken _ => rfl
  | .cons v rest => by
    rw [Items.plain, Items.looseFault?, Items.looseFault?, v.looseFault?_plain,
      rest.looseFault?_plain, or_map]

theorem Members.looseFault?_plain : ∀ members : Members,
    members.plain.looseFault? = members.looseFault?.map fun _ => Fault.any
  | .close | .broken _ => rfl
  | .cons _ v rest => by
    rw [Members.plain, Members.looseFault?, Members.looseFault?, v.looseFault?_plain,
      rest.looseFault?_plain, or_map]

end

end Json

namespace Wire

open Json (Fault Value Items Members Document)

variable {α β : Type}

/-! ### Kinds of failure -/

/-- The text is sound so far, but the value does not suit its place. -/
def FailsWithData (x : Decoded α) : Prop :=
  ∃ e, x = .error e ∧ ∀ f, e ≠ .fault f

/-- The result is not a fault of the text. -/
def NoFault (x : Decoded α) : Prop :=
  ∀ f, x ≠ .error (.fault f)

theorem noFault_ok (a : α) : NoFault (.ok a : Decoded α) := nofun

theorem NoFault.failsWithData {x : Decoded α} (h : NoFault x) (hok : ∀ a, x ≠ .ok a) :
    FailsWithData x := by
  cases x with
  | ok a => exact absurd rfl (hok a)
  | error e => exact ⟨e, rfl, fun f hf => h f (by rw [hf])⟩

theorem FailsWithData.noFault {x : Decoded α} (h : FailsWithData x) : NoFault x := by
  obtain ⟨e, rfl, he⟩ := h
  exact fun f hf => he f (Except.error.inj hf)

theorem FailsWithData.ne_ok {x : Decoded α} (h : FailsWithData x) (a : α) : x ≠ .ok a := by
  obtain ⟨e, rfl, -⟩ := h
  exact nofun

theorem FailsWithData.bind {x : Decoded α} (h : FailsWithData x) (g : α → Decoded β) :
    FailsWithData (x >>= g) := by
  obtain ⟨e, rfl, he⟩ := h
  exact ⟨e, rfl, he⟩

theorem NoFault.bind {x : Decoded α} {g : α → Decoded β} (h : NoFault x)
    (hg : ∀ a, x = .ok a → NoFault (g a)) : NoFault (x >>= g) := by
  cases x with
  | ok a => exact hg a rfl
  | error e => exact fun f hf => h f (congrArg _ (Except.error.inj hf))

theorem NoFault.map {x : Decoded α} (h : NoFault x) (g : α → β) : NoFault (x.map g) := by
  cases x with
  | ok a => exact noFault_ok (g a)
  | error e => exact fun f hf => h f (congrArg _ (Except.error.inj hf))

/-! ### Results with all faults alike -/

def DecodeError.plain : DecodeError → DecodeError
  | .fault _ => .fault .any
  | e => e

/-- The result with all faults of the text alike. -/
def outcome (x : Decoded α) : Decoded α :=
  x.mapError DecodeError.plain

theorem outcome_bind (x : Decoded α) (g : α → Decoded β) :
    outcome (x >>= g) = outcome x >>= fun a => outcome (g a) := by
  cases x <;> rfl

theorem outcome_map (x : Decoded α) (g : α → β) : outcome (x.map g) = (outcome x).map g := by
  cases x <;> rfl

theorem outcome_eq_ok_iff {x : Decoded α} {a : α} : outcome x = .ok a ↔ x = .ok a := by
  cases x with
  | ok b => exact Iff.rfl
  | error e => simp [outcome, Except.mapError]

theorem outcome_of_noFault {x : Decoded α} (h : NoFault x) : outcome x = x := by
  cases x with
  | ok a => rfl
  | error e =>
    cases e with
    | fault f => exact absurd rfl (h f)
    | _ => rfl

theorem failsWithData_outcome_iff {x : Decoded α} :
    FailsWithData (outcome x) ↔ FailsWithData x := by
  constructor
  · intro h
    apply NoFault.failsWithData
    · rintro f rfl
      exact h.noFault .any rfl
    · rintro a rfl
      exact h.ne_ok a rfl
  · intro h
    rw [outcome_of_noFault h.noFault]
    exact h

/-! ### Lawful decoders -/

/-- A decoder that depends on no more than the value and takes no value with a breach. -/
structure Lawful (decode : Value → Decoded α) : Prop where
  plain : ∀ v, outcome (decode v.plain) = outcome (decode v)
  whole : ∀ {v a}, decode v = .ok a → v.looseFault? = none

theorem refuse_plain (v : Value) (wanted : Wanted) :
    outcome (refuse v.plain wanted : Decoded α) = outcome (refuse v wanted) := by
  cases v <;> rfl

theorem refuse_ne_ok (v : Value) (wanted : Wanted) (a : α) : refuse v wanted ≠ .ok a := by
  intro h
  unfold refuse at h
  split at h <;> cases h

/-- A decoder that refuses all that is more than a token is lawful. -/
theorem lawful_of_refuses {decode : Value → Decoded α} (wanted : Wanted)
    (h : ∀ v, (v.plain = v ∧ v.looseFault? = none) ∨
      (decode v = refuse v wanted ∧ decode v.plain = refuse v.plain wanted)) : Lawful decode where
  plain v := by
    rcases h v with ⟨hplain, -⟩ | ⟨hv, hplain⟩
    · rw [hplain]
    · rw [hv, hplain, refuse_plain]
  whole {v a} hok := by
    rcases h v with ⟨-, hwhole⟩ | ⟨hv, -⟩
    · exact hwhole
    · rw [hv] at hok
      exact absurd hok (refuse_ne_ok v wanted a)

theorem lawful_decodeString : Lawful decodeString :=
  lawful_of_refuses .string fun v => by
    cases v <;> first | exact Or.inl ⟨rfl, rfl⟩ | exact Or.inr ⟨rfl, rfl⟩

theorem lawful_decodeInteger : Lawful decodeInteger :=
  lawful_of_refuses .integer fun v => by
    cases v <;> first | exact Or.inl ⟨rfl, rfl⟩ | exact Or.inr ⟨rfl, rfl⟩

theorem lawful_decodeNatural : Lawful decodeNatural :=
  lawful_of_refuses .natural fun v => by
    cases v <;> first | exact Or.inl ⟨rfl, rfl⟩ | exact Or.inr ⟨rfl, rfl⟩

theorem lawful_decodeFloat : Lawful decodeFloat :=
  lawful_of_refuses .float fun v => by
    cases v <;> first | exact Or.inl ⟨rfl, rfl⟩ | exact Or.inr ⟨rfl, rfl⟩

theorem Lawful.decodeList_plain {decode : Value → Decoded α} (h : Lawful decode) :
    ∀ items : Items, outcome (decodeList decode items.plain) = outcome (decodeList decode items)
  | .close | .broken _ => rfl
  | .cons v rest => by
    rw [Items.plain, decodeList, decodeList, outcome_bind, outcome_bind, h.plain]
    refine congrArg (outcome (decode v) >>= ·) (funext fun a => ?_)
    rw [outcome_bind, outcome_bind, h.decodeList_plain rest]

theorem Lawful.decodeList_whole {decode : Value → Decoded α} (h : Lawful decode) :
    ∀ {items : Items} {as : List α}, decodeList decode items = .ok as → items.looseFault? = none
  | .close, _, _ => rfl
  | .broken _, _, hok => by cases hok
  | .cons v rest, as, hok => by
    rw [decodeList, bind_eq_ok_iff] at hok
    obtain ⟨a, hv, hok⟩ := hok
    obtain ⟨bs, hrest, -⟩ := bind_eq_ok_iff.mp hok
    rw [Items.looseFault?, h.whole hv, h.decodeList_whole hrest]
    rfl

/-! ### Passing over a value -/

theorem skip_eq_ok_iff {v : Value} : skip v = .ok () ↔ v.looseFault? = none := by
  rw [skip]
  cases v.looseFault? <;> simp

theorem skip_plain (v : Value) : outcome (skip v.plain) = outcome (skip v) := by
  rw [skip, skip, v.looseFault?_plain]
  cases v.looseFault? <;> rfl

/-! ### Texts -/

/-- **A text is decoded as any value that it is written of.** -/
theorem outcome_ofText {decode : Value → Decoded α} (h : Lawful decode) {v : Value} {text : String}
    (hv : v.WrittenIn text) : outcome (ofText decode text) = outcome (decode v) := by
  obtain ⟨w, hw, hplain⟩ := Json.exists_document_of_writtenIn hv
  have hdecode : ofText decode text = decode w := by
    rw [ofText, hw]
    exact bind_pure (decode w)
  rw [hdecode, ← h.plain, hplain, h.plain]

theorem ofText_eq_ok_iff {decode : Value → Decoded α} (h : Lawful decode) {v : Value}
    {text : String} (hv : v.WrittenIn text) {a : α} :
    ofText decode text = .ok a ↔ decode v = .ok a := by
  rw [← outcome_eq_ok_iff, outcome_ofText h hv, outcome_eq_ok_iff]

theorem failsWithData_ofText_iff {decode : Value → Decoded α} (h : Lawful decode) {v : Value}
    {text : String} (hv : v.WrittenIn text) :
    FailsWithData (ofText decode text) ↔ FailsWithData (decode v) := by
  rw [← failsWithData_outcome_iff, outcome_ofText h hv, failsWithData_outcome_iff]

/-- What is decoded is written of some value. -/
theorem exists_writtenIn_of_ofText {decode : Value → Decoded α} (h : Lawful decode) {text : String}
    {a : α} (hok : ofText decode text = .ok a) : ∃ v : Value, v.WrittenIn text := by
  rcases hd : Document.ofText text.toList with ⟨v, trailing⟩
  rw [ofText, hd, bind_eq_ok_iff] at hok
  obtain ⟨b, hv, hend⟩ := hok
  cases trailing with
  | none => exact ⟨v, Json.writtenIn_of_document hd (h.whole hv)⟩
  | some f => cases hend

end Wire

end Stocklist
