/-
  Stocklist/Proofs/Wire/Fields.lean
  =================================
  **Values decoded field by field.**

  Items and pages are decoded alike: from an object whose members fill the slots of a draft, or
  from an array of the field values.  A `Shape` says of what fields.  What one member does is
  `Shape.step_eq_ok_iff`; a run over all members gives a value exactly if each field has one
  member, which its decoder takes (`Shape.decodeEntries_eq_ok_iff`), and so neither the order of
  the members matters nor what stands under other names.  A run fails with a fault of the text
  only at a member whose value is one, and fails otherwise at the second member of a field.  An
  array of the field values is the object of them (`Shape.decode_array`).
-/
import Mathlib.Tactic
import Stocklist.Proofs.Wire.Outcome

namespace Stocklist

namespace Json

/-! ### Members as a list -/

/-- A member of an object: a name, which may be unreadable, and a value. -/
abbrev Entry := Except Fault String × Value

def Members.entries : Members → List Entry
  | .close | .broken _ => []
  | .cons name v rest => (name, v) :: rest.entries

def Items.values : Items → List Value
  | .close | .broken _ => []
  | .cons v rest => v :: rest.values

theorem Members.looseFault?_of_mem : ∀ {members : Members} {e : Entry},
    members.looseFault? = none → e ∈ members.entries → e.2.looseFault? = none
  | .close, _, _, he | .broken _, _, _, he => absurd he List.not_mem_nil
  | .cons name v rest, e, h, he => by
    rw [Members.looseFault?, Option.or_eq_none_iff] at h
    rcases List.mem_cons.mp he with rfl | he
    · exact h.1
    · exact rest.looseFault?_of_mem h.2 he

theorem Items.looseFault?_of_mem : ∀ {items : Items} {v : Value},
    items.looseFault? = none → v ∈ items.values → v.looseFault? = none
  | .close, _, _, hv | .broken _, _, _, hv => absurd hv List.not_mem_nil
  | .cons w rest, v, h, hv => by
    rw [Items.looseFault?, Option.or_eq_none_iff] at h
    rcases List.mem_cons.mp hv with rfl | hv
    · exact h.1
    · exact rest.looseFault?_of_mem h.2 hv

/-- The value of a member that has the given name. -/
def Entry.value? (name : String) : Entry → Option Value
  | (.ok n, v) => if n = name then some v else none
  | (.error _, _) => none

/-- The values of the members of the given name, in their order. -/
def valuesUnder (name : String) (es : List Entry) : List Value :=
  es.filterMap (Entry.value? name)

theorem Entry.value?_eq_some_iff {name : String} {e : Entry} {v : Value} :
    e.value? name = some v ↔ e = (.ok name, v) := by
  obtain ⟨n | n, w⟩ := e
  · simp [Entry.value?]
  · simp [Entry.value?]

@[simp] theorem valuesUnder_cons_self (name : String) (v : Value) (es : List Entry) :
    valuesUnder name ((.ok name, v) :: es) = v :: valuesUnder name es := by
  rw [valuesUnder, List.filterMap_cons_some (Entry.value?_eq_some_iff.mpr rfl), valuesUnder]

theorem valuesUnder_cons_of_ne {name : String} {e : Entry} (h : e.1 ≠ .ok name) (es : List Entry) :
    valuesUnder name (e :: es) = valuesUnder name es := by
  rw [valuesUnder, List.filterMap_cons_none, valuesUnder]
  exact Option.eq_none_iff_forall_ne_some.mpr fun v hv =>
    h (congrArg Prod.fst (Entry.value?_eq_some_iff.mp hv))

theorem mem_valuesUnder_iff {name : String} {es : List Entry} {v : Value} :
    v ∈ valuesUnder name es ↔ (.ok name, v) ∈ es := by
  simp only [valuesUnder, List.mem_filterMap, Entry.value?_eq_some_iff]
  constructor
  · rintro ⟨e, he, rfl⟩
    exact he
  · exact fun h => ⟨_, h, rfl⟩

end Json

namespace Wire

open Json (Fault Value Items Members Entry valuesUnder mem_valuesUnder_iff)

/-! ### Shapes -/

/-- A field of a value in `ρ` that is decoded by way of drafts in `σ`. -/
structure Field (σ ρ : Type) where
  name : String
  {α : Type}
  slot : σ → Option α
  put : σ → α → σ
  part : ρ → α
  decode : Value → Decoded α
  lawful : Lawful decode
  slot_put : ∀ s a, slot (put s a) = some a

/-- How values in `ρ` are decoded from their fields. -/
structure Shape (σ ρ : Type) where
  wanted : Wanted
  fields : List (Field σ ρ)
  start : σ
  take : σ → String → Value → Decoded σ
  finish : σ → Decoded ρ
  nodup_names : (fields.map Field.name).Nodup
  slot_start : ∀ f ∈ fields, f.slot start = none
  slot_put_of_ne : ∀ f ∈ fields, ∀ g ∈ fields, g.name ≠ f.name →
    ∀ s a, g.slot (f.put s a) = g.slot s
  take_field : ∀ f ∈ fields, ∀ s v, take s f.name v =
    if (f.slot s).isSome then .error (.duplicateField f.name) else (f.decode v).map (f.put s)
  take_foreign : ∀ s name v, name ∉ fields.map Field.name →
    take s name v = (skip v).map fun _ => s
  finish_eq_ok_iff : ∀ {s r}, finish s = .ok r ↔ ∀ f ∈ fields, f.slot s = some (f.part r)
  noFault_finish : ∀ s, NoFault (finish s)

variable {σ ρ : Type}

/-- Takes the fields of an array, the first of them at index `i`, and nothing after them. -/
def takeFields (wanted : Wanted) : Nat → List (Field σ ρ) → σ → Items → Decoded σ
  | _, [], s, items => (noMoreFields items).map fun _ => s
  | i, f :: fs, s, items => do
    let (a, items) ← nextField i wanted f.decode items
    takeFields wanted (i + 1) fs (f.put s a) items

namespace Shape

def names (S : Shape σ ρ) : List String :=
  S.fields.map Field.name

def decode (S : Shape σ ρ) : Value → Decoded ρ
  | .object _ members => do S.finish (← foldMembers S.take S.start members)
  | .array _ items => do S.finish (← takeFields S.wanted 0 S.fields S.start items)
  | v => refuse v S.wanted

def step (S : Shape σ ρ) (s : σ) : Entry → Decoded σ
  | (.ok name, v) => S.take s name v
  | (.error f, _) => .error (.fault f)

/-- Decodes a list of members that ends where the object ends. -/
def decodeEntries (S : Shape σ ρ) (es : List Entry) : Decoded ρ := do
  S.finish (← es.foldlM S.step S.start)

variable {S : Shape σ ρ}

theorem eq_of_name_eq {f g : Field σ ρ} (hf : f ∈ S.fields) (hg : g ∈ S.fields)
    (h : f.name = g.name) : f = g :=
  List.inj_on_of_nodup_map S.nodup_names hf hg h

theorem exists_field_of_mem_names {name : String} (h : name ∈ S.names) :
    ∃ f ∈ S.fields, f.name = name :=
  List.mem_map.mp h

theorem name_mem_names {f : Field σ ρ} (hf : f ∈ S.fields) : f.name ∈ S.names :=
  List.mem_map_of_mem hf

/-! ### One member -/

/-- What a member does that is neither refused nor broken. -/
inductive Step (S : Shape σ ρ) (s : σ) : Entry → σ → Prop where
  | field {f : Field σ ρ} {v : Value} {a : f.α} :
      f ∈ S.fields → f.slot s = none → f.decode v = .ok a → Step S s (.ok f.name, v) (f.put s a)
  | foreign {name : String} {v : Value} :
      name ∉ S.names → v.looseFault? = none → Step S s (.ok name, v) s

theorem step_eq_ok_iff {s t : σ} {e : Entry} : S.step s e = .ok t ↔ Step S s e t := by
  constructor
  · intro h
    obtain ⟨f | name, v⟩ := e
    · cases h
    rw [step] at h
    by_cases hname : name ∈ S.names
    · obtain ⟨f, hf, rfl⟩ := exists_field_of_mem_names hname
      rw [S.take_field f hf] at h
      split at h
      · cases h
      · next hslot =>
        cases hv : f.decode v with
        | error e =>
          rw [hv] at h
          cases h
        | ok a =>
          rw [hv] at h
          cases h
          exact .field hf (Option.not_isSome_iff_eq_none.mp hslot) hv
    · rw [S.take_foreign s name v hname] at h
      cases hv : skip v with
      | error e =>
        rw [hv] at h
        cases h
      | ok u =>
        rw [hv] at h
        cases h
        exact .foreign hname (skip_eq_ok_iff.mp hv)
  · intro h
    cases h with
    | @field f v a hf hslot hv =>
      rw [step, S.take_field f hf, hslot, hv]
      rfl
    | @foreign name v hname hv =>
      rw [step, S.take_foreign s name v hname, skip_eq_ok_iff.mpr hv]
      rfl

/-- A field that is taken already is refused, whatever its value. -/
theorem failsWithData_step {f : Field σ ρ} (hf : f ∈ S.fields) {s : σ} (hslot : f.slot s ≠ none)
    (v : Value) : FailsWithData (S.step s (.ok f.name, v)) := by
  rw [step, S.take_field f hf, if_pos (Option.isSome_iff_ne_none.mpr hslot)]
  exact ⟨_, rfl, nofun⟩

/-- A member that may be refused, but without a fault of the text. -/
structure Tolerates (S : Shape σ ρ) (e : Entry) : Prop where
  named : ∃ name, e.1 = .ok name
  whole : e.2.looseFault? = none
  noFault : ∀ f ∈ S.fields, e.1 = .ok f.name → NoFault (f.decode e.2)

theorem noFault_step {e : Entry} (h : S.Tolerates e) (s : σ) : NoFault (S.step s e) := by
  obtain ⟨name, hname⟩ := h.named
  obtain ⟨_, v⟩ := e
  obtain rfl := hname
  rw [step]
  by_cases hmem : name ∈ S.names
  · obtain ⟨f, hf, rfl⟩ := exists_field_of_mem_names hmem
    rw [S.take_field f hf]
    split
    · exact nofun
    · exact (h.noFault f hf rfl).map _
  · rw [S.take_foreign s name v hmem, skip_eq_ok_iff.mpr h.whole]
    exact noFault_ok s

/-! ### All members -/

/-- What the values under the name of a field do to its slot. -/
inductive Fills (f : Field σ ρ) : Option f.α → List Value → Option f.α → Prop where
  | absent {o : Option f.α} : Fills f o [] o
  | once {v : Value} {a : f.α} : f.decode v = .ok a → Fills f none [v] (some a)

theorem fills_of_run {es : List Entry} {s t : σ} (h : es.foldlM S.step s = .ok t) {f : Field σ ρ}
    (hf : f ∈ S.fields) : Fills f (f.slot s) (valuesUnder f.name es) (f.slot t) := by
  induction es generalizing s with
  | nil =>
    cases h
    exact .absent
  | cons e es ih =>
    rw [List.foldlM_cons, bind_eq_ok_iff] at h
    obtain ⟨s', hstep, hrun⟩ := h
    have hrest := ih hrun
    cases step_eq_ok_iff.mp hstep with
    | @field g v a hg hslot hv =>
      by_cases hname : f.name = g.name
      · obtain rfl := eq_of_name_eq hf hg hname
        -- the slot is full from here on, so there is no second member of this name
        rw [f.slot_put] at hrest
        rw [Json.valuesUnder_cons_self, hslot]
        generalize valuesUnder f.name es = vs, f.slot t = o at hrest
        cases hrest with
        | absent => exact .once hv
      · rw [S.slot_put_of_ne g hg f hf hname] at hrest
        rw [Json.valuesUnder_cons_of_ne fun heq => hname (Except.ok.inj heq).symm]
        exact hrest
    | @foreign name v hname _ =>
      rw [Json.valuesUnder_cons_of_ne]
      · exact hrest
      · rintro ⟨⟩
        exact hname (name_mem_names hf)

theorem named_of_run {es : List Entry} {s t : σ} (h : es.foldlM S.step s = .ok t) :
    ∀ e ∈ es, ∃ name, e.1 = .ok name := by
  induction es generalizing s with
  | nil => exact fun e he => absurd he List.not_mem_nil
  | cons e es ih =>
    rw [List.foldlM_cons, bind_eq_ok_iff] at h
    obtain ⟨s', hstep, hrun⟩ := h
    refine List.forall_mem_cons.mpr ⟨?_, ih hrun⟩
    cases step_eq_ok_iff.mp hstep <;> exact ⟨_, rfl⟩

theorem exists_run {es : List Entry} (hnamed : ∀ e ∈ es, ∃ name, e.1 = .ok name)
    (hwhole : ∀ e ∈ es, e.2.looseFault? = none) {s : σ}
    (h : ∀ f ∈ S.fields, ∃ o, Fills f (f.slot s) (valuesUnder f.name es) o) :
    ∃ t, es.foldlM S.step s = .ok t := by
  induction es generalizing s with
  | nil => exact ⟨s, rfl⟩
  | cons e es ih =>
    rw [List.forall_mem_cons] at hnamed hwhole
    -- one step, after which the slots still suit the members that are left
    have hnext : ∃ s', Step S s e s' ∧
        ∀ f ∈ S.fields, ∃ o, Fills f (f.slot s') (valuesUnder f.name es) o := by
      obtain ⟨_, v⟩ := e
      obtain ⟨⟨name, rfl⟩, -⟩ := hnamed
      by_cases hmem : name ∈ S.names
      · obtain ⟨f, hf, rfl⟩ := exists_field_of_mem_names hmem
        obtain ⟨o, hfills⟩ := h f hf
        rw [Json.valuesUnder_cons_self] at hfills
        generalize hslot : f.slot s = o', hrest : valuesUnder f.name es = vs at hfills
        cases hfills with
        | @once _ a hv =>
          refine ⟨f.put s a, .field hf hslot hv, fun g hg => ?_⟩
          by_cases hname : g.name = f.name
          · obtain rfl := eq_of_name_eq hg hf hname
            rw [hrest]
            exact ⟨_, .absent⟩
          · obtain ⟨o, hfills⟩ := h g hg
            rw [Json.valuesUnder_cons_of_ne fun heq => hname (Except.ok.inj heq).symm] at hfills
            rw [S.slot_put_of_ne f hf g hg hname]
            exact ⟨o, hfills⟩
      · refine ⟨s, .foreign hmem hwhole.1, fun g hg => ?_⟩
        obtain ⟨o, hfills⟩ := h g hg
        rw [Json.valuesUnder_cons_of_ne] at hfills
        · exact ⟨o, hfills⟩
        · rintro ⟨⟩
          exact hmem (name_mem_names hg)
    obtain ⟨s', hstep, hleft⟩ := hnext
    obtain ⟨t, hrun⟩ := ih hnamed.2 hwhole.2 hleft
    exact ⟨t, by rw [List.foldlM_cons, step_eq_ok_iff.mpr hstep]; exact hrun⟩

theorem noFault_run {es : List Entry} (h : ∀ e ∈ es, S.Tolerates e) (s : σ) :
    NoFault (es.foldlM S.step s) := by
  induction es generalizing s with
  | nil => exact noFault_ok s
  | cons e es ih =>
    rw [List.forall_mem_cons] at h
    rw [List.foldlM_cons]
    exact (noFault_step h.1 s).bind fun s' _ => ih h.2 s'

/-- **A list of members gives a value exactly if each field is there once and its decoder takes
    what is there.** -/
theorem decodeEntries_eq_ok_iff {es : List Entry} (hwhole : ∀ e ∈ es, e.2.looseFault? = none)
    {r : ρ} : S.decodeEntries es = .ok r ↔ (∀ e ∈ es, ∃ name, e.1 = .ok name) ∧
      ∀ f ∈ S.fields, ∃ v, valuesUnder f.name es = [v] ∧ f.decode v = .ok (f.part r) := by
  rw [decodeEntries, bind_eq_ok_iff]
  constructor
  · rintro ⟨t, hrun, hfinish⟩
    refine ⟨named_of_run hrun, fun f hf => ?_⟩
    have hfills := fills_of_run hrun hf
    rw [S.slot_start f hf, S.finish_eq_ok_iff.mp hfinish f hf] at hfills
    generalize valuesUnder f.name es = vs at hfills
    cases hfills with
    | once hv => exact ⟨_, rfl, hv⟩
  · rintro ⟨hnamed, hfields⟩
    obtain ⟨t, hrun⟩ : ∃ t, es.foldlM S.step S.start = .ok t := by
      refine exists_run hnamed hwhole fun f hf => ?_
      obtain ⟨v, hvalues, hv⟩ := hfields f hf
      rw [hvalues, S.slot_start f hf]
      exact ⟨_, .once hv⟩
    refine ⟨t, hrun, S.finish_eq_ok_iff.mpr fun f hf => ?_⟩
    obtain ⟨v, hvalues, hv⟩ := hfields f hf
    have hfills := fills_of_run hrun hf
    rw [hvalues] at hfills
    generalize f.slot S.start = o, f.slot t = o' at hfills ⊢
    cases hfills with
    | once hv' => rw [Except.ok.inj (hv'.symm.trans hv)]

theorem noFault_decodeEntries {es : List Entry} (h : ∀ e ∈ es, S.Tolerates e) :
    NoFault (S.decodeEntries es) :=
  (noFault_run h S.start).bind fun s _ => S.noFault_finish s

/-- **A field that comes a second time is refused**, whatever its value is and whatever follows. -/
theorem failsWithData_of_twice {front back : List Entry} (h : ∀ e ∈ front, S.Tolerates e)
    {f : Field σ ρ} (hf : f ∈ S.fields) {v : Value} (hv : (.ok f.name, v) ∈ front) (w : Value) :
    FailsWithData (S.decodeEntries (front ++ (.ok f.name, w) :: back)) := by
  rw [decodeEntries, List.foldlM_append]
  apply FailsWithData.bind
  cases hrun : front.foldlM S.step S.start with
  | error e =>
    refine ⟨e, rfl, ?_⟩
    rintro f rfl
    exact noFault_run h S.start f hrun
  | ok t =>
    have hslot : f.slot t ≠ none := by
      have hfills := fills_of_run hrun hf
      have hmem := mem_valuesUnder_iff.mpr hv
      generalize valuesUnder f.name front = vs, f.slot S.start = o, f.slot t = o' at hfills hmem ⊢
      cases hfills with
      | absent => exact absurd hmem List.not_mem_nil
      | once _ => exact Option.some_ne_none _
    exact (failsWithData_step hf hslot w).bind _

/-! ### Objects and arrays -/

theorem foldMembers_eq_foldlM : ∀ {members : Members}, members.looseFault? = none → ∀ s : σ,
    foldMembers S.take s members = members.entries.foldlM S.step s
  | .close, _, _ => rfl
  | .cons (.error _) _ _, _, _ => rfl
  | .cons (.ok name) v rest, h, s => by
    rw [Members.looseFault?, Option.or_eq_none_iff] at h
    rw [foldMembers, Members.entries, List.foldlM_cons]
    exact congrArg (S.take s name v >>= ·) (funext (foldMembers_eq_foldlM h.2))

theorem decode_object {members : Members} (h : members.looseFault? = none) (ahead : List Char) :
    S.decode (.object ahead members) = S.decodeEntries members.entries := by
  rw [decode, foldMembers_eq_foldlM h, decodeEntries]

/-- The members of an object of values in the order of their fields. -/
def inOrder (names : List String) (vs : List Value) : List Entry :=
  List.zipWith (fun name v => (.ok name, v)) names vs

theorem takeFields_eq_foldlM {fs : List (Field σ ρ)} (hnodup : (fs.map Field.name).Nodup)
    (hfs : ∀ f ∈ fs, f ∈ S.fields) {items : Items} (hwhole : items.looseFault? = none)
    (hlength : fs.length = items.values.length) {s : σ} (hslots : ∀ f ∈ fs, f.slot s = none)
    (i : Nat) : takeFields S.wanted i fs s items =
      (inOrder (fs.map Field.name) items.values).foldlM S.step s := by
  induction fs generalizing items s i with
  | nil =>
    cases items with
    | close => rfl
    | broken b => cases hwhole
    | cons v rest => cases hlength
  | cons f fs ih =>
    cases items with
    | close => cases hlength
    | broken b => cases hlength
    | cons v rest =>
      rw [List.map_cons, List.nodup_cons] at hnodup
      rw [List.forall_mem_cons] at hfs hslots
      rw [Items.looseFault?, Option.or_eq_none_iff] at hwhole
      have hstep : S.step s (.ok f.name, v) = (f.decode v).map (f.put s) := by
        rw [step, S.take_field f hfs.1, hslots.1]
        rfl
      rw [takeFields, nextField, List.map_cons, Items.values, inOrder, List.zipWith_cons_cons,
        List.foldlM_cons, hstep]
      cases f.decode v with
      | error e => rfl
      | ok a =>
        refine ih hnodup.2 hfs.2 hwhole.2 (Nat.succ.inj hlength) (fun g hg => ?_) (i + 1)
        rw [S.slot_put_of_ne f hfs.1 g (hfs.2 g hg), hslots.2 g hg]
        rintro heq
        exact hnodup.1 (heq ▸ List.mem_map_of_mem hg)

/-- **An array of as many values as there are fields is decoded as the object of them.** -/
theorem decode_array {items : Items} (h : items.looseFault? = none)
    (hlength : S.names.length = items.values.length) (ahead : List Char) :
    S.decode (.array ahead items) = S.decodeEntries (inOrder S.names items.values) := by
  rw [names, List.length_map] at hlength
  rw [decode, takeFields_eq_foldlM S.nodup_names (fun _ hf => hf) h hlength S.slot_start,
    decodeEntries, names]

/-! ### Shapes are decoded lawfully -/

theorem take_plain (s : σ) (name : String) (v : Value) :
    outcome (S.take s name v.plain) = outcome (S.take s name v) := by
  by_cases hmem : name ∈ S.names
  · obtain ⟨f, hf, rfl⟩ := exists_field_of_mem_names hmem
    rw [S.take_field f hf, S.take_field f hf]
    split
    · rfl
    · rw [outcome_map, outcome_map, f.lawful.plain]
  · rw [S.take_foreign s name _ hmem, S.take_foreign s name _ hmem, outcome_map, outcome_map,
      skip_plain]

theorem foldMembers_plain : ∀ (members : Members) (s : σ),
    outcome (foldMembers S.take s members.plain) = outcome (foldMembers S.take s members)
  | .close, _ | .broken _, _ | .cons (.error _) _ _, _ => rfl
  | .cons (.ok name) v rest, s => by
    change outcome (S.take s name v.plain >>= (foldMembers S.take · rest.plain)) = _
    rw [foldMembers, outcome_bind, outcome_bind, take_plain]
    exact congrArg (outcome (S.take s name v) >>= ·) (funext (foldMembers_plain rest))

theorem takeFields_plain (wanted : Wanted) (fs : List (Field σ ρ)) (items : Items) (s : σ)
    (i : Nat) :
    outcome (takeFields wanted i fs s items.plain) = outcome (takeFields wanted i fs s items) := by
  induction fs generalizing items s i with
  | nil => cases items <;> rfl
  | cons f fs ih =>
    cases items with
    | close => rfl
    | broken b => rfl
    | cons v rest =>
      rw [Items.plain, takeFields, takeFields, outcome_bind, outcome_bind, nextField, nextField,
        outcome_map, outcome_map, f.lawful.plain]
      cases f.decode v with
      | error e => rfl
      | ok a => exact ih rest (f.put s a) (i + 1)

theorem whole_of_take {s t : σ} {name : String} {v : Value} (h : S.take s name v = .ok t) :
    v.looseFault? = none := by
  have hstep : S.step s (.ok name, v) = .ok t := h
  cases step_eq_ok_iff.mp hstep with
  | @field f _ a _ _ hv => exact f.lawful.whole hv
  | foreign _ hv => exact hv

theorem whole_of_foldMembers : ∀ {members : Members} {s t : σ},
    foldMembers S.take s members = .ok t → members.looseFault? = none
  | .close, _, _, _ => rfl
  | .broken _, _, _, h => by cases h
  | .cons (.error _) _ _, _, _, h => by cases h
  | .cons (.ok name) v rest, s, t, h => by
    rw [foldMembers, bind_eq_ok_iff] at h
    obtain ⟨s', hv, hrest⟩ := h
    rw [Members.looseFault?, whole_of_take hv, whole_of_foldMembers hrest]
    rfl

theorem whole_of_takeFields {wanted : Wanted} {fs : List (Field σ ρ)} {items : Items} {s t : σ}
    {i : Nat} (h : takeFields wanted i fs s items = .ok t) : items.looseFault? = none := by
  induction fs generalizing items s i with
  | nil =>
    cases items with
    | close => rfl
    | _ => cases h
  | cons f fs ih =>
    cases items with
    | close => cases h
    | broken b => cases h
    | cons v rest =>
      rw [takeFields, nextField] at h
      cases hv : f.decode v with
      | error e =>
        rw [hv] at h
        cases h
      | ok a =>
        rw [hv] at h
        rw [Items.looseFault?, f.lawful.whole hv, ih h]
        rfl

theorem lawful_decode (S : Shape σ ρ) : Lawful S.decode where
  plain v := by
    cases v with
    | object ahead members =>
      rw [Value.plain, decode, decode, outcome_bind, outcome_bind, foldMembers_plain]
    | array ahead items =>
      rw [Value.plain, decode, decode, outcome_bind, outcome_bind, takeFields_plain]
    | null => exact refuse_plain .null S.wanted
    | bool b => exact refuse_plain (.bool b) S.wanted
    | number n => exact refuse_plain (.number n) S.wanted
    | string s => exact refuse_plain (.string s) S.wanted
    | unreadable f => exact refuse_plain (.unreadable f) S.wanted
    | broken b => exact refuse_plain (.broken b) S.wanted
  whole {v r} h := by
    cases v with
    | object ahead members =>
      obtain ⟨t, hrun, -⟩ := bind_eq_ok_iff.mp h
      exact whole_of_foldMembers hrun
    | array ahead items =>
      obtain ⟨t, hrun, -⟩ := bind_eq_ok_iff.mp h
      exact whole_of_takeFields hrun
    | number n => rfl
    | broken b => cases h
    | _ => rfl

end Shape

end Wire

end Stocklist
