/-
  Stocklist/Proofs/Wire/Forms.lean
  ================================
  **The forms of an object, and its flaws.**

  The members of an object may be put in any order, members of other names may stand anywhere
  among them, and an array of the field values may stand for the object (`Form`): whatever its
  shape, it is decoded as before (`Shape.decode_of_form`).  An object that lacks a field or has
  one twice does not suit its place (`Shape.failsWithData_of_flaw`).  In both, a member may be
  exchanged for another one that is decoded alike, such as an object in a form of its own.
-/
import Mathlib.Tactic
import Stocklist.Proofs.Wire.Fields

namespace Stocklist.Wire

open Json (Fault Value Items Members Entry valuesUnder mem_valuesUnder_iff)

/-! ### Forms of an object -/

/-- A member whose name is legible and none of the given ones. -/
def IsForeign (names : List String) (e : Entry) : Prop :=
  ∃ name, e.1 = .ok name ∧ name ∉ names

/-- The members `kept` in any order, with foreign ones anywhere among them. -/
def Rearranges (names : List String) (kept es : List Entry) : Prop :=
  ∃ foreign, (∀ e ∈ foreign, IsForeign names e) ∧ es.Perm (kept ++ foreign)

/-- `Form names R v v'`: the value `v'` is another form of the object `v` with fields of the
    given names.  `R` relates a member of `v` to the member that stands for it in `v'`. -/
inductive Form (names : List String) (R : Entry → Entry → Prop) : Value → Value → Prop where
  | object {ahead ahead' : List Char} {members members' : Members} {kept : List Entry} :
      List.Forall₂ R members.entries kept → Rearranges names kept members'.entries →
        Form names R (.object ahead members) (.object ahead' members')
  | array {ahead ahead' : List Char} {members : Members} {items : Items} {kept : List Entry} :
      List.Forall₂ R members.entries kept →
        List.Forall₂ (fun name v => (.ok name, v) ∈ kept) names items.values →
          Form names R (.object ahead members) (.array ahead' items)

/-- A member that stands for one of `es`, or a foreign one, or one that its field takes. -/
def IsSound (names : List String) (takes : String → Value → Prop) (R : Entry → Entry → Prop)
    (es : List Entry) (e' : Entry) : Prop :=
  IsForeign names e' ∨ (∃ e ∈ es, R e e') ∨ ∃ name, e'.1 = .ok name ∧ takes name e'.2

/-- `Flaw names takes R v v'`: the object `v'` has members of the object `v` and others that are
    sound, but that of some field is missing, or there are two of one name.  What the second of
    them is and what comes after it is left open. -/
inductive Flaw (names : List String) (takes : String → Value → Prop)
    (R : Entry → Entry → Prop) : Value → Value → Prop where
  | omits {ahead ahead' : List Char} {members members' : Members} {name : String} :
      name ∈ names → (∀ e' ∈ members'.entries, IsSound names takes R members.entries e') →
        (∀ v, (.ok name, v) ∉ members'.entries) →
          Flaw names takes R (.object ahead members) (.object ahead' members')
  | repeats {ahead ahead' : List Char} {members members' : Members} {name : String}
      {front back : List Entry} {v w : Value} :
      name ∈ names → members'.entries = front ++ (.ok name, w) :: back →
        (∀ e' ∈ front, IsSound names takes R members.entries e') → (.ok name, v) ∈ front →
          Flaw names takes R (.object ahead members) (.object ahead' members')

/-! ### Values under a name -/

theorem valuesUnder_foreign {names : List String} {es : List Entry}
    (h : ∀ e ∈ es, IsForeign names e) {name : String} (hname : name ∈ names) :
    valuesUnder name es = [] := by
  rw [List.eq_nil_iff_forall_not_mem]
  intro v hv
  obtain ⟨n, hn, hforeign⟩ := h _ (mem_valuesUnder_iff.mp hv)
  exact hforeign (Except.ok.inj hn ▸ hname)

theorem valuesUnder_rearranged {names : List String} {kept es : List Entry}
    (h : Rearranges names kept es) {name : String} (hname : name ∈ names) {v : Value}
    (hv : valuesUnder name kept = [v]) : valuesUnder name es = [v] := by
  obtain ⟨foreign, hforeign, hperm⟩ := h
  have hvalues : (valuesUnder name es).Perm (valuesUnder name (kept ++ foreign)) :=
    hperm.filterMap _
  rw [valuesUnder, valuesUnder, List.filterMap_append, ← valuesUnder, ← valuesUnder, ← valuesUnder,
    hv, valuesUnder_foreign hforeign hname] at hvalues
  exact List.perm_singleton.mp hvalues

theorem valuesUnder_forall₂ {R : Entry → Entry → Prop} (hR : ∀ {e e'}, R e e' → e'.1 = e.1)
    {es kept : List Entry} (h : List.Forall₂ R es kept) (name : String) :
    List.Forall₂ (fun v v' => R (.ok name, v) (.ok name, v')) (valuesUnder name es)
      (valuesUnder name kept) := by
  induction h with
  | nil => exact .nil
  | @cons e e' es kept he _ ih =>
    have hname := hR he
    by_cases hself : e.1 = .ok name
    · obtain ⟨_, v⟩ := e
      obtain ⟨_, v'⟩ := e'
      obtain rfl : _ = Except.ok name := hself
      obtain rfl := hname
      rw [Json.valuesUnder_cons_self, Json.valuesUnder_cons_self]
      exact .cons he ih
    · rw [Json.valuesUnder_cons_of_ne hself, Json.valuesUnder_cons_of_ne (hname ▸ hself)]
      exact ih

theorem exists_of_mem_forall₂ {α β : Type} {R : α → β → Prop} {as : List α} {bs : List β}
    (h : List.Forall₂ R as bs) {b : β} (hb : b ∈ bs) : ∃ a ∈ as, R a b := by
  induction h with
  | nil => cases hb
  | @cons a b' as bs hab _ ih =>
    rcases List.mem_cons.mp hb with rfl | hb
    · exact ⟨a, List.mem_cons_self, hab⟩
    · obtain ⟨a', ha', hrel⟩ := ih hb
      exact ⟨a', List.mem_cons_of_mem _ ha', hrel⟩

theorem exists_of_mem_inOrder {P : String → Value → Prop} {names : List String} {vs : List Value}
    (h : List.Forall₂ P names vs) {e : Entry} (he : e ∈ Shape.inOrder names vs) :
    ∃ name v, e = (.ok name, v) ∧ name ∈ names ∧ v ∈ vs ∧ P name v := by
  induction h with
  | nil => cases he
  | @cons name v names vs hp _ ih =>
    rw [Shape.inOrder, List.zipWith_cons_cons, List.mem_cons] at he
    rcases he with rfl | he
    · exact ⟨name, v, rfl, List.mem_cons_self, List.mem_cons_self, hp⟩
    · obtain ⟨n, w, rfl, hn, hw, hpw⟩ := ih he
      exact ⟨n, w, rfl, List.mem_cons_of_mem _ hn, List.mem_cons_of_mem _ hw, hpw⟩

theorem exists_valuesUnder_inOrder {P : String → Value → Prop} {names : List String}
    {vs : List Value} (h : List.Forall₂ P names vs) (hnodup : names.Nodup) {name : String}
    (hname : name ∈ names) :
    ∃ v, P name v ∧ valuesUnder name (Shape.inOrder names vs) = [v] := by
  induction h with
  | nil => cases hname
  | @cons n v names vs hp hrest ih =>
    rw [List.nodup_cons] at hnodup
    rw [Shape.inOrder, List.zipWith_cons_cons, ← Shape.inOrder]
    rcases List.mem_cons.mp hname with rfl | hmem
    · refine ⟨v, hp, ?_⟩
      rw [Json.valuesUnder_cons_self, List.cons.injEq]
      refine ⟨rfl, List.eq_nil_iff_forall_not_mem.mpr fun w hw => ?_⟩
      obtain ⟨n, _, heq, hn, -, -⟩ := exists_of_mem_inOrder hrest (mem_valuesUnder_iff.mp hw)
      obtain rfl : name = n := Except.ok.inj (congrArg Prod.fst heq)
      exact hnodup.1 hn
    · obtain ⟨w, hw, hvalues⟩ := ih hnodup.2 hmem
      refine ⟨w, hw, ?_⟩
      rw [Json.valuesUnder_cons_of_ne, hvalues]
      rintro ⟨⟩
      exact hnodup.1 hmem

/-! ### Decoding the forms of an object -/

namespace Shape

variable {σ ρ : Type} {S : Shape σ ρ} {R : Entry → Entry → Prop} {r : ρ} {v v' : Value}

/-- A member that an object decoded as `r` may have. -/
structure Has (S : Shape σ ρ) (r : ρ) (e : Entry) : Prop where
  named : ∃ name, e.1 = .ok name
  value : ∀ f ∈ S.fields, e.1 = .ok f.name → f.decode e.2 = .ok (f.part r)

theorem Has.tolerates {e : Entry} (h : S.Has r e) (hwhole : e.2.looseFault? = none) :
    S.Tolerates e where
  named := h.named
  whole := hwhole
  noFault f hf hname := by
    rw [h.value f hf hname]
    exact noFault_ok _

theorem tolerates_of_isForeign {e : Entry} (h : IsForeign S.names e)
    (hwhole : e.2.looseFault? = none) : S.Tolerates e where
  named := ⟨_, h.choose_spec.1⟩
  whole := hwhole
  noFault f hf hname := by
    obtain ⟨name, hforeign, hnot⟩ := h
    obtain rfl : name = f.name := Except.ok.inj (hforeign.symm.trans hname)
    exact absurd (name_mem_names hf) hnot

/-- The field of the name takes the value. -/
def Takes (S : Shape σ ρ) (name : String) (v : Value) : Prop :=
  ∃ f ∈ S.fields, f.name = name ∧ ∃ a, f.decode v = .ok a

theorem tolerates_of_takes {e : Entry} {name : String} (hname : e.1 = .ok name)
    (h : S.Takes name e.2) (hwhole : e.2.looseFault? = none) : S.Tolerates e where
  named := ⟨name, hname⟩
  whole := hwhole
  noFault g hg hg' := by
    obtain ⟨f, hf, rfl, a, ha⟩ := h
    obtain rfl := eq_of_name_eq hf hg (Except.ok.inj (hname.symm.trans hg'))
    rw [ha]
    exact noFault_ok a

theorem has_of_decode_field {f : Field σ ρ} (hf : f ∈ S.fields)
    (h : f.decode v = .ok (f.part r)) : S.Has r (.ok f.name, v) where
  named := ⟨_, rfl⟩
  value g hg hname := by
    obtain rfl := eq_of_name_eq hf hg (Except.ok.inj hname)
    exact h

/-- An object that is decoded has each field once, and no member that does not suit. -/
theorem members_of_decode {ahead : List Char} {members : Members}
    (h : S.decode (.object ahead members) = .ok r) : (∀ e ∈ members.entries, S.Has r e) ∧
      ∀ f ∈ S.fields, ∃ v, valuesUnder f.name members.entries = [v] := by
  have hwhole : members.looseFault? = none := S.lawful_decode.whole h
  rw [decode_object hwhole,
    decodeEntries_eq_ok_iff fun e he => members.looseFault?_of_mem hwhole he]
    at h
  obtain ⟨hnamed, hfields⟩ := h
  refine ⟨fun e he => ⟨hnamed e he, fun f hf hname => ?_⟩, fun f hf => ?_⟩
  · obtain ⟨v, hvalues, hv⟩ := hfields f hf
    have hmem : e.2 ∈ valuesUnder f.name members.entries := by
      rw [mem_valuesUnder_iff, ← hname]
      exact he
    rw [hvalues, List.mem_singleton] at hmem
    rw [hmem, hv]
  · obtain ⟨v, hvalues, -⟩ := hfields f hf
    exact ⟨v, hvalues⟩

/-- Members are exchanged only for such as an object decoded alike may have. -/
structure Keeps (S : Shape σ ρ) (R : Entry → Entry → Prop) : Prop where
  name : ∀ {e e'}, R e e' → e'.1 = e.1
  has : ∀ {r e e'}, S.Has r e → R e e' → e'.2.looseFault? = none → S.Has r e'

theorem keeps_eq (S : Shape σ ρ) : S.Keeps fun e e' => e' = e where
  name h := congrArg Prod.fst h
  has h heq _ := heq ▸ h

theorem tolerates_of_isSound (hR : S.Keeps R) {ahead : List Char} {members : Members}
    (hok : S.decode (.object ahead members) = .ok r) {e' : Entry}
    (h : IsSound S.names S.Takes R members.entries e') (hwhole : e'.2.looseFault? = none) :
    S.Tolerates e' := by
  obtain hforeign | ⟨e, he, hrel⟩ | ⟨name, hname, htakes⟩ := h
  · exact tolerates_of_isForeign hforeign hwhole
  · exact (hR.has ((members_of_decode hok).1 e he) hrel hwhole).tolerates hwhole
  · exact tolerates_of_takes hname htakes hwhole

/-- The members kept from such an object stand for its members, and for each field there is
    one of them. -/
theorem exists_kept (hR : ∀ {e e'}, R e e' → e'.1 = e.1) {ahead : List Char} {members : Members}
    (h : S.decode (.object ahead members) = .ok r) {kept : List Entry}
    (hkept : List.Forall₂ R members.entries kept) :
    (∀ e' ∈ kept, ∃ e, S.Has r e ∧ R e e') ∧
      ∀ f ∈ S.fields, ∃ u u', S.Has r (.ok f.name, u) ∧ R (.ok f.name, u) (.ok f.name, u') ∧
        valuesUnder f.name kept = [u'] := by
  obtain ⟨hhas, hfields⟩ := members_of_decode h
  constructor
  · intro e' he'
    obtain ⟨e, he, hrel⟩ := exists_of_mem_forall₂ hkept he'
    exact ⟨e, hhas e he, hrel⟩
  · intro f hf
    obtain ⟨u, hu⟩ := hfields f hf
    have hrel := valuesUnder_forall₂ hR hkept f.name
    rw [hu, List.forall₂_cons_left_iff] at hrel
    obtain ⟨u', us, hu', hrest, hvalues⟩ := hrel
    rw [List.forall₂_nil_left_iff.mp hrest] at hvalues
    have hmem : (.ok f.name, u) ∈ members.entries := by
      rw [← mem_valuesUnder_iff, hu]
      exact List.mem_singleton_self u
    exact ⟨u, u', hhas _ hmem, hu', hvalues⟩

/-- Members that stand for the fields of `r`, each once, and foreign ones. -/
structure Presents (S : Shape σ ρ) (R : Entry → Entry → Prop) (r : ρ) (es : List Entry) :
    Prop where
  whole : ∀ e' ∈ es, e'.2.looseFault? = none
  comes : ∀ e' ∈ es, IsForeign S.names e' ∨ ∃ e, S.Has r e ∧ R e e'
  field : ∀ f ∈ S.fields, ∃ u u', S.Has r (.ok f.name, u) ∧ R (.ok f.name, u) (.ok f.name, u') ∧
    valuesUnder f.name es = [u']

/-- **Every form of an object is decoded as a list of members that stand for its fields.** -/
theorem exists_presents (hR : ∀ {e e'}, R e e' → e'.1 = e.1) (hok : S.decode v = .ok r)
    (h : Form S.names R v v') (hwhole : v'.looseFault? = none) :
    ∃ es, S.decode v' = S.decodeEntries es ∧ S.Presents R r es := by
  cases h with
  | @object ahead ahead' members members' kept hkept hrearranges =>
    obtain ⟨hhas, hfields⟩ := exists_kept hR hok hkept
    refine ⟨members'.entries, decode_object hwhole ahead', ?_, ?_, ?_⟩
    · exact fun e' he' => members'.looseFault?_of_mem hwhole he'
    · intro e' he'
      obtain ⟨foreign, hforeign, hperm⟩ := hrearranges
      rcases List.mem_append.mp (hperm.mem_iff.mp he') with hmem | hmem
      · exact .inr (hhas e' hmem)
      · exact .inl (hforeign e' hmem)
    · intro f hf
      obtain ⟨u, u', hu, hrel, hvalues⟩ := hfields f hf
      exact ⟨u, u', hu, hrel, valuesUnder_rearranged hrearranges (name_mem_names hf) hvalues⟩
  | @array ahead ahead' members items kept hkept hlisted =>
    obtain ⟨hhas, hfields⟩ := exists_kept hR hok hkept
    refine ⟨inOrder S.names items.values, decode_array hwhole hlisted.length_eq ahead', ?_, ?_, ?_⟩
    · intro e' he'
      obtain ⟨_, w, rfl, -, hw, -⟩ := exists_of_mem_inOrder hlisted he'
      exact items.looseFault?_of_mem hwhole hw
    · intro e' he'
      obtain ⟨_, w, rfl, -, -, hmem⟩ := exists_of_mem_inOrder hlisted he'
      exact .inr (hhas _ hmem)
    · intro f hf
      obtain ⟨u, u', hu, hrel, hvalues⟩ := hfields f hf
      obtain ⟨w, hw, hlast⟩ := exists_valuesUnder_inOrder hlisted S.nodup_names (name_mem_names hf)
      rw [← mem_valuesUnder_iff, hvalues, List.mem_singleton] at hw
      exact ⟨u, u', hu, hrel, hw ▸ hlast⟩

/-- **An object is decoded alike in all its forms.** -/
theorem decode_of_form (hR : S.Keeps R) (hok : S.decode v = .ok r) (h : Form S.names R v v')
    (hwhole : v'.looseFault? = none) : S.decode v' = .ok r := by
  obtain ⟨es, hdecode, hes⟩ := exists_presents hR.name hok h hwhole
  rw [hdecode, decodeEntries_eq_ok_iff hes.whole]
  constructor
  · intro e' he'
    obtain ⟨name, hname, -⟩ | ⟨e, he, hrel⟩ := hes.comes e' he'
    · exact ⟨name, hname⟩
    · exact (hR.has he hrel (hes.whole e' he')).named
  · intro f hf
    obtain ⟨u, u', hu, hrel, hvalues⟩ := hes.field f hf
    have hmem : (.ok f.name, u') ∈ es := by
      rw [← mem_valuesUnder_iff, hvalues]
      exact List.mem_singleton_self u'
    exact ⟨u', hvalues, (hR.has hu hrel (hes.whole _ hmem)).value f hf rfl⟩

/-- **A form of an object does not suit if the member of some field has been exchanged for one
    that does not.** -/
theorem failsWithData_of_spoiled (hR : ∀ {e e'}, R e e' → e'.1 = e.1) (hok : S.decode v = .ok r)
    (h : Form S.names R v v') (hwhole : v'.looseFault? = none)
    (htolerates : ∀ {e e'}, S.Has r e → R e e' → e'.2.looseFault? = none → S.Tolerates e')
    {f : Field σ ρ} (hf : f ∈ S.fields)
    (hspoiled : ∀ {u u'}, S.Has r (.ok f.name, u) → R (.ok f.name, u) (.ok f.name, u') →
      u'.looseFault? = none → FailsWithData (f.decode u')) : FailsWithData (S.decode v') := by
  obtain ⟨es, hdecode, hes⟩ := exists_presents hR hok h hwhole
  rw [hdecode]
  apply NoFault.failsWithData
  · refine noFault_decodeEntries fun e' he' => ?_
    obtain hforeign | ⟨e, he, hrel⟩ := hes.comes e' he'
    · exact tolerates_of_isForeign hforeign (hes.whole e' he')
    · exact htolerates he hrel (hes.whole e' he')
  · intro r' hr'
    obtain ⟨u, u', hu, hrel, hvalues⟩ := hes.field f hf
    obtain ⟨w, hw, hdecoded⟩ := ((decodeEntries_eq_ok_iff hes.whole).mp hr').2 f hf
    rw [hvalues, List.singleton_inj] at hw
    have hmem : (.ok f.name, u') ∈ es := by
      rw [← mem_valuesUnder_iff, hvalues]
      exact List.mem_singleton_self u'
    exact (hspoiled hu hrel (hes.whole _ hmem)).ne_ok _ (hw ▸ hdecoded)

/-- **An object with a flaw does not suit its place.** -/
theorem failsWithData_of_flaw (hR : S.Keeps R) (hok : S.decode v = .ok r)
    (h : Flaw S.names S.Takes R v v') (hwhole : v'.looseFault? = none) :
    FailsWithData (S.decode v') := by
  cases h with
  | @omits ahead ahead' members members' name hname hsound hmissing =>
    obtain ⟨f, hf, rfl⟩ := exists_field_of_mem_names hname
    have hwholes := fun e' (he' : e' ∈ members'.entries) => members'.looseFault?_of_mem hwhole he'
    rw [decode_object hwhole]
    apply NoFault.failsWithData
    · exact noFault_decodeEntries fun e' he' =>
        tolerates_of_isSound hR hok (hsound e' he') (hwholes e' he')
    · intro r' hr'
      obtain ⟨w, hw, -⟩ := ((decodeEntries_eq_ok_iff hwholes).mp hr').2 f hf
      apply hmissing w
      rw [← mem_valuesUnder_iff, hw]
      exact List.mem_singleton_self w
  | @repeats ahead ahead' members members' name front back u w hname hentries hsound hu =>
    obtain ⟨f, hf, rfl⟩ := exists_field_of_mem_names hname
    rw [decode_object hwhole, hentries]
    refine failsWithData_of_twice (fun e' he' => ?_) hf hu w
    apply tolerates_of_isSound hR hok (hsound e' he')
    apply members'.looseFault?_of_mem hwhole
    rw [hentries]
    exact List.mem_append_left _ he'

end Shape

end Stocklist.Wire
