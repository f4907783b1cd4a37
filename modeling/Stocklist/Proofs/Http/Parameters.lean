/-
  Stocklist/Proofs/Http/Parameters.lean
  =====================================
  **Parameters are read back from every way to write them.**

  A writer is free in every byte of a key or a value: an escape with digits of either
  case, the character itself if it is harmless, a `+` for a blank.  `Escapes` says what
  the outcomes of that freedom are.  None of them contains an `&` or an `=`, so the cuts of
  the reader fall where the writer put the separators, and within a component each written
  byte is read back on its own.  The reader therefore gives the pairs that were written, in
  their order (`parameters_of_writesQuery`).
-/
import Mathlib.Tactic
import Stocklist.Http.Parameters
import Stocklist.Proofs.Text.Parts
import Stocklist.Proofs.Text.Utf8

namespace Stocklist.Http

open Text Utf8

/-! ### Ways to write a parameter -/

/-- Whether a character may stand for itself in a key or a value. -/
def isLiteral (c : Char) : Bool :=
  c.isAlphanum || "-._~*".toList.contains c

/-- `Escapes bs cs`: the characters `cs` are one way to write the bytes `bs`. -/
inductive Escapes : List UInt8 → List Char → Prop where
  | nil : Escapes [] []
  | percent {b : UInt8} {high low : Char} {bs : List UInt8} {cs : List Char} :
      hexValue? high = some (b.toNat / 16) → hexValue? low = some (b.toNat % 16) →
      Escapes bs cs → Escapes (b :: bs) ('%' :: high :: low :: cs)
  | literal {c : Char} {bs : List UInt8} {cs : List Char} :
      isLiteral c → Escapes bs cs → Escapes (UInt8.ofNat c.toNat :: bs) (c :: cs)
  | blank {bs : List UInt8} {cs : List Char} : Escapes bs cs → Escapes (0x20 :: bs) ('+' :: cs)

/-- A pair is written with `=` between its key and its value. -/
def WritesPair (pair : String × String) (cs : List Char) : Prop :=
  ∃ key value, Escapes (bytes pair.1) key ∧ Escapes (bytes pair.2) value ∧
    cs = key ++ '=' :: value

/-- Pairs are written with `&` between them. -/
def WritesQuery (pairs : List (String × String)) (cs : List Char) : Prop :=
  ∃ written, List.Forall₂ WritesPair pairs written ∧ cs = join '&' written

/-! ### Characters of a written component -/

/-- The characters that a written component consists of. -/
def isEscapeChar (c : Char) : Bool :=
  isLiteral c || c = '%' || c = '+'

theorem isAlphanum_iff {c : Char} :
    c.isAlphanum ↔
      (('A' ≤ c ∧ c ≤ 'Z') ∨ ('a' ≤ c ∧ c ≤ 'z')) ∨ ('0' ≤ c ∧ c ≤ '9') := by
  change ((decide ('A' ≤ c ∧ c ≤ 'Z') || decide ('a' ≤ c) && decide (c ≤ 'z')) ||
    decide ('0' ≤ c) && decide (c ≤ '9')) = true ↔ _
  simp only [Bool.or_eq_true, Bool.and_eq_true, decide_eq_true_eq]

theorem toNat_lt_of_isAlphanum {c : Char} (h : c.isAlphanum) : c.toNat < 128 := by
  have hle : ∀ last : Char, last.toNat < 128 → c ≤ last → c.toNat < 128 := fun last hlast hc =>
    Nat.lt_of_le_of_lt (UInt32.le_iff_toNat_le.mp hc) hlast
  rcases isAlphanum_iff.mp h with (⟨-, hc⟩ | ⟨-, hc⟩) | ⟨-, hc⟩
  · exact hle 'Z' (by decide) hc
  · exact hle 'z' (by decide) hc
  · exact hle '9' (by decide) hc

theorem toNat_lt_of_isEscapeChar {c : Char} (h : isEscapeChar c) : c.toNat < 128 := by
  simp only [isEscapeChar, isLiteral, Bool.or_eq_true, decide_eq_true_eq,
    List.contains_iff_mem] at h
  rcases h with ((halphanum | hmark) | rfl) | rfl
  · exact toNat_lt_of_isAlphanum halphanum
  · have hmark' : c = '-' ∨ c = '.' ∨ c = '_' ∨ c = '~' ∨ c = '*' := by simpa using hmark
    rcases hmark' with rfl | rfl | rfl | rfl | rfl <;> decide
  · decide
  · decide

theorem isAlphanum_of_hexValue? {c : Char} {n : Nat} (h : hexValue? c = some n) :
    c.isAlphanum := by
  rw [isAlphanum_iff]
  unfold hexValue? at h
  split_ifs at h with hdigit hsmall hcapital
  · exact Or.inr hdigit
  · exact Or.inl (Or.inr ⟨hsmall.1, Char.le_trans hsmall.2 (by decide)⟩)
  · exact Or.inl (Or.inl ⟨hcapital.1, Char.le_trans hcapital.2 (by decide)⟩)

theorem isEscapeChar_of_isLiteral {c : Char} (h : isLiteral c) : isEscapeChar c := by
  simp [isEscapeChar, h]

theorem isEscapeChar_of_hexValue? {c : Char} {n : Nat} (h : hexValue? c = some n) :
    isEscapeChar c :=
  isEscapeChar_of_isLiteral (by simp [isLiteral, isAlphanum_of_hexValue? h])

theorem Escapes.all_isEscapeChar {bs : List UInt8} {cs : List Char} (h : Escapes bs cs) :
    ∀ c ∈ cs, isEscapeChar c := by
  induction h with
  | nil => exact List.forall_mem_nil _
  | percent hhigh hlow _ ih =>
    refine List.forall_mem_cons.mpr ⟨by decide, ?_⟩
    refine List.forall_mem_cons.mpr ⟨isEscapeChar_of_hexValue? hhigh, ?_⟩
    exact List.forall_mem_cons.mpr ⟨isEscapeChar_of_hexValue? hlow, ih⟩
  | literal hc _ ih => exact List.forall_mem_cons.mpr ⟨isEscapeChar_of_isLiteral hc, ih⟩
  | blank _ ih => exact List.forall_mem_cons.mpr ⟨by decide, ih⟩

theorem Escapes.notMem {bs : List UInt8} {cs : List Char} {separator : Char}
    (h : Escapes bs cs) (hseparator : ¬ isEscapeChar separator) : separator ∉ cs := fun hmem =>
  hseparator (h.all_isEscapeChar separator hmem)

/-! ### One component -/

/-- What a component makes of `+`. -/
def readBlank (b : UInt8) : UInt8 :=
  if b = 0x2B then 0x20 else b

theorem component_eq (bs : List UInt8) :
    component bs = String.ofList (decodeLossy (percentDecode (bs.map readBlank))) :=
  rfl

theorem readBlank_of_ne {c : Char} (hc : c.toNat < 128) (hne : c ≠ '+') :
    readBlank (UInt8.ofNat c.toNat) = UInt8.ofNat c.toNat :=
  if_neg (ofNat_toNat_ne hc (d := '+') (by decide) hne)

theorem readBlank_of_hexValue? {c : Char} {n : Nat} (h : hexValue? c = some n) :
    readBlank (UInt8.ofNat c.toNat) = UInt8.ofNat c.toNat := by
  apply readBlank_of_ne (toNat_lt_of_isEscapeChar (isEscapeChar_of_hexValue? h))
  rintro rfl
  exact absurd (isAlphanum_of_hexValue? h) (by decide)

theorem percentDecode_cons_of_ne {b : UInt8} (h : b ≠ 0x25) (rest : List UInt8) :
    percentDecode (b :: rest) = b :: percentDecode rest :=
  percentDecode.eq_2 b rest fun _ _ _ hb _ => h hb

/-- An escape is the byte of its two digits, whatever their case. -/
theorem percentDecode_escape {b high low : UInt8} (hhigh : digitValue? high = some (b.toNat / 16))
    (hlow : digitValue? low = some (b.toNat % 16)) (rest : List UInt8) :
    percentDecode (0x25 :: high :: low :: rest) = b :: percentDecode rest := by
  rw [percentDecode, hhigh, hlow]
  dsimp only
  rw [Nat.div_add_mod, UInt8.ofNat_toNat]

theorem digitValue?_ofNat {c : Char} {n : Nat} (h : hexValue? c = some n) :
    digitValue? (UInt8.ofNat c.toNat) = some n := by
  have hlt := toNat_lt_of_isEscapeChar (isEscapeChar_of_hexValue? h)
  rw [digitValue?, toNat_ofNat_char hlt, Char.ofNat_toNat, h]

theorem Escapes.percentDecode_eq {bs : List UInt8} {cs : List Char} (h : Escapes bs cs) :
    percentDecode ((encode cs).map readBlank) = bs := by
  induction h with
  | nil => rfl
  | @percent b high low bs cs hhigh hlow _ ih =>
    have hhigh' := toNat_lt_of_isEscapeChar (isEscapeChar_of_hexValue? hhigh)
    have hlow' := toNat_lt_of_isEscapeChar (isEscapeChar_of_hexValue? hlow)
    rw [encode_cons_of_lt (by decide), encode_cons_of_lt hhigh', encode_cons_of_lt hlow',
      List.map_cons, List.map_cons, List.map_cons, readBlank_of_hexValue? hhigh,
      readBlank_of_hexValue? hlow]
    exact (percentDecode_escape (digitValue?_ofNat hhigh) (digitValue?_ofNat hlow) _).trans
      (congrArg (b :: ·) ih)
  | @literal c bs cs hc _ ih =>
    have hlt := toNat_lt_of_isEscapeChar (isEscapeChar_of_isLiteral hc)
    have hplus : c ≠ '+' := by
      rintro rfl
      exact absurd hc (by decide)
    have hpercent : c ≠ '%' := by
      rintro rfl
      exact absurd hc (by decide)
    rw [encode_cons_of_lt hlt, List.map_cons, readBlank_of_ne hlt hplus,
      percentDecode_cons_of_ne (ofNat_toNat_ne hlt (d := '%') (by decide) hpercent), ih]
  | @blank bs cs _ ih =>
    rw [encode_cons_of_lt (by decide), List.map_cons]
    exact (percentDecode_cons_of_ne (by decide) _).trans (congrArg (0x20 :: ·) ih)

/-- **A text is read back from every way to write it.** -/
theorem component_of_escapes {s : String} {cs : List Char} (h : Escapes (bytes s) cs) :
    component (encode cs) = s := by
  rw [component_eq, h.percentDecode_eq, bytes, decodeLossy_encode, String.ofList_toList]

theorem escapes_self {cs : List Char} (h : ∀ c ∈ cs, isLiteral c) : Escapes (encode cs) cs := by
  induction cs with
  | nil => exact .nil
  | cons c cs ih =>
    obtain ⟨hc, hcs⟩ := List.forall_mem_cons.mp h
    rw [encode_cons_of_lt (toNat_lt_of_isEscapeChar (isEscapeChar_of_isLiteral hc))]
    exact .literal hc (ih hcs)

/-! ### Pairs and queries -/

theorem WritesPair.parameter_eq {pair : String × String} {cs : List Char}
    (h : WritesPair pair cs) : parameter (encode cs) = pair := by
  obtain ⟨key, value, hkey, hvalue, rfl⟩ := h
  have hne : (0x3D : UInt8) ∉ encode key :=
    ofNat_notMem_encode (c := '=') (by decide) (hkey.notMem (by decide))
  have hall : ∀ b ∈ encode key, decide (b ≠ 0x3D) = true := by
    intro b hb
    rw [decide_eq_true_eq]
    rintro rfl
    exact hne hb
  have hencode : encode (key ++ '=' :: value) = encode key ++ 0x3D :: encode value := by
    rw [encode_append]
    rfl
  rw [parameter, hencode, List.takeWhile_append_of_pos hall, List.dropWhile_append_of_pos hall,
    List.takeWhile_cons_of_neg (by decide), List.dropWhile_cons_of_neg (by decide),
    List.append_nil, List.drop_one, List.tail_cons, component_of_escapes hkey,
    component_of_escapes hvalue]

theorem WritesPair.ne_nil {pair : String × String} {cs : List Char} (h : WritesPair pair cs) :
    cs ≠ [] := by
  obtain ⟨key, value, -, -, rfl⟩ := h
  exact List.append_ne_nil_of_right_ne_nil _ (List.cons_ne_nil _ _)

theorem WritesPair.notMem {pair : String × String} {cs : List Char} (h : WritesPair pair cs) :
    '&' ∉ cs := by
  obtain ⟨key, value, hkey, hvalue, rfl⟩ := h
  intro hmem
  rw [List.mem_append, List.mem_cons] at hmem
  rcases hmem with hmem | heq | hmem
  · exact hkey.notMem (by decide) hmem
  · exact absurd heq (by decide)
  · exact hvalue.notMem (by decide) hmem

theorem encode_join {separator : Char} (h : separator.toNat < 128) (pieces : List (List Char)) :
    encode (join separator pieces) = join (UInt8.ofNat separator.toNat) (pieces.map encode) := by
  induction pieces with
  | nil => rfl
  | cons piece more ih =>
    cases more with
    | nil => rfl
    | cons next more =>
      rw [join, encode_append, encode_cons_of_lt h, ih]
      rfl

theorem exists_writesPair {pairs : List (String × String)} {written : List (List Char)}
    (h : List.Forall₂ WritesPair pairs written) : ∀ cs ∈ written, ∃ pair, WritesPair pair cs := by
  induction h with
  | nil => exact List.forall_mem_nil _
  | cons hpair _ ih => exact List.forall_mem_cons.mpr ⟨⟨_, hpair⟩, ih⟩

theorem map_parameter {pairs : List (String × String)} {written : List (List Char)}
    (h : List.Forall₂ WritesPair pairs written) :
    (written.map encode).map parameter = pairs := by
  induction h with
  | nil => rfl
  | cons hpair _ ih => rw [List.map_cons, List.map_cons, hpair.parameter_eq, ih]

/-- **The pairs of a written query are read back, in their order.** -/
theorem parameters_of_writesQuery {pairs : List (String × String)} {cs : List Char}
    (h : WritesQuery pairs cs) : parameters (String.ofList cs) = pairs := by
  obtain ⟨written, hwritten, rfl⟩ := h
  rw [parameters, String.toList_ofList, encode_join (by decide)]
  by_cases hnil : written = []
  · subst hnil
    rw [List.forall₂_nil_right_iff.mp hwritten]
    rfl
  have hpieces : ∀ bs ∈ written.map encode, bs ≠ [] ∧ (0x26 : UInt8) ∉ bs := by
    rw [List.forall_mem_map]
    intro cs hcs
    obtain ⟨pair, hpair⟩ := exists_writesPair hwritten cs hcs
    exact ⟨fun hencode => hpair.ne_nil (encode_injective hencode),
      ofNat_notMem_encode (c := '&') (by decide) hpair.notMem⟩
  have hparts : parts 0x26 (join 0x26 (written.map encode)) = written.map encode :=
    parts_join (by simpa using hnil) fun bs hbs => (hpieces bs hbs).2
  have hfilter : (written.map encode).filter (fun bs => !bs.isEmpty) = written.map encode := by
    rw [List.filter_eq_self]
    intro bs hbs
    simpa using (hpieces bs hbs).1
  have hbyte : UInt8.ofNat '&'.toNat = 0x26 := rfl
  rw [hbyte, hparts, hfilter, map_parameter hwritten]

end Stocklist.Http
