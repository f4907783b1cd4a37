/-
  Stocklist/Proofs/Text/Utf8.lean
  ===============================
  **Decoding UTF-8 is the inverse of encoding it.**

  `Sequence v bs` says in numbers that `bs` is the well-formed byte sequence of the code
  point `v`: how many bytes there are, and which second bytes the leading ones 0xE0,
  0xED, 0xF0 and 0xF4 admit.  Encoding a character gives such a sequence, the decoder
  turns one into its character whatever follows, and it finds one in front of any bytes
  that it does not object to.  So a byte list decodes to a text exactly if it is the
  encoding of that text (`decode?_eq_some_iff`).
-/
import Mathlib.Tactic
import Stocklist.Text.Utf8

namespace Stocklist.Utf8

/-! ### Well-formed sequences -/

/-- The byte sequence of a code point, by the six bits that each trailing byte adds. -/
inductive Sequence : Nat → List UInt8 → Prop where
  | one {n : Nat} : n < 128 → Sequence n [UInt8.ofNat n]
  | two {n r : Nat} : 2 ≤ n → n < 32 → r < 64 →
      Sequence (n * 64 + r) [UInt8.ofNat (n + 192), UInt8.ofNat (r + 128)]
  | three {n q r : Nat} : n < 16 → q < 64 → r < 64 → (n = 0 → 32 ≤ q) → (n = 13 → q < 32) →
      Sequence ((n * 64 + q) * 64 + r)
        [UInt8.ofNat (n + 224), UInt8.ofNat (q + 128), UInt8.ofNat (r + 128)]
  | four {n p q r : Nat} : n < 5 → p < 64 → q < 64 → r < 64 →
      (n = 0 → 16 ≤ p) → (n = 4 → p < 16) →
      Sequence (((n * 64 + p) * 64 + q) * 64 + r)
        [UInt8.ofNat (n + 240), UInt8.ofNat (p + 128), UInt8.ofNat (q + 128),
          UInt8.ofNat (r + 128)]

theorem toNat_char_cases (c : Char) :
    c.val.toNat < 0xD800 ∨ (0xDFFF < c.val.toNat ∧ c.val.toNat < 0x110000) :=
  c.valid

theorem toNat_val_ofNat {n : Nat} (h : n.isValidChar) : (Char.ofNat n).val.toNat = n := by
  rw [Char.ofNat, dif_pos h]
  rfl

theorem sequence_utf8EncodeChar (c : Char) : Sequence c.toNat (String.utf8EncodeChar c) := by
  have hvalid := toNat_char_cases c
  have htoNat : c.toNat = c.val.toNat := rfl
  unfold String.utf8EncodeChar
  rw [htoNat]
  generalize c.val.toNat = v at hvalid
  dsimp only
  split_ifs with hone htwo hthree
  · exact .one (by omega)
  · have hv : v / 64 % 32 * 64 + v % 64 = v := by omega
    have hseq := Sequence.two (n := v / 64 % 32) (r := v % 64) (by omega) (by omega) (by omega)
    rwa [hv] at hseq
  · have hv : (v / 4096 % 16 * 64 + v / 64 % 64) * 64 + v % 64 = v := by omega
    have hseq := Sequence.three (n := v / 4096 % 16) (q := v / 64 % 64) (r := v % 64)
      (by omega) (by omega) (by omega) (by omega) (by omega)
    rwa [hv] at hseq
  · have hv : ((v / 262144 % 8 * 64 + v / 4096 % 64) * 64 + v / 64 % 64) * 64 + v % 64 = v := by
      omega
    have hseq := Sequence.four (n := v / 262144 % 8) (p := v / 4096 % 64) (q := v / 64 % 64)
      (r := v % 64) (by omega) (by omega) (by omega) (by omega) (by omega) (by omega)
    rwa [hv] at hseq

theorem Sequence.isValidChar {v : Nat} {bs : List UInt8} (h : Sequence v bs) :
    v.isValidChar := by
  cases h with
  | one hn => exact Or.inl (by omega)
  | two hn hn' hr => exact Or.inl (by omega)
  | @three n q r hn hq hr hlow hsurrogate =>
    by_cases h13 : n ≤ 13
    · exact Or.inl (by omega)
    · exact Or.inr ⟨by omega, by omega⟩
  | four hn hp hq hr hlow hhigh => exact Or.inr ⟨by omega, by omega⟩

theorem toNat_trailing {r : Nat} (hr : r < 64) : (UInt8.ofNat (r + 128)).toNat = r + 128 :=
  UInt8.toNat_ofNat_of_lt' (Nat.lt_trans (Nat.add_lt_add_right hr 128) (by decide))

theorem le_toNat_ofNat {n : Nat} (hn : 128 ≤ n) (hlt : n < 256) : 128 ≤ (UInt8.ofNat n).toNat := by
  rwa [UInt8.toNat_ofNat_of_lt' hlt]

/-- Only the sequence of an ASCII character has a byte below 0x80. -/
theorem Sequence.eq_toNat_of_mem {v : Nat} {bs : List UInt8} (h : Sequence v bs) {b : UInt8}
    (hb : b ∈ bs) (hlt : b.toNat < 128) : v = b.toNat := by
  simp only [← Nat.not_le] at hlt
  cases h with
  | one hn =>
    obtain rfl : b = UInt8.ofNat v := by simpa using hb
    exact (UInt8.toNat_ofNat_of_lt' (Nat.lt_trans hn (by decide))).symm
  | two hn hn' hr =>
    simp only [List.mem_cons, List.not_mem_nil, or_false] at hb
    rcases hb with rfl | rfl <;> exact absurd (le_toNat_ofNat (by omega) (by omega)) hlt
  | three hn hq hr _ _ =>
    simp only [List.mem_cons, List.not_mem_nil, or_false] at hb
    rcases hb with rfl | rfl | rfl <;> exact absurd (le_toNat_ofNat (by omega) (by omega)) hlt
  | four hn hp hq hr _ _ =>
    simp only [List.mem_cons, List.not_mem_nil, or_false] at hb
    rcases hb with rfl | rfl | rfl | rfl <;>
      exact absurd (le_toNat_ofNat (by omega) (by omega)) hlt

theorem Sequence.utf8EncodeChar_eq {v : Nat} {bs : List UInt8} (h : Sequence v bs) :
    String.utf8EncodeChar (Char.ofNat v) = bs := by
  have hv : (Char.ofNat v).val.toNat = v := toNat_val_ofNat h.isValidChar
  unfold String.utf8EncodeChar
  rw [hv]
  dsimp only
  cases h with
  | one hn => rw [if_pos (by omega)]
  | @two n r hn hn' hr =>
    have hlead : (n * 64 + r) / 64 % 32 = n := by omega
    have hlast : (n * 64 + r) % 64 = r := by omega
    rw [if_neg (by omega), if_pos (by omega), hlead, hlast]
  | @three n q r hn hq hr hlow hsurrogate =>
    have hlead : ((n * 64 + q) * 64 + r) / 4096 % 16 = n := by omega
    have hmiddle : ((n * 64 + q) * 64 + r) / 64 % 64 = q := by omega
    have hlast : ((n * 64 + q) * 64 + r) % 64 = r := by omega
    rw [if_neg (by omega), if_neg (by omega), if_pos (by omega), hlead, hmiddle, hlast]
  | @four n p q r hn hp hq hr hlow hhigh =>
    have hlead : (((n * 64 + p) * 64 + q) * 64 + r) / 262144 % 8 = n := by omega
    have hsecond : (((n * 64 + p) * 64 + q) * 64 + r) / 4096 % 64 = p := by omega
    have hthird : (((n * 64 + p) * 64 + q) * 64 + r) / 64 % 64 = q := by omega
    have hlast : (((n * 64 + p) * 64 + q) * 64 + r) % 64 = r := by omega
    rw [if_neg (by omega), if_neg (by omega), if_neg (by omega), hlead, hsecond, hthird, hlast]

/-! ### The decoder on leading bytes

The leading bytes come in four groups; every other byte begins no character. -/

/-- The second bytes that a leading byte of three admits. -/
def secondOfThree (n : Nat) : UInt8 × UInt8 :=
  if n = 0 then (0xA0, 0xBF) else if n = 13 then (0x80, 0x9F) else continuation

/-- The second bytes that a leading byte of four admits. -/
def secondOfFour (n : Nat) : UInt8 × UInt8 :=
  if n = 0 then (0x90, 0xBF) else if n = 4 then (0x80, 0x8F) else continuation

theorem lead_one : ∀ n < 128, lead (UInt8.ofNat n) = ([some (Char.ofNat n)], .start) := by
  decide +kernel

theorem lead_two : ∀ n < 32, 2 ≤ n →
    lead (UInt8.ofNat (n + 192)) = ([], .inside n [continuation]) := by
  decide +kernel

theorem lead_three : ∀ n < 16,
    lead (UInt8.ofNat (n + 224)) = ([], .inside n [secondOfThree n, continuation]) := by
  decide +kernel

theorem lead_four : ∀ n < 5,
    lead (UInt8.ofNat (n + 240)) =
      ([], .inside n [secondOfFour n, continuation, continuation]) := by
  decide +kernel

theorem lead_none : ∀ n < 256, (128 ≤ n ∧ n < 194) ∨ 245 ≤ n →
    lead (UInt8.ofNat n) = ([none], .start) := by
  decide +kernel

theorem lead_cases (b : UInt8) :
    lead b = ([none], .start) ∨ (∃ n < 128, b = UInt8.ofNat n) ∨
      (∃ n < 32, 2 ≤ n ∧ b = UInt8.ofNat (n + 192)) ∨ (∃ n < 16, b = UInt8.ofNat (n + 224)) ∨
      ∃ n < 5, b = UInt8.ofNat (n + 240) := by
  obtain ⟨m, hm, rfl⟩ : ∃ m < 256, b = UInt8.ofNat m :=
    ⟨b.toNat, b.toNat_lt, UInt8.ofNat_toNat.symm⟩
  by_cases hnone : (128 ≤ m ∧ m < 194) ∨ 245 ≤ m
  · exact Or.inl (lead_none m hm hnone)
  right
  by_cases hone : m < 128
  · exact Or.inl ⟨m, hone, rfl⟩
  right
  by_cases htwo : m < 224
  · exact Or.inl ⟨m - 192, by omega, by omega, by rw [Nat.sub_add_cancel (by omega)]⟩
  right
  by_cases hthree : m < 240
  · exact Or.inl ⟨m - 224, by omega, by rw [Nat.sub_add_cancel (by omega)]⟩
  · exact Or.inr ⟨m - 240, by omega, by rw [Nat.sub_add_cancel (by omega)]⟩

/-! ### The decoder on trailing bytes -/

theorem scanFrom_cons (s : State) (b : UInt8) (bs : List UInt8) :
    scanFrom s (b :: bs) = (step s b).1 ++ scanFrom (step s b).2 bs := by
  cases s <;> rfl

theorem scanFrom_start_cons (b : UInt8) (bs : List UInt8) :
    scanFrom .start (b :: bs) = (lead b).1 ++ scanFrom (lead b).2 bs :=
  rfl

/-- Whether the trailing byte that adds the bits `r` lies in a range. -/
def Admits (range : UInt8 × UInt8) (r : Nat) : Prop :=
  r < 64 ∧ range.1.toNat ≤ r + 128 ∧ r + 128 ≤ range.2.toNat

theorem admits_continuation {r : Nat} : Admits continuation r ↔ r < 64 := by
  have hrange : continuation.1.toNat = 128 ∧ continuation.2.toNat = 191 := ⟨rfl, rfl⟩
  simp only [Admits, hrange]
  omega

theorem admits_secondOfThree {n q : Nat} :
    Admits (secondOfThree n) q ↔ q < 64 ∧ (n = 0 → 32 ≤ q) ∧ (n = 13 → q < 32) := by
  have hrange : (0xA0 : UInt8).toNat = 160 ∧ (0xBF : UInt8).toNat = 191 ∧
      (0x80 : UInt8).toNat = 128 ∧ (0x9F : UInt8).toNat = 159 := ⟨rfl, rfl, rfl, rfl⟩
  unfold secondOfThree
  split_ifs with hzero hsurrogate
  · simp only [Admits, hrange]
    omega
  · simp only [Admits, hrange]
    omega
  · rw [admits_continuation]
    omega

theorem admits_secondOfFour {n p : Nat} :
    Admits (secondOfFour n) p ↔ p < 64 ∧ (n = 0 → 16 ≤ p) ∧ (n = 4 → p < 16) := by
  have hrange : (0x90 : UInt8).toNat = 144 ∧ (0xBF : UInt8).toNat = 191 ∧
      (0x80 : UInt8).toNat = 128 ∧ (0x8F : UInt8).toNat = 143 := ⟨rfl, rfl, rfl, rfl⟩
  unfold secondOfFour
  split_ifs with hzero hfour
  · simp only [Admits, hrange]
    omega
  · simp only [Admits, hrange]
    omega
  · rw [admits_continuation]
    omega

section Trailing

variable {bits r : Nat} {range : UInt8 × UInt8} (rest : List UInt8)

/-- A byte in the range that the decoder expects adds its six bits. -/
theorem step_inside (ranges : List (UInt8 × UInt8)) (h : Admits range r) :
    step (.inside bits (range :: ranges)) (UInt8.ofNat (r + 128)) =
      if ranges.isEmpty then ([some (Char.ofNat (bits * 64 + r))], .start)
      else ([], .inside (bits * 64 + r) ranges) := by
  obtain ⟨hr, hlow, hhigh⟩ := h
  have htoNat := toNat_trailing hr
  have hin : range.1 ≤ UInt8.ofNat (r + 128) ∧ UInt8.ofNat (r + 128) ≤ range.2 := by
    simp only [UInt8.le_iff_toNat_le, htoNat]
    exact ⟨hlow, hhigh⟩
  have hbits : (UInt8.ofNat (r + 128)).toNat % 64 = r := by omega
  simp only [step, if_pos hin, hbits]

theorem scanFrom_inside_last (h : Admits range r) :
    scanFrom (.inside bits [range]) (UInt8.ofNat (r + 128) :: rest) =
      some (Char.ofNat (bits * 64 + r)) :: scanFrom .start rest := by
  rw [scanFrom_cons, step_inside [] h]
  rfl

theorem scanFrom_inside_more (next : UInt8 × UInt8) (ranges : List (UInt8 × UInt8))
    (h : Admits range r) :
    scanFrom (.inside bits (range :: next :: ranges)) (UInt8.ofNat (r + 128) :: rest) =
      scanFrom (.inside (bits * 64 + r) (next :: ranges)) rest := by
  rw [scanFrom_cons, step_inside (next :: ranges) h]
  rfl

/-- Within a sequence the decoder is content with nothing but a byte of its range. -/
theorem exists_of_scanFrom_inside {range : UInt8 × UInt8} {ranges : List (UInt8 × UInt8)}
    {bs : List UInt8} (hlow : 128 ≤ range.1.toNat) (hhigh : range.2.toNat < 192)
    (h : none ∉ scanFrom (.inside bits (range :: ranges)) bs) :
    ∃ r rest, Admits range r ∧ bs = UInt8.ofNat (r + 128) :: rest := by
  cases bs with
  | nil => simp [scanFrom] at h
  | cons b rest =>
    rw [scanFrom_cons] at h
    by_cases hin : range.1 ≤ b ∧ b ≤ range.2
    · have hin' := And.intro (UInt8.le_iff_toNat_le.mp hin.1) (UInt8.le_iff_toNat_le.mp hin.2)
      have hb : UInt8.ofNat (b.toNat - 128 + 128) = b := by
        rw [Nat.sub_add_cancel (by omega), UInt8.ofNat_toNat]
      exact ⟨b.toNat - 128, rest, ⟨by omega, by omega, by omega⟩, by rw [hb]⟩
    · simp [step, if_neg hin] at h

end Trailing

/-! ### The decoder on a whole sequence -/

/-- A well-formed sequence gives its character, and decoding starts afresh after it. -/
theorem scanFrom_sequence {v : Nat} {bs : List UInt8} (h : Sequence v bs) (rest : List UInt8) :
    scanFrom .start (bs ++ rest) = some (Char.ofNat v) :: scanFrom .start rest := by
  cases h with
  | one hn =>
    rw [List.cons_append, scanFrom_start_cons, lead_one v hn]
    rfl
  | @two n r hn hn' hr =>
    rw [List.cons_append, scanFrom_start_cons, lead_two n hn' hn]
    exact scanFrom_inside_last rest (admits_continuation.mpr hr)
  | @three n q r hn hq hr hlow hsurrogate =>
    rw [List.cons_append, scanFrom_start_cons, lead_three n hn]
    exact (scanFrom_inside_more _ _ _ (admits_secondOfThree.mpr ⟨hq, hlow, hsurrogate⟩)).trans
      (scanFrom_inside_last rest (admits_continuation.mpr hr))
  | @four n p q r hn hp hq hr hlow hhigh =>
    rw [List.cons_append, scanFrom_start_cons, lead_four n hn]
    exact ((scanFrom_inside_more _ _ _ (admits_secondOfFour.mpr ⟨hp, hlow, hhigh⟩)).trans
      (scanFrom_inside_more _ _ _ (admits_continuation.mpr hq))).trans
        (scanFrom_inside_last rest (admits_continuation.mpr hr))

theorem trailing_secondOfThree (n : Nat) :
    128 ≤ (secondOfThree n).1.toNat ∧ (secondOfThree n).2.toNat < 192 := by
  unfold secondOfThree
  split_ifs <;> decide

theorem trailing_secondOfFour (n : Nat) :
    128 ≤ (secondOfFour n).1.toNat ∧ (secondOfFour n).2.toNat < 192 := by
  unfold secondOfFour
  split_ifs <;> decide

theorem trailing_continuation : 128 ≤ continuation.1.toNat ∧ continuation.2.toNat < 192 := by
  decide

theorem exists_sequence {b : UInt8} {bs : List UInt8} (h : none ∉ scanFrom .start (b :: bs)) :
    ∃ v front rest, Sequence v front ∧ b :: bs = front ++ rest := by
  obtain ⟨hlow, hhigh⟩ := trailing_continuation
  rw [scanFrom_start_cons] at h
  rcases lead_cases b with hnone | ⟨n, hn, rfl⟩ | ⟨n, hn, hn', rfl⟩ | ⟨n, hn, rfl⟩ | ⟨n, hn, rfl⟩
  · simp [hnone] at h
  · exact ⟨n, _, bs, .one hn, rfl⟩
  · rw [lead_two n hn hn'] at h
    obtain ⟨r, rest, hr, rfl⟩ := exists_of_scanFrom_inside hlow hhigh h
    exact ⟨_, _, rest, .two hn' hn (admits_continuation.mp hr), rfl⟩
  · rw [lead_three n hn] at h
    obtain ⟨q, rest, hq, rfl⟩ := exists_of_scanFrom_inside (trailing_secondOfThree n).1
      (trailing_secondOfThree n).2 h
    rw [List.nil_append, scanFrom_inside_more _ _ _ hq] at h
    obtain ⟨r, rest, hr, rfl⟩ := exists_of_scanFrom_inside hlow hhigh h
    obtain ⟨hq, hleast, hsurrogate⟩ := admits_secondOfThree.mp hq
    exact ⟨_, _, rest, .three hn hq (admits_continuation.mp hr) hleast hsurrogate, rfl⟩
  · rw [lead_four n hn] at h
    obtain ⟨p, rest, hp, rfl⟩ := exists_of_scanFrom_inside (trailing_secondOfFour n).1
      (trailing_secondOfFour n).2 h
    rw [List.nil_append, scanFrom_inside_more _ _ _ hp] at h
    obtain ⟨q, rest, hq, rfl⟩ := exists_of_scanFrom_inside hlow hhigh h
    rw [scanFrom_inside_more _ _ _ hq] at h
    obtain ⟨r, rest, hr, rfl⟩ := exists_of_scanFrom_inside hlow hhigh h
    obtain ⟨hp, hleast, hgreatest⟩ := admits_secondOfFour.mp hp
    exact ⟨_, _, rest, .four hn hp (admits_continuation.mp hq) (admits_continuation.mp hr)
      hleast hgreatest, rfl⟩

/-! ### Texts -/

theorem encode_cons (c : Char) (cs : List Char) :
    encode (c :: cs) = String.utf8EncodeChar c ++ encode cs :=
  rfl

@[simp] theorem encode_append (cs ds : List Char) :
    encode (cs ++ ds) = encode cs ++ encode ds := by
  simp [encode]

/-- A byte below 0x80 in an encoding is a character by itself. -/
theorem ofNat_mem_of_mem_encode {cs : List Char} {b : UInt8} (hb : b ∈ encode cs)
    (hlt : b.toNat < 128) : Char.ofNat b.toNat ∈ cs := by
  obtain ⟨c, hc, hbc⟩ := List.mem_flatMap.mp hb
  rw [← (sequence_utf8EncodeChar c).eq_toNat_of_mem hbc hlt, Char.ofNat_toNat]
  exact hc

theorem scanFrom_utf8EncodeChar (c : Char) (rest : List UInt8) :
    scanFrom .start (String.utf8EncodeChar c ++ rest) = some c :: scanFrom .start rest := by
  rw [scanFrom_sequence (sequence_utf8EncodeChar c), Char.ofNat_toNat]

theorem scan_encode (cs : List Char) : scan (encode cs) = cs.map some := by
  unfold scan
  induction cs with
  | nil => rfl
  | cons c cs ih => rw [encode_cons, scanFrom_utf8EncodeChar, ih, List.map_cons]

theorem decode?_encode (cs : List Char) : decode? (encode cs) = some cs := by
  rw [decode?, scan_encode]
  induction cs with
  | nil => rfl
  | cons c cs ih =>
    rw [List.map_cons, List.mapM_cons, ih]
    rfl

theorem encode_injective : Function.Injective encode := fun cs ds h =>
  Option.some.inj ((decode?_encode cs).symm.trans (h ▸ decode?_encode ds))

/-- The bytes of a string. -/
def bytes (s : String) : List UInt8 :=
  encode s.toList

theorem bytes_injective : Function.Injective bytes := fun _ _ h =>
  String.toList_inj.mp (encode_injective h)

theorem map_bytes_injective : Function.Injective (List.map bytes) :=
  List.map_injective_iff.mpr bytes_injective

theorem decodeLossy_encode (cs : List Char) : decodeLossy (encode cs) = cs := by
  rw [decodeLossy, scan_encode, List.map_map]
  exact List.map_id cs

theorem none_notMem_of_mapM {found : List (Option Char)} {cs : List Char}
    (h : found.mapM id = some cs) : none ∉ found := by
  induction found generalizing cs with
  | nil => exact List.not_mem_nil
  | cons first found ih =>
    rw [List.mapM_cons] at h
    obtain ⟨c, hfirst, hrest⟩ := Option.bind_eq_some_iff.mp h
    obtain ⟨ds, hds, -⟩ := Option.bind_eq_some_iff.mp hrest
    have hfirst' : first = some c := hfirst
    rw [hfirst', List.mem_cons, not_or]
    exact ⟨by simp, ih hds⟩

theorem exists_encode_of_scan (bs : List UInt8) (h : none ∉ scan bs) : ∃ cs, bs = encode cs := by
  -- By induction on the length, one sequence at a time.
  induction hlength : bs.length using Nat.strong_induction_on generalizing bs with
  | _ length ih =>
    cases bs with
    | nil => exact ⟨[], rfl⟩
    | cons b bs =>
      obtain ⟨v, front, rest, hfront, heq⟩ := exists_sequence h
      have hscan := scanFrom_sequence hfront rest
      rw [← heq] at hscan
      have hrest : none ∉ scan rest := fun hmem =>
        h (by rw [scan, hscan]; exact List.mem_cons_of_mem _ hmem)
      have hencode := hfront.utf8EncodeChar_eq
      have hne : front ≠ [] := hencode ▸ String.utf8EncodeChar_ne_nil
      have hshorter : rest.length < length := by
        have hpos := List.length_pos_iff.mpr hne
        rw [← hlength, heq, List.length_append]
        omega
      obtain ⟨cs, rfl⟩ := ih rest.length hshorter rest hrest rfl
      exact ⟨Char.ofNat v :: cs, by rw [heq, encode_cons, hencode]⟩

/-- Whether a byte list is the encoding of a text. -/
def IsText (bs : List UInt8) : Prop :=
  ∃ cs, bs = encode cs

theorem isText_bytes (s : String) : IsText (bytes s) :=
  ⟨s.toList, rfl⟩

/-- **A byte list decodes to a text exactly if it is the encoding of that text.** -/
theorem decode?_eq_some_iff {bs : List UInt8} {cs : List Char} :
    decode? bs = some cs ↔ bs = encode cs := by
  constructor
  · intro h
    obtain ⟨ds, rfl⟩ := exists_encode_of_scan bs (none_notMem_of_mapM h)
    rw [decode?_encode] at h
    rw [Option.some.inj h]
  · rintro rfl
    exact decode?_encode cs

theorem decode?_eq_none_iff {bs : List UInt8} : decode? bs = none ↔ ¬ IsText bs := by
  constructor
  · rintro h ⟨cs, hcs⟩
    rw [decode?_eq_some_iff.mpr hcs] at h
    cases h
  · intro h
    cases hbs : decode? bs with
    | none => rfl
    | some cs => exact absurd ⟨cs, decode?_eq_some_iff.mp hbs⟩ h

/-! ### ASCII characters -/

theorem encode_cons_of_lt {c : Char} (h : c.toNat < 128) (cs : List Char) :
    encode (c :: cs) = UInt8.ofNat c.toNat :: encode cs := by
  have hc : String.utf8EncodeChar c = [UInt8.ofNat c.toNat] := by
    have hval : c.val.toNat ≤ 127 := Nat.le_of_lt_succ h
    simp only [String.utf8EncodeChar, if_pos hval]
    rfl
  rw [encode_cons, hc, List.singleton_append]

theorem toNat_ofNat_char {c : Char} (h : c.toNat < 128) : (UInt8.ofNat c.toNat).toNat = c.toNat :=
  UInt8.toNat_ofNat_of_lt' (Nat.lt_trans h (by decide))

/-- The byte of an ASCII character is no other character's. -/
theorem ofNat_toNat_ne {c d : Char} (hc : c.toNat < 128) (hd : d.toNat < 128) (hne : c ≠ d) :
    UInt8.ofNat c.toNat ≠ UInt8.ofNat d.toNat := by
  intro heq
  apply hne
  rw [← Char.ofNat_toNat c, ← Char.ofNat_toNat d, ← toNat_ofNat_char hc, heq, toNat_ofNat_char hd]

/-- An ASCII character that a text lacks is not among its bytes either. -/
theorem ofNat_notMem_encode {c : Char} {cs : List Char} (hc : c.toNat < 128) (h : c ∉ cs) :
    UInt8.ofNat c.toNat ∉ encode cs := by
  intro hmem
  apply h
  have hchar := ofNat_mem_of_mem_encode hmem (by rwa [toNat_ofNat_char hc])
  rwa [toNat_ofNat_char hc, Char.ofNat_toNat] at hchar

end Stocklist.Utf8
