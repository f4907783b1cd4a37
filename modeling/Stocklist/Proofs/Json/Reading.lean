/-
  Stocklist/Proofs/Json/Reading.lean
  ==================================
  **Every text of a value is read as that value.**

  However deep the value is and whatever blanks are in the text, reading gives the value up to
  what is known for the sake of faults only (`Value.plain`), and takes nothing of what follows
  (`Value.Written.read`).  The proof follows the grammar; as the fuel counts values and
  separators, two for each character are enough.
-/
import Mathlib.Tactic
import Stocklist.Proofs.Json.Token

namespace Stocklist.Json

/-! ### Values without what is known for faults only -/

mutual

/-- The value without the text ahead of its brackets, and with all faults alike. -/
def Value.plain : Value → Value
  | .null => .null
  | .bool b => .bool b
  | .number n => .number n
  | .string s => .string s
  | .unreadable _ => .unreadable .any
  | .array _ items => .array [] items.plain
  | .object _ members => .object [] members.plain
  | .broken _ => .broken (.both .any)

def Items.plain : Items → Items
  | .close => .close
  | .broken _ => .broken (.both .any)
  | .cons v rest => .cons v.plain rest.plain

def Members.plain : Members → Members
  | .close => .close
  | .broken _ => .broken (.both .any)
  | .cons name v rest => .cons (plainly name) v.plain rest.plain

end

theorem plain_ofNumber {r r' : Except Fault Number} (h : plainly r' = plainly r) :
    (Value.ofNumber r').plain = (Value.ofNumber r).plain := by
  cases r with
  | ok n =>
    rw [plainly_eq_ok_iff.mp h]
  | error f =>
    obtain ⟨g, rfl⟩ := plainly_eq_error_iff.mp h
    rfl

theorem plain_ofText {r r' : Except Fault String} (h : plainly r' = plainly r) :
    (Value.ofText r').plain = (Value.ofText r).plain := by
  cases r with
  | ok s =>
    rw [plainly_eq_ok_iff.mp h]
  | error f =>
    obtain ⟨g, rfl⟩ := plainly_eq_error_iff.mp h
    rfl

/-! ### Blanks -/

theorem skipBlanks_append {bs : List Char} (h : AllBlank bs) (cs : List Char) :
    skipBlanks (bs ++ cs) = skipBlanks cs := by
  rw [skipBlanks, List.dropWhile_append_of_pos h, skipBlanks]

theorem ValueEnds.skipBlanks_eq {rest : List Char} (h : ValueEnds rest) :
    skipBlanks rest = rest := by
  cases rest with
  | nil => rfl
  | cons c rest =>
    apply skipBlanks_cons
    rcases h c rfl with rfl | rfl | rfl <;> rfl

theorem noNumberAhead_append {bs rest : List Char} (hbs : AllBlank bs) (hrest : ValueEnds rest) :
    NoNumberAhead (bs ++ rest) := by
  cases bs with
  | nil => exact hrest.noNumberAhead
  | cons b bs =>
    intro c hc
    obtain rfl : b = c := Option.some.inj hc
    have hblank := hbs b List.mem_cons_self
    simp only [isBlank, Bool.or_eq_true, decide_eq_true_eq] at hblank
    rcases hblank with ((rfl | rfl) | rfl) | rfl <;> exact ⟨rfl, by decide⟩

/-! ### First characters -/

theorem NumberText.Written.head {t : NumberText} {cs : List Char} (h : t.Written cs) :
    ∃ c tail, cs = c :: tail ∧ c.isDigit := by
  cases h with
  | intro hwhole _ _ _ =>
    obtain ⟨hdigits, -⟩ := map_digit?_eq_iff.mp hwhole.2
    obtain ⟨c, ws, rfl⟩ := List.exists_cons_of_ne_nil hwhole.ne_nil
    exact ⟨c, _, rfl, hdigits c List.mem_cons_self⟩

theorem NumberWritten.head {r : Except Fault Number} {cs : List Char} (h : NumberWritten r cs) :
    ∃ c tail, cs = c :: tail ∧ isBlank c = false ∧ c ≠ ']' := by
  obtain ⟨t, cs, ht, rfl, -⟩ := exists_readNumber h
  obtain ⟨c, tail, rfl, hc⟩ := ht.head
  cases hsign : t.negative with
  | true => exact ⟨'-', _, rfl, rfl, by decide⟩
  | false => exact ⟨c, _, rfl, isBlank_of_isDigit hc, ne_of_isDigit hc rfl⟩

theorem TextWritten.head {r : Except Fault String} {cs : List Char} (h : TextWritten r cs) :
    ∃ tail, cs = '"' :: tail := by
  cases h <;> exact ⟨_, rfl⟩

theorem Value.Written.head {v : Value} {cs : List Char} (h : v.Written cs) :
    ∃ c tail, cs = c :: tail ∧ isBlank c = false ∧ c ≠ ']' := by
  cases h with
  | number h => exact h.head
  | tooLarge h => exact h.head
  | string h =>
    obtain ⟨tail, rfl⟩ := h.head
    exact ⟨'"', tail, rfl, rfl, by decide⟩
  | halfPair h =>
    obtain ⟨tail, rfl⟩ := h.head
    exact ⟨'"', tail, rfl, rfl, by decide⟩
  | _ => exact ⟨_, _, rfl, rfl, by decide⟩

theorem Value.Padded.head {v : Value} {cs : List Char} (h : v.Padded cs) (rest : List Char) :
    ∃ c tail, skipBlanks (cs ++ rest) = c :: tail ∧ c ≠ ']' := by
  obtain ⟨hbs, hv, -⟩ := h
  obtain ⟨c, tail, rfl, hblank, hbracket⟩ := hv.head
  rw [List.append_assoc, skipBlanks_append hbs]
  exact ⟨c, _, skipBlanks_cons hblank _, hbracket⟩

theorem Value.Padded.length_pos {v : Value} {cs : List Char} (h : v.Padded cs) :
    0 < cs.length := by
  obtain ⟨-, hv, -⟩ := h
  obtain ⟨c, tail, rfl, -, -⟩ := hv.head
  simp only [List.length_append, List.length_cons]
  omega

theorem Items.Listed.head {items : Items} {cs : List Char} (h : items.Listed cs)
    (rest : List Char) : ∃ c tail, skipBlanks (cs ++ rest) = c :: tail ∧ c ≠ ']' := by
  cases h with
  | last hv => exact hv.head rest
  | more hv _ =>
    rw [List.append_assoc]
    exact hv.head _

theorem Value.Named.head {name : Except Fault String} {v : Value} {cs : List Char}
    (h : v.Named name cs) (rest : List Char) : ∃ tail, skipBlanks (cs ++ rest) = '"' :: tail := by
  obtain ⟨hbs, hname, -, -⟩ := h
  obtain ⟨tail, rfl⟩ := hname.head
  rw [List.append_assoc, skipBlanks_append hbs]
  exact ⟨_, skipBlanks_cons rfl _⟩

theorem Members.Listed.head {members : Members} {cs : List Char} (h : members.Listed cs)
    (rest : List Char) : ∃ tail, skipBlanks (cs ++ rest) = '"' :: tail := by
  cases h with
  | last hm => exact hm.head rest
  | more hm _ =>
    rw [List.append_assoc]
    exact hm.head _

/-! ### Reading what is written -/

theorem TextWritten.read {r : Except Fault String} {cs : List Char} (h : TextWritten r cs)
    (rest : List Char) (fuel : Nat) :
    ∃ w, readValue (fuel + 1) (cs ++ rest) = (w, some rest) ∧ w.plain = (Value.ofText r).plain := by
  obtain ⟨r', tail, rfl, hread, hplain⟩ := exists_readText h rest
  refine ⟨.ofText r', ?_, plain_ofText hplain⟩
  rw [List.cons_append, readValue]
  simp only [readStringValue, hread]
  cases r' <;> rfl

theorem NumberWritten.read {r : Except Fault Number} {cs rest : List Char}
    (h : NumberWritten r cs) (hrest : NoNumberAhead rest) (fuel : Nat) :
    ∃ w, readValue (fuel + 1) (cs ++ rest) = (w, some rest) ∧
      w.plain = (Value.ofNumber r).plain := by
  obtain ⟨t, cs, ht, rfl, hread⟩ := exists_readNumber h
  obtain ⟨r', hread, hplain⟩ := hread rest hrest
  refine ⟨.ofNumber r', ?_, plain_ofNumber hplain⟩
  cases hsign : t.negative with
  | true =>
    rw [hsign] at hread
    rw [signText, if_pos rfl, List.append_assoc, List.singleton_append, readValue, hread]
  | false =>
    rw [hsign] at hread
    obtain ⟨c, tail, rfl, hc⟩ := ht.head
    rw [signText, if_neg Bool.false_ne_true, List.nil_append, List.cons_append,
      readValue_digit hc, ← List.cons_append, hread]

theorem afterItem_bracket (fuel : Nat) (rest : List Char) :
    afterItem (fuel + 1) (']' :: rest) = (.close, some rest) := by
  rw [afterItem, if_pos rfl]

theorem afterItem_comma (fuel : Nat) {cs : List Char} (h : (skipBlanks cs).head? ≠ some ']') :
    afterItem (fuel + 1) (',' :: cs) = readItem fuel (skipBlanks cs) := by
  rw [afterItem, if_neg (by decide), if_pos rfl]
  exact if_neg h

theorem afterMember_brace (fuel : Nat) (rest : List Char) :
    afterMember (fuel + 1) ('\x7d' :: rest) = (.close, some rest) := by
  rw [afterMember, if_pos rfl]

theorem afterMember_comma (fuel : Nat) {cs : List Char}
    (h : (skipBlanks cs).head? ≠ some '\x7d') :
    afterMember (fuel + 1) (',' :: cs) = readMember fuel (skipBlanks cs) := by
  rw [afterMember, if_neg (by decide), if_pos rfl]
  exact if_neg h

mutual

/-- **A text of a value is read as that value, and no further.** -/
theorem Value.Written.read : ∀ {v : Value} {cs : List Char}, v.Written cs →
    ∀ (rest : List Char) (fuel : Nat), NoNumberAhead rest → 2 * cs.length ≤ fuel + 1 →
      ∃ w, readValue (fuel + 1) (cs ++ rest) = (w, some rest) ∧ w.plain = v.plain
  | _, _, .nullWord, _, _, _, _ => ⟨.null, rfl, rfl⟩
  | _, _, .trueWord, _, _, _, _ => ⟨.bool true, rfl, rfl⟩
  | _, _, .falseWord, _, _, _, _ => ⟨.bool false, rfl, rfl⟩
  | _, _, .number h, _, fuel, hrest, _ => h.read hrest fuel
  | _, _, .tooLarge h, _, fuel, hrest, _ => h.read hrest fuel
  | _, _, .string h, rest, fuel, _, _ => h.read rest fuel
  | _, _, .halfPair h, rest, fuel, _, _ => h.read rest fuel
  | _, _, @Value.Written.emptyArray ahead bs hbs, rest, fuel, _, hfuel => by
    rw [List.length_cons] at hfuel
    obtain ⟨fuel, rfl⟩ : ∃ n, fuel = n + 1 := ⟨fuel - 1, by omega⟩
    refine ⟨.array ('[' :: (bs ++ ']' :: rest)) .close, ?_, rfl⟩
    rw [List.cons_append, List.append_assoc, List.singleton_append, readValue,
      skipBlanks_append hbs, skipBlanks_cons rfl, readItems, if_pos rfl]
  | _, _, @Value.Written.array ahead cs items hitems, rest, fuel, _, hfuel => by
    rw [List.length_cons, List.length_append, List.length_singleton] at hfuel
    obtain ⟨fuel, rfl⟩ : ∃ n, fuel = n + 1 := ⟨fuel - 1, by omega⟩
    obtain ⟨is, hread, hplain⟩ := hitems.read rest fuel (by omega)
    obtain ⟨c, tail, hhead, hbracket⟩ := hitems.head (']' :: rest)
    refine ⟨.array ('[' :: (cs ++ ']' :: rest)) is, ?_, congrArg (Value.array []) hplain⟩
    rw [List.cons_append, List.append_assoc, List.singleton_append, readValue]
    rw [hhead] at hread ⊢
    rw [readItems, if_neg hbracket, hread]
  | _, _, @Value.Written.emptyObject ahead bs hbs, rest, fuel, _, hfuel => by
    rw [List.length_cons] at hfuel
    obtain ⟨fuel, rfl⟩ : ∃ n, fuel = n + 1 := ⟨fuel - 1, by omega⟩
    refine ⟨.object ('\x7b' :: (bs ++ '\x7d' :: rest)) .close, ?_, rfl⟩
    rw [List.cons_append, List.append_assoc, List.singleton_append, readValue,
      skipBlanks_append hbs, skipBlanks_cons rfl, readMembers, if_pos rfl]
  | _, _, @Value.Written.object ahead cs members hmembers, rest, fuel, _, hfuel => by
    rw [List.length_cons, List.length_append, List.length_singleton] at hfuel
    obtain ⟨fuel, rfl⟩ : ∃ n, fuel = n + 1 := ⟨fuel - 1, by omega⟩
    obtain ⟨ms, hread, hplain⟩ := hmembers.read rest fuel (by omega)
    obtain ⟨tail, hhead⟩ := hmembers.head ('\x7d' :: rest)
    refine ⟨.object ('\x7b' :: (cs ++ '\x7d' :: rest)) ms, ?_, congrArg (Value.object []) hplain⟩
    rw [List.cons_append, List.append_assoc, List.singleton_append, readValue]
    rw [hhead] at hread ⊢
    rw [readMembers, if_neg (by decide), hread]

/-- A padded value is read up to the first character after its blanks. -/
theorem Value.Padded.read : ∀ {v : Value} {cs : List Char}, v.Padded cs →
    ∀ (rest : List Char) (fuel : Nat), ValueEnds rest → 2 * cs.length ≤ fuel + 1 →
      ∃ w after, readValue (fuel + 1) (skipBlanks (cs ++ rest)) = (w, some after) ∧
        skipBlanks after = rest ∧ w.plain = v.plain
  | _, _, @Value.Padded.intro _ bs cs es hbs hv hes, rest, fuel, hrest, hfuel => by
    rw [List.length_append, List.length_append] at hfuel
    obtain ⟨w, hread, hplain⟩ := hv.read (es ++ rest) fuel (noNumberAhead_append hes hrest)
      (by omega)
    obtain ⟨c, tail, rfl, hblank, -⟩ := hv.head
    refine ⟨w, es ++ rest, ?_, ?_, hplain⟩
    · rw [List.append_assoc, List.append_assoc, skipBlanks_append hbs, List.cons_append,
        skipBlanks_cons hblank, ← List.cons_append, hread]
    · rw [skipBlanks_append hes, hrest.skipBlanks_eq]

/-- A member is read up to what follows it. -/
theorem Value.Named.read : ∀ {name : Except Fault String} {v : Value} {cs : List Char},
    v.Named name cs → ∀ (rest : List Char) (fuel : Nat), ValueEnds rest → 2 * cs.length ≤ fuel →
      ∃ r w, plainly r = plainly name ∧ w.plain = v.plain ∧
        readMember (fuel + 1) (skipBlanks (cs ++ rest)) =
          let (members, rest) := afterMember fuel rest
          (.cons r w members, rest)
  | _, _, _, @Value.Named.intro _ _ bs key es cs hbs hname hes hv, rest, fuel, hrest, hfuel => by
    obtain ⟨r, tail, rfl, hkey, hplainKey⟩ := exists_readText hname (es ++ ':' :: (cs ++ rest))
    simp only [List.length_append, List.length_cons] at hfuel
    obtain ⟨fuel, rfl⟩ : ∃ n, fuel = n + 2 := ⟨fuel - 2, by omega⟩
    obtain ⟨w, after, hread, hafter, hplain⟩ := hv.read rest fuel hrest (by omega)
    have hvalue : readMemberValue (fuel + 2) (':' :: (cs ++ rest)) = (w, some after) := by
      rw [readMemberValue, if_pos rfl, hread]
    have hcolon : skipBlanks (es ++ ':' :: (cs ++ rest)) = ':' :: (cs ++ rest) := by
      rw [skipBlanks_append hes, skipBlanks_cons rfl]
    refine ⟨r, w, hplainKey, hplain, ?_⟩
    simp only [List.append_assoc, List.cons_append]
    rw [skipBlanks_append hbs, skipBlanks_cons rfl, readMember, if_pos rfl, hkey]
    simp only [hcolon, hvalue, hafter]

theorem Items.Listed.read : ∀ {items : Items} {cs : List Char}, items.Listed cs →
    ∀ (rest : List Char) (fuel : Nat), 2 * cs.length + 1 ≤ fuel →
      ∃ is, readItem fuel (skipBlanks (cs ++ ']' :: rest)) = (is, some rest) ∧
        is.plain = items.plain
  | _, _, @Items.Listed.last v cs hv, rest, fuel, hfuel => by
    have hpos := hv.length_pos
    obtain ⟨fuel, rfl⟩ : ∃ n, fuel = n + 2 := ⟨fuel - 2, by omega⟩
    obtain ⟨w, after, hread, hafter, hplain⟩ := hv.read (']' :: rest) fuel
      (valueEnds_bracket rest) (by omega)
    refine ⟨.cons w .close, ?_, congrArg (Items.cons · .close) hplain⟩
    rw [readItem]
    simp only [hread, hafter, afterItem_bracket]
  | _, _, @Items.Listed.more v items cs ds hv hmore, rest, fuel, hfuel => by
    rw [List.length_append, List.length_cons] at hfuel
    obtain ⟨fuel, rfl⟩ : ∃ n, fuel = n + 2 := ⟨fuel - 2, by omega⟩
    obtain ⟨w, after, hread, hafter, hplain⟩ := hv.read (',' :: (ds ++ ']' :: rest)) fuel
      (valueEnds_comma _) (by omega)
    obtain ⟨is, hmoreRead, hmorePlain⟩ := hmore.read rest fuel (by omega)
    obtain ⟨c, tail, hhead, hbracket⟩ := hmore.head (']' :: rest)
    have hnext : (skipBlanks (ds ++ ']' :: rest)).head? ≠ some ']' := by
      rw [hhead]
      exact fun heq => hbracket (Option.some.inj heq)
    refine ⟨.cons w is, ?_, congrArg₂ Items.cons hplain hmorePlain⟩
    rw [List.append_assoc, List.cons_append, readItem]
    simp only [hread, hafter, afterItem_comma fuel hnext, hmoreRead]

theorem Members.Listed.read : ∀ {members : Members} {cs : List Char}, members.Listed cs →
    ∀ (rest : List Char) (fuel : Nat), 2 * cs.length + 2 ≤ fuel →
      ∃ ms, readMember fuel (skipBlanks (cs ++ '\x7d' :: rest)) = (ms, some rest) ∧
        ms.plain = members.plain
  | _, _, @Members.Listed.last name v cs hm, rest, fuel, hfuel => by
    obtain ⟨fuel, rfl⟩ : ∃ n, fuel = n + 2 := ⟨fuel - 2, by omega⟩
    obtain ⟨r, w, hplainName, hplain, hread⟩ := hm.read ('\x7d' :: rest) (fuel + 1)
      (valueEnds_brace rest) (by omega)
    refine ⟨.cons r w .close, ?_, congrArg₂ (Members.cons · · .close) hplainName hplain⟩
    rw [hread, afterMember_brace]
  | _, _, @Members.Listed.more name v members cs ds hm hmore, rest, fuel, hfuel => by
    rw [List.length_append, List.length_cons] at hfuel
    obtain ⟨fuel, rfl⟩ : ∃ n, fuel = n + 2 := ⟨fuel - 2, by omega⟩
    obtain ⟨r, w, hplainName, hplain, hread⟩ := hm.read (',' :: (ds ++ '\x7d' :: rest)) (fuel + 1)
      (valueEnds_comma _) (by omega)
    obtain ⟨ms, hmoreRead, hmorePlain⟩ := hmore.read rest fuel (by omega)
    obtain ⟨tail, hhead⟩ := hmore.head ('\x7d' :: rest)
    have hnext : (skipBlanks (ds ++ '\x7d' :: rest)).head? ≠ some '\x7d' := by
      rw [hhead, List.head?_cons]
      decide
    refine ⟨.cons r w ms, ?_, ?_⟩
    · rw [List.append_assoc, List.cons_append, hread, afterMember_comma fuel hnext, hmoreRead]
    · rw [Members.plain, Members.plain, hplainName, hplain, hmorePlain]

end

end Stocklist.Json
