/-
  Stocklist/Proofs/Json/Document.lean
  ===================================
  **Nothing but JSON is read to an end.**

  A value that is read without a breach is read to its end, and what has been taken is a text of
  it (`written_of_readValue`).  So a text that is read whole is a JSON text of what is read
  (`writtenIn_of_document`), as every JSON text is read whole (`exists_document_of_writtenIn`).
-/
import Mathlib.Data.List.TakeWhile
import Mathlib.Tactic
import Stocklist.Proofs.Json.Reading

namespace Stocklist.Json

/-! ### What is read is written -/

theorem exists_blanks (cs : List Char) : ∃ bs, AllBlank bs ∧ cs = bs ++ skipBlanks cs := by
  refine ⟨cs.takeWhile isBlank, ?_, ?_⟩
  · exact fun c hc => List.mem_takeWhile_imp hc
  · rw [skipBlanks, List.takeWhile_append_dropWhile]

theorem eq_of_readWord {v w : Value} {ws cs : List Char} {r : Option (List Char)}
    (h : readWord v ws cs = (w, r)) (hwhole : w.looseFault? = none) :
    w = v ∧ ∃ rest, cs = ws ++ rest ∧ r = some rest := by
  induction ws generalizing cs with
  | nil =>
    cases h
    exact ⟨rfl, cs, rfl, rfl⟩
  | cons c ws ih =>
    cases cs with
    | nil =>
      cases h
      cases hwhole
    | cons d cs =>
      rw [readWord] at h
      split_ifs at h with heq
      · obtain ⟨rfl, rest, rfl, rfl⟩ := ih h
        exact ⟨rfl, rest, by rw [heq, List.cons_append], rfl⟩
      · cases h
        cases hwhole

theorem written_of_readStringValue {v : Value} {cs : List Char} {r : Option (List Char)}
    (h : readStringValue cs = (v, r)) (hwhole : v.looseFault? = none) :
    ∃ tail rest, v.Written ('"' :: tail) ∧ cs = tail ++ rest ∧ r = some rest := by
  rw [readStringValue] at h
  split at h
  · next rest hread =>
    cases h
    obtain ⟨tail, hs, hcs⟩ := written_of_readText hread
    exact ⟨tail, rest, .string hs, hcs, rfl⟩
  · next rest hread =>
    cases h
    obtain ⟨tail, hs, hcs⟩ := written_of_readText hread
    exact ⟨tail, rest, .halfPair hs, hcs, rfl⟩
  · cases h
    cases hwhole

theorem AllBlank.append {bs cs : List Char} (hbs : AllBlank bs) (hcs : AllBlank cs) :
    AllBlank (bs ++ cs) := by
  intro c hc
  exact (List.mem_append.mp hc).elim (hbs c) (hcs c)

theorem allBlank_nil : AllBlank [] :=
  List.forall_mem_nil _

theorem Value.Padded.pad {v : Value} {bs cs : List Char} (hbs : AllBlank bs) (h : v.Padded cs) :
    v.Padded (bs ++ cs) := by
  obtain ⟨hbefore, hv, hafter⟩ := h
  rw [← List.append_assoc]
  exact .intro (hbs.append hbefore) hv hafter

theorem Value.Named.pad {name : Except Fault String} {v : Value} {bs cs : List Char}
    (hbs : AllBlank bs) (h : v.Named name cs) : v.Named name (bs ++ cs) := by
  obtain ⟨hbefore, hname, hafter, hv⟩ := h
  rw [← List.append_assoc]
  exact .intro (hbs.append hbefore) hname hafter hv

theorem Items.Listed.pad {items : Items} {bs cs : List Char} (hbs : AllBlank bs)
    (h : items.Listed cs) : items.Listed (bs ++ cs) := by
  cases h with
  | last hv => exact .last (hv.pad hbs)
  | more hv hmore =>
    rw [← List.append_assoc]
    exact .more (hv.pad hbs) hmore

theorem Members.Listed.pad {members : Members} {bs cs : List Char} (hbs : AllBlank bs)
    (h : members.Listed cs) : members.Listed (bs ++ cs) := by
  cases h with
  | last hm => exact .last (hm.pad hbs)
  | more hm hmore =>
    rw [← List.append_assoc]
    exact .more (hm.pad hbs) hmore

mutual

/-- **A value that is read without a breach is read to its end, and what has been taken is a
    text of it.** -/
theorem written_of_readValue : ∀ (fuel : Nat) {cs : List Char} {v : Value}
    {r : Option (List Char)}, readValue fuel cs = (v, r) → v.looseFault? = none →
      ∃ text rest, v.Written text ∧ cs = text ++ rest ∧ r = some rest
  | 0, _, _, _, h, hwhole => by
    rw [readValue] at h
    cases h
    cases hwhole
  | _ + 1, [], _, _, h, hwhole => by
    rw [readValue] at h
    · cases h
      cases hwhole
    · rintro ⟨⟩
  | fuel + 1, c :: cs, v, r, h, hwhole => by
    unfold readValue at h
    split at h
    · obtain ⟨rfl, rest, rfl, rfl⟩ := eq_of_readWord h hwhole
      exact ⟨_, rest, .nullWord, rfl, rfl⟩
    · obtain ⟨rfl, rest, rfl, rfl⟩ := eq_of_readWord h hwhole
      exact ⟨_, rest, .trueWord, rfl, rfl⟩
    · obtain ⟨rfl, rest, rfl, rfl⟩ := eq_of_readWord h hwhole
      exact ⟨_, rest, .falseWord, rfl, rfl⟩
    · obtain ⟨tail, rest, hv, rfl, rfl⟩ := written_of_readStringValue h hwhole
      exact ⟨_, rest, hv, rfl, rfl⟩
    · obtain ⟨ws, rest, hv, rfl, rfl⟩ := written_of_readNumber h hwhole
      exact ⟨_, rest, hv, rfl, rfl⟩
    · rcases hread : readItems fuel (skipBlanks cs) with ⟨items, after⟩
      rw [hread] at h
      cases h
      obtain ⟨bs, hbs, hcs⟩ := exists_blanks cs
      obtain ⟨rest, rfl, ⟨rfl, heq⟩ | ⟨text, htext, heq⟩⟩ := listed_of_readItems fuel hread hwhole
      · exact ⟨_, rest, .emptyArray hbs, by rw [heq] at hcs; simp [hcs], rfl⟩
      · exact ⟨_, rest, .array (htext.pad hbs), by rw [heq] at hcs; simp [hcs], rfl⟩
    · rcases hread : readMembers fuel (skipBlanks cs) with ⟨members, after⟩
      rw [hread] at h
      cases h
      obtain ⟨bs, hbs, hcs⟩ := exists_blanks cs
      obtain ⟨rest, rfl, ⟨rfl, heq⟩ | ⟨text, htext, heq⟩⟩ := listed_of_readMembers fuel hread hwhole
      · exact ⟨_, rest, .emptyObject hbs, by rw [heq] at hcs; simp [hcs], rfl⟩
      · exact ⟨_, rest, .object (htext.pad hbs), by rw [heq] at hcs; simp [hcs], rfl⟩
    · split_ifs at h
      · obtain ⟨ws, rest, hv, hcs, rfl⟩ := written_of_readNumber h hwhole
        exact ⟨ws, rest, hv, hcs, rfl⟩
      · cases h
        cases hwhole

theorem listed_of_readItems : ∀ (fuel : Nat) {cs : List Char} {items : Items}
    {r : Option (List Char)}, readItems fuel cs = (items, r) → items.looseFault? = none →
      ∃ rest, r = some rest ∧ ((items = .close ∧ cs = ']' :: rest) ∨
        ∃ text, items.Listed text ∧ cs = text ++ ']' :: rest)
  | 0, _, _, _, h, hwhole => by
    rw [readItems] at h
    cases h
    cases hwhole
  | _ + 1, [], _, _, h, hwhole => by
    rw [readItems] at h
    · cases h
      cases hwhole
    · rintro ⟨⟩
  | fuel + 1, c :: cs, items, r, h, hwhole => by
    rw [readItems] at h
    split_ifs at h with hc
    · cases h
      exact ⟨cs, rfl, Or.inl ⟨rfl, by rw [hc]⟩⟩
    · obtain ⟨text, rest, htext, heq, rfl⟩ := listed_of_readItem fuel h hwhole
      exact ⟨rest, rfl, Or.inr ⟨text, htext, heq⟩⟩

theorem listed_of_readItem : ∀ (fuel : Nat) {cs : List Char} {items : Items}
    {r : Option (List Char)}, readItem fuel cs = (items, r) → items.looseFault? = none →
      ∃ text rest, items.Listed text ∧ cs = text ++ ']' :: rest ∧ r = some rest
  | 0, _, _, _, h, hwhole => by
    rw [readItem] at h
    cases h
    cases hwhole
  | fuel + 1, cs, items, r, h, hwhole => by
    rw [readItem] at h
    rcases hvalue : readValue fuel cs with ⟨v, _ | after⟩
    · rw [hvalue] at h
      cases h
      obtain ⟨_, _, -, -, hend⟩ :=
        written_of_readValue fuel hvalue (Option.or_eq_none_iff.mp hwhole).1
      cases hend
    · rw [hvalue] at h
      rcases hread : afterItem fuel (skipBlanks after) with ⟨more, last⟩
      simp only [hread] at h
      cases h
      obtain ⟨hv, hmore⟩ := Option.or_eq_none_iff.mp hwhole
      obtain ⟨text, _, hv, rfl, hafter⟩ := written_of_readValue fuel hvalue hv
      cases hafter
      obtain ⟨es, hes, hafter⟩ := exists_blanks after
      have hpadded := Value.Padded.intro allBlank_nil hv hes
      obtain ⟨rest, rfl, ⟨rfl, heq⟩ | ⟨ds, hlisted, heq⟩⟩ := listed_of_afterItem fuel hread hmore
      · exact ⟨_, rest, .last hpadded, by rw [heq] at hafter; simp [hafter], rfl⟩
      · exact ⟨_, rest, .more hpadded hlisted, by rw [heq] at hafter; simp [hafter], rfl⟩

theorem listed_of_afterItem : ∀ (fuel : Nat) {cs : List Char} {items : Items}
    {r : Option (List Char)}, afterItem fuel cs = (items, r) → items.looseFault? = none →
      ∃ rest, r = some rest ∧ ((items = .close ∧ cs = ']' :: rest) ∨
        ∃ text, items.Listed text ∧ cs = ',' :: (text ++ ']' :: rest))
  | 0, _, _, _, h, hwhole => by
    rw [afterItem] at h
    cases h
    cases hwhole
  | _ + 1, [], _, _, h, hwhole => by
    rw [afterItem] at h
    · cases h
      cases hwhole
    · rintro ⟨⟩
  | fuel + 1, c :: cs, items, r, h, hwhole => by
    rw [afterItem] at h
    dsimp only at h
    split_ifs at h with hbracket hcomma hnext
    · cases h
      exact ⟨cs, rfl, Or.inl ⟨rfl, by rw [hbracket]⟩⟩
    · cases h
      cases hwhole
    · obtain ⟨text, rest, htext, heq, rfl⟩ := listed_of_readItem fuel h hwhole
      obtain ⟨bs, hbs, hcs⟩ := exists_blanks cs
      refine ⟨rest, rfl, Or.inr ⟨bs ++ text, htext.pad hbs, ?_⟩⟩
      rw [hcomma, hcs, heq, List.append_assoc]
    · cases h
      cases hwhole

theorem listed_of_readMembers : ∀ (fuel : Nat) {cs : List Char} {members : Members}
    {r : Option (List Char)}, readMembers fuel cs = (members, r) → members.looseFault? = none →
      ∃ rest, r = some rest ∧ ((members = .close ∧ cs = '\x7d' :: rest) ∨
        ∃ text, members.Listed text ∧ cs = text ++ '\x7d' :: rest)
  | 0, _, _, _, h, hwhole => by
    rw [readMembers] at h
    cases h
    cases hwhole
  | _ + 1, [], _, _, h, hwhole => by
    rw [readMembers] at h
    · cases h
      cases hwhole
    · rintro ⟨⟩
  | fuel + 1, c :: cs, members, r, h, hwhole => by
    rw [readMembers] at h
    split_ifs at h with hc
    · cases h
      exact ⟨cs, rfl, Or.inl ⟨rfl, by rw [hc]⟩⟩
    · obtain ⟨text, rest, htext, heq, rfl⟩ := listed_of_readMember fuel h hwhole
      exact ⟨rest, rfl, Or.inr ⟨text, htext, heq⟩⟩

theorem listed_of_readMember : ∀ (fuel : Nat) {cs : List Char} {members : Members}
    {r : Option (List Char)}, readMember fuel cs = (members, r) → members.looseFault? = none →
      ∃ text rest, members.Listed text ∧ cs = text ++ '\x7d' :: rest ∧ r = some rest
  | 0, _, _, _, h, hwhole => by
    rw [readMember] at h
    cases h
    cases hwhole
  | _ + 1, [], _, _, h, hwhole => by
    rw [readMember] at h
    · cases h
      cases hwhole
    · rintro ⟨⟩
  | fuel + 1, c :: cs, members, r, h, hwhole => by
    rw [readMember] at h
    split_ifs at h with hc
    · split at h
      · cases h
        cases hwhole
      · next name afterName hname =>
        obtain ⟨key, hkey, rfl⟩ := written_of_readText hname
        obtain ⟨bs, hbs, hcolon⟩ := exists_blanks afterName
        rcases hvalue : readMemberValue fuel (skipBlanks afterName) with ⟨v, _ | after⟩
        · rw [hvalue] at h
          cases h
          obtain ⟨_, _, _, -, -, -, hend⟩ :=
            written_of_readMemberValue fuel hvalue (Option.or_eq_none_iff.mp hwhole).1
          cases hend
        · rw [hvalue] at h
          rcases hread : afterMember fuel (skipBlanks after) with ⟨more, last⟩
          simp only [hread] at h
          cases h
          obtain ⟨hv, hmore⟩ := Option.or_eq_none_iff.mp hwhole
          obtain ⟨cs, text, _, hcs, hv, heq, hafter⟩ := written_of_readMemberValue fuel hvalue hv
          cases hafter
          obtain ⟨es, hes, hafter⟩ := exists_blanks after
          have hnamed := Value.Named.intro allBlank_nil hkey hbs (.intro hcs hv hes)
          rw [heq] at hcolon
          obtain ⟨rest, rfl, ⟨rfl, heq⟩ | ⟨ds, hlisted, heq⟩⟩ :=
            listed_of_afterMember fuel hread hmore
          · exact ⟨_, rest, .last hnamed, by rw [heq] at hafter; simp [hc, hcolon, hafter], rfl⟩
          · exact ⟨_, rest, .more hnamed hlisted,
              by rw [heq] at hafter; simp [hc, hcolon, hafter], rfl⟩
    · cases h
      cases hwhole

theorem written_of_readMemberValue : ∀ (fuel : Nat) {cs : List Char} {v : Value}
    {r : Option (List Char)}, readMemberValue fuel cs = (v, r) → v.looseFault? = none →
      ∃ bs text rest, AllBlank bs ∧ v.Written text ∧ cs = ':' :: (bs ++ (text ++ rest)) ∧
        r = some rest
  | 0, _, _, _, h, hwhole => by
    rw [readMemberValue] at h
    cases h
    cases hwhole
  | _ + 1, [], _, _, h, hwhole => by
    rw [readMemberValue] at h
    · cases h
      cases hwhole
    · rintro ⟨⟩
  | fuel + 1, c :: cs, v, r, h, hwhole => by
    rw [readMemberValue] at h
    split_ifs at h with hc
    · obtain ⟨text, rest, hv, heq, rfl⟩ := written_of_readValue fuel h hwhole
      obtain ⟨bs, hbs, hcs⟩ := exists_blanks cs
      exact ⟨bs, text, rest, hbs, hv, by rw [hc, hcs, heq], rfl⟩
    · cases h
      cases hwhole

theorem listed_of_afterMember : ∀ (fuel : Nat) {cs : List Char} {members : Members}
    {r : Option (List Char)}, afterMember fuel cs = (members, r) → members.looseFault? = none →
      ∃ rest, r = some rest ∧ ((members = .close ∧ cs = '\x7d' :: rest) ∨
        ∃ text, members.Listed text ∧ cs = ',' :: (text ++ '\x7d' :: rest))
  | 0, _, _, _, h, hwhole => by
    rw [afterMember] at h
    cases h
    cases hwhole
  | _ + 1, [], _, _, h, hwhole => by
    rw [afterMember] at h
    · cases h
      cases hwhole
    · rintro ⟨⟩
  | fuel + 1, c :: cs, members, r, h, hwhole => by
    rw [afterMember] at h
    dsimp only at h
    split_ifs at h with hbrace hcomma hnext
    · cases h
      exact ⟨cs, rfl, Or.inl ⟨rfl, by rw [hbrace]⟩⟩
    · cases h
      cases hwhole
    · obtain ⟨text, rest, htext, heq, rfl⟩ := listed_of_readMember fuel h hwhole
      obtain ⟨bs, hbs, hcs⟩ := exists_blanks cs
      refine ⟨rest, rfl, Or.inr ⟨bs ++ text, htext.pad hbs, ?_⟩⟩
      rw [hcomma, hcs, heq, List.append_assoc]
    · cases h
      cases hwhole

end

/-! ### What is written is whole -/

mutual

/-- No text of a value has a breach in it. -/
theorem Value.Written.looseFault?_eq : ∀ {v : Value} {cs : List Char}, v.Written cs →
    v.looseFault? = none
  | _, _, .nullWord | _, _, .trueWord | _, _, .falseWord | _, _, .number _ | _, _, .tooLarge _
  | _, _, .string _ | _, _, .halfPair _ => rfl
  | _, _, .emptyArray _ => rfl
  | _, _, .array h => h.looseFault?_eq
  | _, _, .emptyObject _ => rfl
  | _, _, .object h => h.looseFault?_eq

theorem Value.Padded.looseFault?_eq : ∀ {v : Value} {cs : List Char}, v.Padded cs →
    v.looseFault? = none
  | _, _, .intro _ h _ => h.looseFault?_eq

theorem Value.Named.looseFault?_eq : ∀ {name : Except Fault String} {v : Value} {cs : List Char},
    v.Named name cs → v.looseFault? = none
  | _, _, _, .intro _ _ _ h => h.looseFault?_eq

theorem Items.Listed.looseFault?_eq : ∀ {items : Items} {cs : List Char}, items.Listed cs →
    items.looseFault? = none
  | _, _, .last h => by rw [Items.looseFault?, h.looseFault?_eq]; rfl
  | _, _, .more h hmore => by
    rw [Items.looseFault?, h.looseFault?_eq, hmore.looseFault?_eq]
    rfl

theorem Members.Listed.looseFault?_eq : ∀ {members : Members} {cs : List Char},
    members.Listed cs → members.looseFault? = none
  | _, _, .last h => by rw [Members.looseFault?, h.looseFault?_eq]; rfl
  | _, _, .more h hmore => by
    rw [Members.looseFault?, h.looseFault?_eq, hmore.looseFault?_eq]
    rfl

end

/-! ### Documents -/

/-- **Every JSON text of a value is read whole, as that value.** -/
theorem exists_document_of_writtenIn {v : Value} {text : String} (h : v.WrittenIn text) :
    ∃ w, Document.ofText text.toList = ⟨w, none⟩ ∧ w.plain = v.plain := by
  obtain ⟨w, after, hread, hafter, hplain⟩ :=
    Value.Padded.read h [] (4 * text.toList.length + 3) valueEnds_nil (by omega)
  rw [List.append_nil] at hread
  exact ⟨w, by simp only [Document.ofText, hread, hafter], hplain⟩

/-- **What is read whole is a JSON text of what is read.** -/
theorem writtenIn_of_document {v : Value} {text : String}
    (h : Document.ofText text.toList = ⟨v, none⟩) (hwhole : v.looseFault? = none) :
    v.WrittenIn text := by
  rw [Document.ofText] at h
  split at h
  · next w hread =>
    cases h
    obtain ⟨_, _, -, -, hend⟩ := written_of_readValue _ hread hwhole
    cases hend
  · next w after hread =>
    split at h
    · next hblank =>
      cases h
      obtain ⟨core, _, hw, hcore, hend⟩ := written_of_readValue _ hread hwhole
      cases hend
      obtain ⟨bs, hbs, htext⟩ := exists_blanks text.toList
      obtain ⟨es, hes, hafter⟩ := exists_blanks after
      rw [hblank, List.append_nil] at hafter
      rw [Value.WrittenIn, htext, hcore, hafter]
      exact .intro hbs hw hes
    · cases h

end Stocklist.Json
