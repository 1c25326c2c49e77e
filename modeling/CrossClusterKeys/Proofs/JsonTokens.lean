import CrossClusterKeys.Proofs.JsonNumbers

/-!
# Documents without items and members

What the reader makes of a text, a word or a number that stands where a document may be.

**Results.**
* `readText_iff`: what is read behind a quote is what the grammar has there.
* `readValue_outcome_head`: where no list and no object is opened, what is read is a document of the
  grammar without items and members.
* `readValue_atom`, `readValue_longNumber`: such a document is read, and a number with too many
  digits refused, wherever a document is expected.
-/

namespace CrossClusterKeys
namespace Json

section Quotes

theorem map_eq_ok {α β : Type} {x : Except Refusal α} {f : α → β} {b : β} (h : x.map f = .ok b) :
    ∃ a, x = .ok a ∧ f a = b := by
  cases x with
  | error e => cases h
  | ok a => exact ⟨a, rfl, Except.ok.inj h⟩

theorem map_eq_error {α β : Type} {x : Except Refusal α} {f : α → β} {r : Refusal}
    (h : x.map f = .error r) : x = .error r := by
  cases x with
  | error e => exact congrArg Except.error (Except.error.inj h)
  | ok a => cases h

theorem signs_of_readSigns {t : Text} {ss : List Sign} {rest : Text}
    (h : readSigns t = .ok (ss, rest)) : Signs t ss rest := by
  fun_induction readSigns t generalizing ss with
  | case1 => cases h
  | case2 =>
    cases h
    exact .close
  | case3 => cases h
  | case4 a b c d t n hn hne hq ih =>
    obtain ⟨p, hp, heq⟩ := map_eq_ok h
    cases heq
    exact .unit hn (ih hp)
  | case5 => cases h
  | case6 => cases h
  | case7 e t hu c he hq ih =>
    obtain ⟨p, hp, heq⟩ := map_eq_ok h
    cases heq
    exact .escaped he (ih hp)
  | case8 => cases h
  | case9 => cases h
  | case10 c t hquote hslash hlow ih =>
    obtain ⟨p, hp, heq⟩ := map_eq_ok h
    cases heq
    exact .plain hquote hslash (Nat.le_of_not_lt hlow) (ih hp)

theorem flaw_of_readSigns {t : Text} {r : Refusal} (h : readSigns t = .error r) :
    ∃ flaw, r = .malformed flaw := by
  fun_induction readSigns t with
  | case1 | case3 | case5 | case6 | case8 | case9 =>
    cases h
    exact ⟨_, rfl⟩
  | case2 => cases h
  | case4 _ _ _ _ _ _ _ _ _ ih => exact ih (map_eq_error h)
  | case7 _ _ _ _ _ _ ih => exact ih (map_eq_error h)
  | case10 _ _ _ _ _ ih => exact ih (map_eq_error h)

theorem readSigns_of_signs {t : Text} {ss : List Sign} {rest : Text} (h : Signs t ss rest) :
    readSigns t = .ok (ss, rest) := by
  have hslash' : ¬ CodePoint.ofChar '\\' = CodePoint.ofChar '"' := by decide
  induction h with
  | close =>
    rw [readSigns.eq_def]
    rfl
  | @plain c t ss rest hquote hslash hlow h ih =>
    rw [readSigns.eq_def]
    simp only [if_neg hquote, if_neg hslash, if_neg (Nat.not_lt.2 hlow), ih]
    rfl
  | @escaped e c t ss rest he h ih =>
    have hne : e ≠ 'u' := by
      rintro rfl
      cases he
    rw [readSigns_letter hne he, ih]
    rfl
  | @unit a b c d n t ss rest hn h ih =>
    have hempty : t.isEmpty = false := by cases h <;> rfl
    rw [readSigns, if_neg hslash', if_pos rfl]
    simp only [if_true, hempty, hn, ih]
    rfl

/-- What is read behind a quote is what the grammar has there. -/
theorem readText_iff {t k rest : Text} :
    readText t = .ok (k, rest) ↔ Quoted (CodePoint.ofChar '"' :: t) k rest := by
  constructor
  · intro h
    obtain ⟨⟨ss, u⟩, hread, heq⟩ := map_eq_ok h
    cases heq
    exact .intro (signs_of_readSigns hread)
  · rintro ⟨h⟩
    rw [readText, readSigns_of_signs h]
    rfl

theorem flaw_of_readText {t : Text} {r : Refusal} (h : readText t = .error r) :
    ∃ flaw, r = .malformed flaw :=
  flaw_of_readSigns (map_eq_error h)

end Quotes

section Words

theorem mem_words_of_readWord? {t : Text} {p : Json × Text} (h : readWord? t = some p) :
    ∃ w, (w, p.1) ∈ words ∧ t = w ++ p.2 := by
  obtain ⟨⟨w, i⟩, hw, hread⟩ := List.exists_of_findSome?_eq_some h
  obtain ⟨u, hafter, heq⟩ := Option.map_eq_some_iff.1 hread
  cases heq
  exact ⟨w, hw, Text.eq_append_of_after? hafter⟩

theorem readWord?_of_mem {w : Text} {j : Json} (h : (w, j) ∈ words) (rest : Text) :
    readWord? (w ++ rest) = some (j, rest) := by
  simp only [words, List.mem_cons, Prod.mk.injEq, List.not_mem_nil, or_false] at h
  rcases h with ⟨rfl, rfl⟩ | ⟨rfl, rfl⟩ | ⟨rfl, rfl⟩ | ⟨rfl, rfl⟩ | ⟨rfl, rfl⟩ | ⟨rfl, rfl⟩
  all_goals simp +decide [readWord?, words, Text.after?, Text.ofString]

/-- A word starts like no list, no object, no text and no number. -/
theorem exists_cons_of_mem_words {w : Text} {j : Json} (h : (w, j) ∈ words) :
    ∃ c d t, w = c :: d :: t ∧ c ≠ '"' ∧ c ≠ '[' ∧ c ≠ '\x7b' ∧ c.isDigit = false ∧
      d.isDigit = false := by
  simp only [words, List.mem_cons, Prod.mk.injEq, List.not_mem_nil, or_false] at h
  rcases h with ⟨rfl, -⟩ | ⟨rfl, -⟩ | ⟨rfl, -⟩ | ⟨rfl, -⟩ | ⟨rfl, -⟩ | ⟨rfl, -⟩
  all_goals exact ⟨_, _, _, rfl, by decide, by decide, by decide, by decide, by decide⟩

/-- What starts with a number is no word. -/
theorem readWord?_eq_none {s t : Text} {negative : Bool} {d : CodePoint}
    (hs : NumberSign s negative) (hd : d.isDigit = true) : readWord? (s ++ d :: t) = none := by
  refine Option.eq_none_iff_forall_ne_some.2 fun p hp => ?_
  obtain ⟨w, hw, ht⟩ := mem_words_of_readWord? hp
  obtain ⟨c, e, u, rfl, -, -, -, hc, he⟩ := exists_cons_of_mem_words hw
  cases hs with
  | none => exact ne_of_isDigit hd hc (List.cons.inj ht).1
  | minus => exact ne_of_isDigit hd he (List.cons.inj (List.cons.inj ht).2).1

end Words

section Atoms

variable {fuel depth : Nat} {t rest : Text} {j : Json} {r : Refusal}

theorem readValue_text {k : Text} (h : Quoted t k rest) :
    readValue (fuel + 1) depth t = .ok (.text k, rest) := by
  obtain ⟨hs⟩ := h
  rw [readValue.eq_def]
  simp only [if_true, readText_iff.2 (.intro hs)]
  rfl

theorem readValue_number {c : CodePoint} (hq : c ≠ '"') (hl : c ≠ '[') (ho : c ≠ '\x7b')
    (h : readWord? (c :: t) = none) :
    readValue (fuel + 1) depth (c :: t) = readNumber (c :: t) := by
  rw [readValue.eq_def]
  simp only [if_neg hq, if_neg hl, if_neg ho, h]

theorem readValue_sign {s : Text} {negative : Bool} {d : CodePoint} (hs : NumberSign s negative)
    (hd : d.isDigit = true) :
    readValue (fuel + 1) depth (s ++ d :: t) = readNumber (s ++ d :: t) := by
  have hword := readWord?_eq_none (t := t) hs hd
  cases hs with
  | none =>
    exact readValue_number (ne_of_isDigit hd (by decide)) (ne_of_isDigit hd (by decide))
      (ne_of_isDigit hd (by decide)) hword
  | minus => exact readValue_number (by decide) (by decide) (by decide) hword

/-- A document without items and members is read wherever one is expected. -/
theorem readValue_atom (h : Atom digitLimit t j rest) (hrest : Ends rest) :
    readValue (fuel + 1) depth t = .ok (j, rest) := by
  cases h with
  | text h => exact readValue_text h
  | word h =>
    obtain ⟨c, d, u, hw, hq, hl, ho, -⟩ := exists_cons_of_mem_words h
    exact readValue_word fuel depth ⟨c, d :: u, hw, hq, hl, ho⟩ (readWord?_of_mem h rest)
  | number hs h =>
    rw [← readNumber_of_unsigned hs h hrest]
    obtain ⟨d, n', rfl, hd⟩ := h.exists_cons
    exact readValue_sign hs hd

theorem readValue_longNumber (h : LongNumber digitLimit t r) :
    readValue (fuel + 1) depth t = .error r := by
  rw [← readNumber_of_longNumber h]
  obtain ⟨hs, hds, -, -⟩ := h
  obtain ⟨d, ds', rfl, hd⟩ := hds.isDigits.exists_cons
  exact readValue_sign hs hd

/-- Where no list and no object is opened, what is read has neither items nor members. -/
theorem readValue_outcome_head {c : CodePoint} (hl : c ≠ '[') (ho : c ≠ '\x7b') :
    Outcome (Atom digitLimit (c :: t)) (LongNumber digitLimit (c :: t))
      (readValue (fuel + 1) depth (c :: t)) := by
  by_cases hq : c = '"'
  · subst hq
    cases hread : readText t with
    | ok p =>
      have h := readText_iff.1 hread
      rw [readValue_text h]
      exact .read (.text h)
    | error r =>
      obtain ⟨flaw, rfl⟩ := flaw_of_readText hread
      rw [readValue.eq_def]
      simp only [if_true, hread]
      exact .malformed flaw
  · cases hword : readWord? (c :: t) with
    | some p =>
      obtain ⟨w, hw, ht⟩ := mem_words_of_readWord? hword
      rw [readValue.eq_def]
      simp only [if_neg hq, if_neg hl, if_neg ho, hword]
      exact .read (ht ▸ .word hw)
    | none =>
      rw [readValue_number hq hl ho hword]
      exact readNumber_outcome (c :: t)

/-- Nothing starts with the code point. -/
def StartsNothing (c : CodePoint) : Prop :=
  c ≠ '"' ∧ c ≠ '[' ∧ c ≠ '\x7b' ∧ c ≠ '-' ∧ c.isDigit = false ∧
    ∀ w ∈ words, w.1.head? ≠ some c

instance (c : CodePoint) : Decidable (StartsNothing c) := inferInstanceAs (Decidable (_ ∧ _))

theorem readValue_eq_malformed {c : CodePoint} (h : StartsNothing c) :
    readValue (fuel + 1) depth (c :: t) = .error (.malformed .value) := by
  obtain ⟨hq, hl, ho, hminus, hdigit, hwords⟩ := h
  have hword : readWord? (c :: t) = none := by
    refine Option.eq_none_iff_forall_ne_some.2 fun p hp => ?_
    obtain ⟨w, hw, ht⟩ := mem_words_of_readWord? hp
    obtain ⟨d, e, u, rfl, -⟩ := exists_cons_of_mem_words hw
    exact hwords _ hw (congrArg some (List.cons.inj ht).1.symm)
  rw [readValue_number hq hl ho hword]
  exact readNumber_eq_malformed hminus hdigit t

end Atoms

end Json
end CrossClusterKeys
