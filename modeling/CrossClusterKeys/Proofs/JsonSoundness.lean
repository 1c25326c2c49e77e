import CrossClusterKeys.Proofs.JsonTokens

/-!
# What is read is a document

Whatever the reader takes for a document is one within the limits, and whatever it refuses is
malformed or overruns them.

**Proof shape.**  Lists and objects of a level hold documents of the level below, so the induction
is on the number of levels.  At a level, items and members are given a relation for what may stand
inside, of which nothing is known but that the reader keeps to it; their own induction is on the
fuel.  To run out of fuel looks like a flaw, so that nothing need be known of it.

**Results.**
* `readMoreItems_outcome`, `readMoreMembers_outcome`: the reader keeps to the grammar behind each
  sign of a list and of an object.
* `readValue_outcome`: so it does at every level.
-/

namespace CrossClusterKeys
namespace Json

/-- A text starts with the code point or with none that is equal to it. -/
theorem starts_or (t : Text) (a : CodePoint) :
    (∃ u, t = a :: u) ∨ ∀ c u, t = c :: u → c ≠ a := by
  cases t with
  | nil => exact Or.inr fun c u h => nomatch h
  | cons d t =>
    by_cases hd : d = a
    · exact Or.inl ⟨t, hd ▸ rfl⟩
    · exact Or.inr fun c u h => (List.cons.inj h).1 ▸ hd

section Equations

variable {fuel depth : Nat} {t u k v w : Text} {j : Json} {r : Refusal}

theorem readValue_zero : readValue 0 depth t = .error (.malformed .value) := by
  rw [readValue.eq_def]

theorem readMoreItems_zero : readMoreItems 0 depth t = .error (.malformed .value) := by
  rw [readMoreItems.eq_def]

theorem readMoreMembers_zero : readMoreMembers 0 depth t = .error (.malformed .value) := by
  rw [readMoreMembers.eq_def]

theorem readValue_list_zero :
    readValue (fuel + 1) 0 (CodePoint.ofChar '[' :: t) = .error (.tooDeep .list) := by
  have hq : ¬ CodePoint.ofChar '[' = CodePoint.ofChar '"' := by decide
  rw [readValue.eq_def]
  simp only [if_neg hq, if_true]

theorem readValue_object_zero :
    readValue (fuel + 1) 0 (CodePoint.ofChar '\x7b' :: t) = .error (.tooDeep .object) := by
  have hq : ¬ CodePoint.ofChar '\x7b' = CodePoint.ofChar '"' := by decide
  have hl : ¬ CodePoint.ofChar '\x7b' = CodePoint.ofChar '[' := by decide
  rw [readValue.eq_def]
  simp only [if_neg hq, if_neg hl, if_true]

theorem readMoreItems_error (h : readValue fuel depth t = .error r) :
    readMoreItems (fuel + 1) depth t = .error r := by
  rw [readMoreItems.eq_def]
  simp only [h, bind, Except.bind]

theorem readMoreItems_stray (h : readValue fuel depth t = .ok (j, u))
    (hclose : ∀ c v, skipGap u = c :: v → c ≠ ']') (hcomma : ∀ c v, skipGap u = c :: v → c ≠ ',') :
    readMoreItems (fuel + 1) depth t = .error (.malformed .comma) := by
  rw [readMoreItems.eq_def]
  simp only [h, bind, Except.bind]
  cases hgap : skipGap u with
  | nil => rfl
  | cons c v => simp only [if_neg (hclose c v hgap), if_neg (hcomma c v hgap)]

theorem readMoreMembers_value_error (hk : readText t = .ok (k, u))
    (hu : skipGap u = CodePoint.ofChar ':' :: v)
    (h : readValue fuel depth (skipGap v) = .error r) :
    readMoreMembers (fuel + 1) depth (CodePoint.ofChar '"' :: t) = .error r := by
  rw [readMoreMembers.eq_def]
  simp only [if_true, hk, h, bind, Except.bind, hu]

theorem readMoreMembers_stray (hk : readText t = .ok (k, u))
    (hu : skipGap u = CodePoint.ofChar ':' :: v)
    (h : readValue fuel depth (skipGap v) = .ok (j, w))
    (hclose : ∀ c x, skipGap w = c :: x → c ≠ '\x7d')
    (hcomma : ∀ c x, skipGap w = c :: x → c ≠ ',') :
    readMoreMembers (fuel + 1) depth (CodePoint.ofChar '"' :: t) =
      .error (.malformed .comma) := by
  rw [readMoreMembers.eq_def]
  simp only [if_true, hk, h, bind, Except.bind, hu]
  cases hgap : skipGap w with
  | nil => rfl
  | cons c x => simp only [if_neg (hclose c x hgap), if_neg (hcomma c x hgap)]

theorem readMoreMembers_key_error (h : readText t = .error r) :
    readMoreMembers (fuel + 1) depth (CodePoint.ofChar '"' :: t) = .error r := by
  rw [readMoreMembers.eq_def]
  simp only [if_true, h, bind, Except.bind]

theorem readMoreMembers_no_colon (hk : readText t = .ok (k, u))
    (hu : ∀ c v, skipGap u = c :: v → c ≠ ':') :
    readMoreMembers (fuel + 1) depth (CodePoint.ofChar '"' :: t) =
      .error (.malformed .colon) := by
  rw [readMoreMembers.eq_def]
  simp only [if_true, hk, bind, Except.bind]
  cases hgap : skipGap u with
  | nil => rfl
  | cons c v => simp only [if_neg (hu c v hgap)]

theorem readMoreMembers_no_quote (fuel depth : Nat) (ht : ∀ c u, t = c :: u → c ≠ '"') :
    ∃ flaw, readMoreMembers fuel depth t = .error (.malformed flaw) := by
  cases fuel with
  | zero => exact ⟨_, readMoreMembers_zero⟩
  | succ fuel =>
    rw [readMoreMembers.eq_def]
    cases t with
    | nil => exact ⟨_, rfl⟩
    | cons c u => exact ⟨_, if_neg (ht c u rfl)⟩

theorem readItems_more (h : ∀ c u, t = c :: u → c ≠ ']') :
    readItems (fuel + 1) depth t = readMoreItems fuel depth t := by
  cases t with
  | nil =>
    rw [readItems.eq_def]
    rfl
  | cons c u => exact readItems_open (h c u rfl)

theorem readMembers_more (h : ∀ c u, t = c :: u → c ≠ '\x7d') :
    readMembers (fuel + 1) depth t = readMoreMembers fuel depth t := by
  cases t with
  | nil =>
    rw [readMembers.eq_def]
    rfl
  | cons c u => exact readMembers_open (h c u rfl)

/-- A list whose items are read, or refused for no flaw, is not closed at once. -/
theorem readItems_of_more (h : ∀ flaw, readMoreItems fuel depth t ≠ .error (.malformed flaw)) :
    readItems (fuel + 1) depth t = readMoreItems fuel depth t := by
  -- A closing bracket is no item: behind it nothing but a flaw would have been found.
  refine readItems_more ?_
  rintro c u rfl rfl
  cases fuel with
  | zero => exact h _ readMoreItems_zero
  | succ fuel =>
    refine h .value (readMoreItems_error ?_)
    cases fuel with
    | zero => exact readValue_zero
    | succ fuel => exact readValue_eq_malformed (by decide)

/-- An object whose members are read, or refused for no flaw, is not closed at once. -/
theorem readMembers_of_more
    (h : ∀ flaw, readMoreMembers fuel depth t ≠ .error (.malformed flaw)) :
    readMembers (fuel + 1) depth t = readMoreMembers fuel depth t := by
  refine readMembers_more ?_
  rintro c u rfl rfl
  obtain ⟨flaw, hflaw⟩ := readMoreMembers_no_quote (t := CodePoint.ofChar '\x7d' :: u) fuel depth
    fun c v hc => (List.cons.inj hc).1 ▸ by decide
  exact h flaw hflaw

end Equations

section Soundness

variable {P : Text → Json → Text → Prop} {Q : Text → Refusal → Prop} {depth : Nat}

theorem readMoreItems_outcome (h : ∀ fuel t, Outcome (P t) (Q t) (readValue fuel depth t))
    (fuel : Nat) (t : Text) :
    Outcome (Items P t) (ItemsOverrun P Q t) (readMoreItems fuel depth t) := by
  induction fuel generalizing t with
  | zero =>
    rw [readMoreItems_zero]
    exact .malformed _
  | succ fuel ih =>
    have hvalue := h fuel t
    cases hread : readValue fuel depth t with
    | error r =>
      rw [readMoreItems_error hread]
      exact (hread ▸ hvalue).of_error .here
    | ok p =>
      obtain ⟨j, u⟩ := p
      have hj : P t j u := (hread ▸ hvalue).of_ok
      rcases starts_or (skipGap u) ']' with ⟨rest, hu⟩ | hclose
      · rw [readMoreItems_last hread hu]
        exact .read (.last hj hu)
      rcases starts_or (skipGap u) ',' with ⟨v, hu⟩ | hcomma
      · rw [readMoreItems_next hread hu]
        exact (ih (skipGap v)).map _ (fun js rest hmore => .next hj hu hmore)
          fun r hr => .later hj hu hr
      · rw [readMoreItems_stray hread hclose hcomma]
        exact .malformed _

theorem readMoreMembers_outcome (h : ∀ fuel t, Outcome (P t) (Q t) (readValue fuel depth t))
    (fuel : Nat) (t : Text) :
    Outcome (Members P t) (MembersOverrun P Q t) (readMoreMembers fuel depth t) := by
  induction fuel generalizing t with
  | zero =>
    rw [readMoreMembers_zero]
    exact .malformed _
  | succ fuel ih =>
    rcases starts_or t '"' with ⟨t, rfl⟩ | hquote
    · cases hkey : readText t with
      | error r =>
        obtain ⟨flaw, rfl⟩ := flaw_of_readText hkey
        rw [readMoreMembers_key_error hkey]
        exact .malformed flaw
      | ok p =>
        obtain ⟨k, u⟩ := p
        have hk := readText_iff.1 hkey
        rcases starts_or (skipGap u) ':' with ⟨v, hu⟩ | hcolon
        · have hvalue := h fuel (skipGap v)
          cases hread : readValue fuel depth (skipGap v) with
          | error r =>
            rw [readMoreMembers_value_error hkey hu hread]
            exact (hread ▸ hvalue).of_error (.here hk hu)
          | ok p =>
            obtain ⟨j, w⟩ := p
            have hj : P (skipGap v) j w := (hread ▸ hvalue).of_ok
            rcases starts_or (skipGap w) '\x7d' with ⟨rest, hw⟩ | hclose
            · rw [readMoreMembers_last hkey hu hread hw]
              exact .read (.last hk hu hj hw)
            rcases starts_or (skipGap w) ',' with ⟨x, hw⟩ | hcomma
            · rw [readMoreMembers_next hkey hu hread hw]
              exact (ih (skipGap x)).map _ (fun ms rest hmore => .next hk hu hj hw hmore)
                fun r hr => .later hk hu hj hw hr
            · rw [readMoreMembers_stray hkey hu hread hclose hcomma]
              exact .malformed _
        · rw [readMoreMembers_no_colon hkey hcolon]
          exact .malformed _
    · obtain ⟨flaw, hflaw⟩ := readMoreMembers_no_quote (fuel + 1) depth hquote
      rw [hflaw]
      exact .malformed flaw

/-- What is read in a list makes a list with the bracket in front of it. -/
theorem readItems_outcome (h : ∀ fuel t, Outcome (P t) (Q t) (readValue fuel depth t))
    (fuel : Nat) (t : Text) :
    Outcome (fun js rest => Nested P (CodePoint.ofChar '[' :: t) (.list js) rest)
      (NestedOverrun P Q (CodePoint.ofChar '[' :: t)) (readItems fuel depth (skipGap t)) := by
  cases fuel with
  | zero =>
    rw [readItems.eq_def]
    exact .malformed _
  | succ fuel =>
    rcases starts_or (skipGap t) ']' with ⟨rest, ht⟩ | hopen
    · rw [ht, readItems_close]
      exact .read (.emptyList ht)
    · rw [readItems_more hopen]
      exact (readMoreItems_outcome h fuel (skipGap t)).mono (fun js rest => .list) fun r => .list

/-- What is read in an object makes an object with the brace in front of it. -/
theorem readMembers_outcome (h : ∀ fuel t, Outcome (P t) (Q t) (readValue fuel depth t))
    (fuel : Nat) (t : Text) :
    Outcome
      (fun ms rest =>
        Nested P (CodePoint.ofChar '\x7b' :: t) (.object (Table.ofList ms).entries) rest)
      (NestedOverrun P Q (CodePoint.ofChar '\x7b' :: t)) (readMembers fuel depth (skipGap t)) := by
  cases fuel with
  | zero =>
    rw [readMembers.eq_def]
    exact .malformed _
  | succ fuel =>
    rcases starts_or (skipGap t) '\x7d' with ⟨rest, ht⟩ | hopen
    · rw [ht, readMembers_close]
      exact .read (.emptyObject ht)
    · rw [readMembers_more hopen]
      exact (readMoreMembers_outcome h fuel (skipGap t)).mono (fun ms rest => .object)
        fun r => .object

end Soundness

section Values

theorem Document.of_atom {limit depth : Nat} {t rest : Text} {j : Json}
    (h : Atom limit t j rest) : Document limit depth t j rest := by
  cases depth with
  | zero => exact h
  | succ depth => exact Or.inl h

theorem DocumentOverrun.of_longNumber {limit depth : Nat} {t : Text} {r : Refusal}
    (h : LongNumber limit t r) : DocumentOverrun limit depth t r := by
  cases depth with
  | zero => exact Or.inl h
  | succ depth => exact Or.inl h

/-- Where no list and no object is opened. -/
theorem readValue_outcome_plain {depth fuel : Nat} {t : Text} (hl : ∀ c u, t = c :: u → c ≠ '[')
    (ho : ∀ c u, t = c :: u → c ≠ '\x7b') :
    Outcome (Document digitLimit depth t) (DocumentOverrun digitLimit depth t)
      (readValue (fuel + 1) depth t) := by
  cases t with
  | nil =>
    rw [readValue.eq_def]
    exact .malformed _
  | cons c u =>
    exact (readValue_outcome_head (hl c u rfl) (ho c u rfl)).mono
      (fun j rest => Document.of_atom) fun r => DocumentOverrun.of_longNumber

/-- What is read is a document within the limits, and what is refused is malformed or overruns
them. -/
theorem readValue_outcome (depth fuel : Nat) (t : Text) :
    Outcome (Document digitLimit depth t) (DocumentOverrun digitLimit depth t)
      (readValue fuel depth t) := by
  induction depth generalizing fuel t with
  | zero =>
    cases fuel with
    | zero =>
      rw [readValue_zero]
      exact .malformed _
    | succ fuel =>
      rcases starts_or t '[' with ⟨u, rfl⟩ | hl
      · rw [readValue_list_zero]
        exact .overrun (Or.inr .list)
      rcases starts_or t '\x7b' with ⟨u, rfl⟩ | ho
      · rw [readValue_object_zero]
        exact .overrun (Or.inr .object)
      · exact readValue_outcome_plain hl ho
  | succ depth ih =>
    cases fuel with
    | zero =>
      rw [readValue_zero]
      exact .malformed _
    | succ fuel =>
      rcases starts_or t '[' with ⟨u, rfl⟩ | hl
      · rw [readValue_list]
        exact (readItems_outcome ih fuel u).map _ (fun js rest => Or.inr) fun r => Or.inr
      rcases starts_or t '\x7b' with ⟨u, rfl⟩ | ho
      · rw [readValue_object]
        exact (readMembers_outcome ih fuel u).map (fun ms => object (Table.ofList ms).entries)
          (fun ms rest => Or.inr) fun r => Or.inr
      · exact readValue_outcome_plain hl ho

end Values

end Json
end CrossClusterKeys
