import CrossClusterKeys.Proofs.JsonSoundness

/-!
# Every document is read

Every document within the limits is read, and the reader gives up only where the grammar says that
a limit is overrun.

**Proof shape.**  The inductions are those on levels, items and members that the grammar has.  At a
level, all that is known of what may stand inside is that the reader follows it if there is fuel
enough.  Three steps for each code point are enough: what is read behind a sign is shorter than
what was read in front of it.

**Results.**
* `followed_document`: the reader follows the grammar at every level.
* `read_eq_ok_iff`: the documents within the limits are read, and nothing else is.
* `read_eq_error_iff_overruns`: a limit is reported exactly where it is overrun.
* `read_eq_ok_iff_isDocument`: of all documents, however large, those without an overrun are read.
-/

namespace CrossClusterKeys
namespace Json

section Lengths

theorem length_skipGap_le (t : Text) : (skipGap t).length ≤ t.length :=
  (List.dropWhile_sublist _).length_le

theorem length_of_skipGap {t u : Text} {c : CodePoint} (h : skipGap t = c :: u) :
    u.length < t.length := by
  have hle := length_skipGap_le t
  rw [h, List.length_cons] at hle
  exact hle

theorem length_behind {t u v : Text} {c : CodePoint} (hle : u.length ≤ t.length)
    (hu : skipGap u = c :: v) : (skipGap v).length < t.length := by
  have h1 := length_of_skipGap hu
  have h2 := length_skipGap_le v
  omega

theorem Signs.length_lt {t rest : Text} {ss : List Sign} (h : Signs t ss rest) :
    rest.length < t.length := by
  induction h with
  | close => exact Nat.lt_succ_self _
  | plain _ _ _ _ ih | escaped _ _ ih | unit _ _ ih =>
    simp only [List.length_cons]
    omega

theorem Quoted.length_lt {t k rest : Text} (h : Quoted t k rest) : rest.length < t.length := by
  obtain ⟨hs⟩ := h
  exact Nat.lt_succ_of_lt hs.length_lt

theorem Atom.length_le {limit : Nat} {t rest : Text} {j : Json} (h : Atom limit t j rest) :
    rest.length ≤ t.length := by
  cases h with
  | text h => exact Nat.le_of_lt h.length_lt
  | word => simp only [List.length_append, Nat.le_add_left]
  | number =>
    simp only [List.length_append]
    omega

variable {P : Text → Json → Text → Prop}

theorem Items.length_le (hP : ∀ t j rest, P t j rest → rest.length ≤ t.length) {t rest : Text}
    {js : List Json} (h : Items P t js rest) : rest.length ≤ t.length := by
  induction h with
  | last h hu =>
    have h1 := hP _ _ _ h
    have h2 := length_of_skipGap hu
    omega
  | next h hu hmore ih =>
    have h1 := length_behind (hP _ _ _ h) hu
    omega

theorem Members.length_le (hP : ∀ t j rest, P t j rest → rest.length ≤ t.length) {t rest : Text}
    {ms : List (Text × Json)} (h : Members P t ms rest) : rest.length ≤ t.length := by
  induction h with
  | last hk hu h hw =>
    have h1 := length_behind (Nat.le_of_lt hk.length_lt) hu
    have h2 := hP _ _ _ h
    have h3 := length_of_skipGap hw
    omega
  | next hk hu h hw hmore ih =>
    have h1 := length_behind (Nat.le_of_lt hk.length_lt) hu
    have h2 := length_behind (hP _ _ _ h) hw
    omega

theorem Nested.length_le (hP : ∀ t j rest, P t j rest → rest.length ≤ t.length) {t rest : Text}
    {j : Json} (h : Nested P t j rest) : rest.length ≤ t.length := by
  cases h with
  | emptyList h | emptyObject h =>
    have h1 := length_of_skipGap h
    rw [List.length_cons]
    omega
  | @list t js rest h =>
    have h1 := h.length_le hP
    have h2 := length_skipGap_le t
    rw [List.length_cons]
    omega
  | @object t ms rest h =>
    have h1 := h.length_le hP
    have h2 := length_skipGap_le t
    rw [List.length_cons]
    omega

theorem Document.length_le {limit depth : Nat} {t rest : Text} {j : Json}
    (h : Document limit depth t j rest) : rest.length ≤ t.length := by
  induction depth generalizing t j rest with
  | zero => exact Atom.length_le h
  | succ depth ih =>
    rcases h with h | h
    · exact h.length_le
    · exact h.length_le fun t j rest => ih

end Lengths

section Completeness

/-- The reader follows the relations at a level if there is fuel enough. -/
structure Followed (depth : Nat) (P : Text → Json → Text → Prop) (Q : Text → Refusal → Prop) :
    Prop where
  length_le : ∀ t j rest, P t j rest → rest.length ≤ t.length
  read : ∀ fuel t j rest, P t j rest → Ends rest → 3 * t.length + 1 ≤ fuel →
    readValue fuel depth t = .ok (j, rest)
  refuse : ∀ fuel t r, Q t r → 3 * t.length + 1 ≤ fuel → readValue fuel depth t = .error r
  not_malformed : ∀ t r, Q t r → ∀ flaw, r ≠ .malformed flaw

variable {P : Text → Json → Text → Prop} {Q : Text → Refusal → Prop} {depth : Nat}

theorem readMoreItems_of_items (hl : Followed depth P Q) {t rest : Text} {js : List Json}
    (h : Items P t js rest) (fuel : Nat) (hfuel : 3 * t.length + 2 ≤ fuel) :
    readMoreItems fuel depth t = .ok (js, rest) := by
  induction h generalizing fuel with
  | @last t j u rest h hu =>
    obtain ⟨fuel, rfl⟩ : ∃ n, fuel = n + 1 := ⟨fuel - 1, by omega⟩
    have hj := hl.read fuel t j u h (.of_skipGap hu (Or.inr (Or.inl rfl))) (by omega)
    exact readMoreItems_last hj hu
  | @next t j u v js rest h hu hmore ih =>
    -- What stands behind the comma is shorter, and that pays for this step.
    obtain ⟨fuel, rfl⟩ : ∃ n, fuel = n + 1 := ⟨fuel - 1, by omega⟩
    have hj := hl.read fuel t j u h (.of_skipGap hu (Or.inl rfl)) (by omega)
    have hlength := length_behind (hl.length_le _ _ _ h) hu
    rw [readMoreItems_next hj hu, ih fuel (by omega)]
    rfl

theorem readMoreItems_of_overrun (hl : Followed depth P Q) {t : Text} {r : Refusal}
    (h : ItemsOverrun P Q t r) (fuel : Nat) (hfuel : 3 * t.length + 2 ≤ fuel) :
    readMoreItems fuel depth t = .error r := by
  induction h generalizing fuel with
  | here h =>
    obtain ⟨fuel, rfl⟩ : ∃ n, fuel = n + 1 := ⟨fuel - 1, by omega⟩
    exact readMoreItems_error (hl.refuse _ _ _ h (by omega))
  | @later t j u v r h hu hmore ih =>
    obtain ⟨fuel, rfl⟩ : ∃ n, fuel = n + 1 := ⟨fuel - 1, by omega⟩
    have hj := hl.read fuel t j u h (.of_skipGap hu (Or.inl rfl)) (by omega)
    have hlength := length_behind (hl.length_le _ _ _ h) hu
    rw [readMoreItems_next hj hu, ih fuel (by omega)]
    rfl

/-- A quoted text can be read behind its opening quote. -/
theorem Quoted.exists_cons {t k rest : Text} (h : Quoted t k rest) :
    ∃ u, t = CodePoint.ofChar '"' :: u ∧ readText u = .ok (k, rest) := by
  obtain ⟨hs⟩ := h
  exact ⟨_, rfl, readText_iff.2 (.intro hs)⟩

theorem readMoreMembers_of_members (hl : Followed depth P Q) {t rest : Text}
    {ms : List (Text × Json)} (h : Members P t ms rest) (fuel : Nat)
    (hfuel : 3 * t.length + 2 ≤ fuel) : readMoreMembers fuel depth t = .ok (ms, rest) := by
  induction h generalizing fuel with
  | @last t k u v j w rest hk hu h hw =>
    obtain ⟨fuel, rfl⟩ : ∃ n, fuel = n + 1 := ⟨fuel - 1, by omega⟩
    have hlength := length_behind (Nat.le_of_lt hk.length_lt) hu
    have hj := hl.read fuel _ j w h (.of_skipGap hw (Or.inr (Or.inr rfl))) (by omega)
    obtain ⟨t, rfl, hkey⟩ := hk.exists_cons
    exact readMoreMembers_last hkey hu hj hw
  | @next t k u v j w x ms rest hk hu h hw hmore ih =>
    obtain ⟨fuel, rfl⟩ : ∃ n, fuel = n + 1 := ⟨fuel - 1, by omega⟩
    have h1 := length_behind (Nat.le_of_lt hk.length_lt) hu
    have h2 := length_behind (hl.length_le _ _ _ h) hw
    have hj := hl.read fuel _ j w h (.of_skipGap hw (Or.inl rfl)) (by omega)
    have hmore' := ih fuel (by omega)
    obtain ⟨t, rfl, hkey⟩ := hk.exists_cons
    rw [readMoreMembers_next hkey hu hj hw, hmore']
    rfl

theorem readMoreMembers_of_overrun (hl : Followed depth P Q) {t : Text} {r : Refusal}
    (h : MembersOverrun P Q t r) (fuel : Nat) (hfuel : 3 * t.length + 2 ≤ fuel) :
    readMoreMembers fuel depth t = .error r := by
  induction h generalizing fuel with
  | @here t k u v r hk hu h =>
    obtain ⟨fuel, rfl⟩ : ∃ n, fuel = n + 1 := ⟨fuel - 1, by omega⟩
    have hlength := length_behind (Nat.le_of_lt hk.length_lt) hu
    have hr := hl.refuse fuel _ r h (by omega)
    obtain ⟨t, rfl, hkey⟩ := hk.exists_cons
    exact readMoreMembers_value_error hkey hu hr
  | @later t k u v j w x r hk hu h hw hmore ih =>
    obtain ⟨fuel, rfl⟩ : ∃ n, fuel = n + 1 := ⟨fuel - 1, by omega⟩
    have h1 := length_behind (Nat.le_of_lt hk.length_lt) hu
    have h2 := length_behind (hl.length_le _ _ _ h) hw
    have hj := hl.read fuel _ j w h (.of_skipGap hw (Or.inl rfl)) (by omega)
    have hmore' := ih fuel (by omega)
    obtain ⟨t, rfl, hkey⟩ := hk.exists_cons
    rw [readMoreMembers_next hkey hu hj hw, hmore']
    rfl

theorem ItemsOverrun.not_malformed (hl : Followed depth P Q) {t : Text} {r : Refusal}
    (h : ItemsOverrun P Q t r) (flaw : Flaw) : r ≠ .malformed flaw := by
  induction h with
  | here h => exact hl.not_malformed _ _ h flaw
  | later _ _ _ ih => exact ih

theorem MembersOverrun.not_malformed (hl : Followed depth P Q) {t : Text} {r : Refusal}
    (h : MembersOverrun P Q t r) (flaw : Flaw) : r ≠ .malformed flaw := by
  induction h with
  | here _ _ h => exact hl.not_malformed _ _ h flaw
  | later _ _ _ _ _ ih => exact ih

theorem NestedOverrun.not_malformed (hl : Followed depth P Q) {t : Text} {r : Refusal}
    (h : NestedOverrun P Q t r) (flaw : Flaw) : r ≠ .malformed flaw := by
  cases h with
  | list h => exact h.not_malformed hl flaw
  | object h => exact h.not_malformed hl flaw

theorem readValue_of_nested (hl : Followed depth P Q) {t rest : Text} {j : Json}
    (h : Nested P t j rest) {fuel : Nat} (hfuel : 3 * t.length + 1 ≤ fuel) :
    readValue fuel (depth + 1) t = .ok (j, rest) := by
  cases h with
  | @emptyList t _ h =>
    obtain ⟨fuel, rfl⟩ : ∃ n, fuel = n + 2 := ⟨fuel - 2, by rw [List.length_cons] at hfuel; omega⟩
    rw [readValue_list, h, readItems_close]
    rfl
  | @list t js _ h =>
    have hlength := length_skipGap_le t
    rw [List.length_cons] at hfuel
    obtain ⟨fuel, rfl⟩ : ∃ n, fuel = n + 2 := ⟨fuel - 2, by omega⟩
    have hmore := readMoreItems_of_items hl h fuel (by omega)
    rw [readValue_list, readItems_of_more (by simp only [hmore, ne_eq, reduceCtorEq,
      not_false_eq_true, implies_true]), hmore]
    rfl
  | @emptyObject t _ h =>
    obtain ⟨fuel, rfl⟩ : ∃ n, fuel = n + 2 := ⟨fuel - 2, by rw [List.length_cons] at hfuel; omega⟩
    rw [readValue_object, h, readMembers_close]
    rfl
  | @object t ms _ h =>
    have hlength := length_skipGap_le t
    rw [List.length_cons] at hfuel
    obtain ⟨fuel, rfl⟩ : ∃ n, fuel = n + 2 := ⟨fuel - 2, by omega⟩
    have hmore := readMoreMembers_of_members hl h fuel (by omega)
    rw [readValue_object, readMembers_of_more (by simp only [hmore, ne_eq, reduceCtorEq,
      not_false_eq_true, implies_true]), hmore]
    rfl

theorem readValue_of_nestedOverrun (hl : Followed depth P Q) {t : Text} {r : Refusal}
    (h : NestedOverrun P Q t r) {fuel : Nat} (hfuel : 3 * t.length + 1 ≤ fuel) :
    readValue fuel (depth + 1) t = .error r := by
  have hflaw := h.not_malformed hl
  cases h with
  | @list t _ h =>
    have hlength := length_skipGap_le t
    rw [List.length_cons] at hfuel
    obtain ⟨fuel, rfl⟩ : ∃ n, fuel = n + 2 := ⟨fuel - 2, by omega⟩
    have hmore := readMoreItems_of_overrun hl h fuel (by omega)
    rw [readValue_list, readItems_of_more fun flaw h' =>
      hflaw flaw (Except.error.inj (hmore.symm.trans h')), hmore]
    rfl
  | @object t _ h =>
    have hlength := length_skipGap_le t
    rw [List.length_cons] at hfuel
    obtain ⟨fuel, rfl⟩ : ∃ n, fuel = n + 2 := ⟨fuel - 2, by omega⟩
    have hmore := readMoreMembers_of_overrun hl h fuel (by omega)
    rw [readValue_object, readMembers_of_more fun flaw h' =>
      hflaw flaw (Except.error.inj (hmore.symm.trans h')), hmore]
    rfl

/-- At every level the documents within the limits are read, and what overruns them is refused. -/
theorem followed_document (depth : Nat) :
    Followed depth (Document digitLimit depth) (DocumentOverrun digitLimit depth) := by
  have hlong : ∀ depth fuel t r, LongNumber digitLimit t r → 3 * t.length + 1 ≤ fuel →
      readValue fuel depth t = .error r := by
    intro depth fuel t r h hfuel
    obtain ⟨fuel, rfl⟩ : ∃ n, fuel = n + 1 := ⟨fuel - 1, by omega⟩
    exact readValue_longNumber h
  have hatom : ∀ depth fuel t j rest, Atom digitLimit t j rest → Ends rest →
      3 * t.length + 1 ≤ fuel → readValue fuel depth t = .ok (j, rest) := by
    intro depth fuel t j rest h hrest hfuel
    obtain ⟨fuel, rfl⟩ : ∃ n, fuel = n + 1 := ⟨fuel - 1, by omega⟩
    exact readValue_atom h hrest
  induction depth with
  | zero =>
    refine ⟨fun t j rest => Document.length_le, hatom 0, fun fuel t r h hfuel => ?_,
      fun t r h flaw => ?_⟩
    · rcases h with h | h
      · exact hlong 0 fuel t r h hfuel
      · obtain ⟨fuel, rfl⟩ : ∃ n, fuel = n + 1 := ⟨fuel - 1, by omega⟩
        cases h with
        | list => exact readValue_list_zero
        | object => exact readValue_object_zero
    · rcases h with ⟨-, -, -, -⟩ | h | h
      all_goals exact fun h => nomatch h
  | succ depth ih =>
    refine ⟨fun t j rest => Document.length_le, fun fuel t j rest h hrest hfuel => ?_,
      fun fuel t r h hfuel => ?_, fun t r h flaw => ?_⟩
    · rcases h with h | h
      · exact hatom _ fuel t j rest h hrest hfuel
      · exact readValue_of_nested ih h hfuel
    · rcases h with h | h
      · exact hlong _ fuel t r h hfuel
      · exact readValue_of_nestedOverrun ih h hfuel
    · rcases h with ⟨-, -, -, -⟩ | h
      · exact fun h => nomatch h
      · exact h.not_malformed ih flaw

end Completeness

section Large

-- `P'` is a level of a grammar with any limits.
variable {P P' : Text → Json → Text → Prop} {Q : Text → Refusal → Prop}

theorem Items.within_or_overrun
    (hP : ∀ t j rest, P' t j rest → Ends rest → P t j rest ∨ ∃ r, Q t r) {t rest : Text}
    {js : List Json} (h : Items P' t js rest) : Items P t js rest ∨ ∃ r, ItemsOverrun P Q t r := by
  induction h with
  | last h hu =>
    rcases hP _ _ _ h (.of_skipGap hu (Or.inr (Or.inl rfl))) with h | ⟨r, h⟩
    · exact Or.inl (.last h hu)
    · exact Or.inr ⟨r, .here h⟩
  | next h hu hmore ih =>
    rcases hP _ _ _ h (.of_skipGap hu (Or.inl rfl)) with h | ⟨r, h⟩
    · rcases ih with hmore | ⟨r, hmore⟩
      · exact Or.inl (.next h hu hmore)
      · exact Or.inr ⟨r, .later h hu hmore⟩
    · exact Or.inr ⟨r, .here h⟩

theorem Members.within_or_overrun
    (hP : ∀ t j rest, P' t j rest → Ends rest → P t j rest ∨ ∃ r, Q t r) {t rest : Text}
    {ms : List (Text × Json)} (h : Members P' t ms rest) :
    Members P t ms rest ∨ ∃ r, MembersOverrun P Q t r := by
  induction h with
  | last hk hu h hw =>
    rcases hP _ _ _ h (.of_skipGap hw (Or.inr (Or.inr rfl))) with h | ⟨r, h⟩
    · exact Or.inl (.last hk hu h hw)
    · exact Or.inr ⟨r, .here hk hu h⟩
  | next hk hu h hw hmore ih =>
    rcases hP _ _ _ h (.of_skipGap hw (Or.inl rfl)) with h | ⟨r, h⟩
    · rcases ih with hmore | ⟨r, hmore⟩
      · exact Or.inl (.next hk hu h hw hmore)
      · exact Or.inr ⟨r, .later hk hu h hw hmore⟩
    · exact Or.inr ⟨r, .here hk hu h⟩

theorem Nested.within_or_overrun
    (hP : ∀ t j rest, P' t j rest → Ends rest → P t j rest ∨ ∃ r, Q t r) {t rest : Text} {j : Json}
    (h : Nested P' t j rest) : Nested P t j rest ∨ ∃ r, NestedOverrun P Q t r := by
  cases h with
  | emptyList h => exact Or.inl (.emptyList h)
  | emptyObject h => exact Or.inl (.emptyObject h)
  | list h =>
    rcases h.within_or_overrun hP with h | ⟨r, h⟩
    · exact Or.inl (.list h)
    · exact Or.inr ⟨r, .list h⟩
  | object h =>
    rcases h.within_or_overrun hP with h | ⟨r, h⟩
    · exact Or.inl (.object h)
    · exact Or.inr ⟨r, .object h⟩

theorem Atom.within_or_long {limit : Nat} {t rest : Text} {j : Json} (h : Atom limit t j rest)
    (hrest : Ends rest) : Atom digitLimit t j rest ∨ ∃ r, LongNumber digitLimit t r := by
  cases h with
  | text h => exact Or.inl (.text h)
  | word h => exact Or.inl (.word h)
  | number hs h => exact (h.within_or_long hs hrest).imp_left (.number hs)

/-- A list or an object is opened. -/
theorem Nested.opens {t rest : Text} {j : Json} (h : Nested P t j rest) : ∃ r, Opens t r := by
  cases h with
  | emptyList | list => exact ⟨_, .list⟩
  | emptyObject | object => exact ⟨_, .object⟩

/-- A document of any size is within the limits or overruns them. -/
theorem Document.within_or_overrun {limit depth' : Nat} (depth : Nat) {t rest : Text} {j : Json}
    (h : Document limit depth' t j rest) (hrest : Ends rest) :
    Document digitLimit depth t j rest ∨ ∃ r, DocumentOverrun digitLimit depth t r := by
  have hatom : ∀ depth t j rest, Atom limit t j rest → Ends rest →
      Document digitLimit depth t j rest ∨ ∃ r, DocumentOverrun digitLimit depth t r := by
    intro depth t j rest h hrest
    rcases h.within_or_long hrest with h | ⟨r, h⟩
    · exact Or.inl (.of_atom h)
    · exact Or.inr ⟨r, .of_longNumber h⟩
  -- The induction is on the levels of the document, whatever may be opened.
  induction depth' generalizing depth t j rest with
  | zero => exact hatom depth t j rest h hrest
  | succ depth' ih =>
    rcases h with h | h
    · exact hatom depth t j rest h hrest
    · cases depth with
      | zero =>
        obtain ⟨r, hr⟩ := h.opens
        exact Or.inr ⟨r, Or.inr hr⟩
      | succ depth =>
        have hlevel : ∀ t j rest, Document limit depth' t j rest → Ends rest →
            Document digitLimit depth t j rest ∨ ∃ r, DocumentOverrun digitLimit depth t r :=
          fun t j rest => ih depth
        rcases h.within_or_overrun hlevel with h | ⟨r, h⟩
        · exact Or.inl (Or.inr h)
        · exact Or.inr ⟨r, Or.inr h⟩

end Large

section Documents

variable {t : Text} {j : Json} {r : Refusal}

/-- Nothing starts with a byte order mark, so that the reader need not look for one. -/
theorem readValue_byteOrderMark (fuel depth : Nat)
    (h : (t.head?.map CodePoint.val) = some 0xFEFF) :
    readValue (fuel + 1) depth (skipGap t) = .error (.malformed .value) := by
  cases t with
  | nil => cases h
  | cons c t =>
    obtain rfl : c = .ofNat 0xFEFF := CodePoint.ext (Option.some.inj h)
    rw [skipGap_cons (by decide)]
    exact readValue_eq_malformed (by decide)

variable [Nesting]

/-- The documents within the limits are read, and nothing else is. -/
theorem read_eq_ok_iff : read t = .ok j ↔ IsDocumentWithin digitLimit Nesting.levels t j := by
  have houtcome := readValue_outcome Nesting.levels (3 * t.length + 3) (skipGap t)
  have hmark := readValue_byteOrderMark (t := t) (3 * t.length + 2) Nesting.levels
  constructor
  · intro h
    rw [read] at h
    split at h
    · cases h
    · split at h
      · cases h
      · next j' rest hread =>
        split at h
        · next hempty =>
          obtain rfl := Except.ok.inj h
          exact ⟨rest, (hread ▸ houtcome).of_ok, List.isEmpty_iff.1 hempty⟩
        · cases h
  · rintro ⟨rest, h, hrest⟩
    have hlength := length_skipGap_le t
    have hread := (followed_document Nesting.levels).read (3 * t.length + 3) _ _ _ h
      (.of_skipGap_nil hrest) (by omega)
    have hhead : ¬ (t.head?.map CodePoint.val) = some 0xFEFF := by
      intro hhead
      rw [hmark hhead] at hread
      cases hread
    rw [read, if_neg hhead, hread]
    simp only [hrest, List.isEmpty_nil, if_true]

/-- A limit is reported exactly where it is overrun. -/
theorem read_eq_error_iff_overruns :
    (read t = .error r ∧ ∀ flaw, r ≠ .malformed flaw) ↔ Overruns t r := by
  have houtcome := readValue_outcome Nesting.levels (3 * t.length + 3) (skipGap t)
  have hmark := readValue_byteOrderMark (t := t) (3 * t.length + 2) Nesting.levels
  constructor
  · rintro ⟨h, hflaw⟩
    rw [read] at h
    split at h
    · exact absurd (Except.error.inj h).symm (hflaw _)
    · split at h
      · next e hread =>
        obtain rfl := Except.error.inj h
        rw [hread] at houtcome
        cases houtcome with
        | overrun h => exact h
        | malformed flaw => exact absurd rfl (hflaw flaw)
      · split at h
        · cases h
        · exact absurd (Except.error.inj h).symm (hflaw _)
  · intro h
    have hflaw := (followed_document Nesting.levels).not_malformed _ _ h
    have hlength := length_skipGap_le t
    have hread := (followed_document Nesting.levels).refuse (3 * t.length + 3) _ _ h (by omega)
    have hhead : ¬ (t.head?.map CodePoint.val) = some 0xFEFF := by
      intro hhead
      rw [hmark hhead] at hread
      exact hflaw _ (Except.error.inj hread).symm
    rw [read, if_neg hhead, hread]
    exact ⟨rfl, hflaw⟩

/-- Of all documents, however large, those that overrun no limit are read. -/
theorem read_eq_ok_iff_isDocument : read t = .ok j ↔ IsDocument t j ∧ ∀ r, ¬ Overruns t r := by
  constructor
  · intro h
    refine ⟨⟨_, _, read_eq_ok_iff.1 h⟩, fun r hr => ?_⟩
    rw [(read_eq_error_iff_overruns.2 hr).1] at h
    cases h
  · rintro ⟨⟨limit, depth, rest, h, hrest⟩, hoverrun⟩
    rcases h.within_or_overrun Nesting.levels (.of_skipGap_nil hrest) with h | ⟨r, h⟩
    · exact read_eq_ok_iff.2 ⟨rest, h, hrest⟩
    · exact absurd h (hoverrun r)

end Documents

end Json
end CrossClusterKeys
