import CrossClusterKeys.Proofs.Interleaving

/-!
# Two edits at the same time

The index carries no version: a pass saves what it made of the index that it loaded, over whatever
is stored by then.

**Invariant.**  `Phase` tells what has happened so far: nothing was written yet; one pass is through
and the other one has not begun, has loaded before that, or has loaded since; or both are through.
Every move of either pass keeps it.

**Results.**
* `phase_move`, `phase_after`: the invariant along a schedule.
* Of two passes that succeed both edits are kept if one pass made all its calls before the other
  one's first; otherwise only the edit of the pass that made the last call is.
-/

namespace CrossClusterKeys

open SecretStore (answer)

namespace Duo

section Phases

variable [Json.Nesting] (passes : Bool → EditPass) (m₀ : SecretStore) (x : KeyIndex)

/-- The pass has not begun. -/
structure Fresh (d : Duo) (side : Bool) : Prop where
  program : d.programs side = (passes side).program
  trace : side ∉ d.trace

/-- The pass has loaded the index `z`, and has not written yet. -/
structure Working (z : KeyIndex) (d : Duo) (side : Bool) : Prop where
  transacts : (d.programs side).Transacts ((passes side).Brings z) Failed Succeeded
  trace : side ∈ d.trace

/-- The pass is through with its calls, and will not fail. -/
def Resting (d : Duo) (side : Bool) : Prop := (d.programs side).Rests Succeeded

/-- What has happened so far. -/
inductive Phase (d : Duo) : Prop
  | untouched (store : d.store = m₀)
      (both : ∀ side, Fresh passes d side ∨ Working passes x d side)
  | ahead (side : Bool) (rests : d.Resting side) (brings : (passes side).Brings x d.store)
      (fresh : Fresh passes d (!side)) (trace : ∃ n, d.trace = List.replicate n side)
  | overlapped (side : Bool) (rests : d.Resting side) (working : Working passes x d (!side))
      (trace : [!side, side].Sublist d.trace)
  | followed (side : Bool) (rests : d.Resting side) (y z : KeyIndex)
      (edited : (passes side).edit.apply x = .ok y) (reread : y.Reread z) (legible : z.IsLegible)
      (working : Working passes z d (!side))
      (trace : ∃ n k, d.trace = List.replicate n side ++ List.replicate k (!side))
  | serial (side : Bool) (rests : ∀ s, d.Resting s) (y z : KeyIndex)
      (edited : (passes side).edit.apply x = .ok y) (reread : y.Reread z) (legible : z.IsLegible)
      (brings : (passes !side).Brings z d.store) (trace : d.IsSerial)
  | lost (side : Bool) (rests : ∀ s, d.Resting s) (brings : (passes side).Brings x d.store)
      (trace : [side, !side, side].Sublist d.trace) (last : d.trace.getLast? = some side)

end Phases

section Moves

variable {d : Duo} {turn : Bool × Surroundings}

/-- A move of a pass that is through changes nothing but its program. -/
theorem move_of_resting (h : d.Resting turn.1) :
    (d.move turn).store = d.store ∧ (d.move turn).trace = d.trace ∧
      (d.move turn).Resting turn.1 := by
  obtain ⟨hcalling, hstore, hrests⟩ := Program.advance_of_rests h d.store turn.2
  refine ⟨hstore, ?_, ?_⟩
  · simp only [move, hcalling, Bool.false_eq_true, if_false]
  · rw [Resting, programs_move_self]
    exact hrests

variable {passes : Bool → EditPass} {z : KeyIndex}

/-- The first move of a pass loads the index and writes nothing. -/
theorem move_of_fresh [Json.Nesting] (h : Fresh passes d turn.1)
    (hz : d.store.indexOf (passes turn.1).cluster = .ok z) :
    (d.move turn).store = d.store ∧ (d.move turn).trace = d.trace ++ [turn.1] ∧
      Working passes z (d.move turn) turn.1 := by
  obtain ⟨hcalling, hstore, htransacts⟩ := transacts_pass (passes turn.1) hz turn.2
  rw [← h.program] at hcalling hstore htransacts
  have htrace : (d.move turn).trace = d.trace ++ [turn.1] := by
    simp only [move, hcalling, if_true]
  refine ⟨hstore, htrace, ?_, ?_⟩
  · rw [programs_move_self]
    exact htransacts
  · rw [htrace]
    exact List.mem_append_right _ (List.mem_singleton_self _)

/-- A further move either writes nothing or is the last call. -/
theorem move_of_working (h : Working passes z d turn.1) (hkept : d.store.IsKept) :
    ((d.move turn).store = d.store ∧ Working passes z (d.move turn) turn.1) ∨
      ((d.move turn).trace = d.trace ++ [turn.1] ∧
        (passes turn.1).Brings z (d.move turn).store ∧ (d.move turn).Resting turn.1) := by
  rcases Program.advance_of_transacts h.transacts hkept turn.2 with
    ⟨hstore, htransacts⟩ | ⟨hcalling, hbrings, hrests⟩
  · refine Or.inl ⟨hstore, ?_, mem_trace_move h.trace⟩
    rw [programs_move_self]
    exact htransacts
  · refine Or.inr ⟨?_, hbrings, ?_⟩
    · simp only [move, hcalling, if_true]
    · rw [Resting, programs_move_self]
      exact hrests

theorem resting_move_other {side : Bool} (h : side ≠ turn.1) (hd : d.Resting side) :
    (d.move turn).Resting side := by
  rw [Resting, programs_move_other d turn h]
  exact hd

theorem working_move_other {side : Bool} (h : side ≠ turn.1) (hd : Working passes z d side) :
    Working passes z (d.move turn) side := by
  refine ⟨?_, mem_trace_move hd.trace⟩
  rw [programs_move_other d turn h]
  exact hd.transacts

theorem fresh_move_other [Json.Nesting] {side : Bool} (h : side ≠ turn.1)
    (hd : Fresh passes d side) :
    Fresh passes (d.move turn) side := by
  refine ⟨(programs_move_other d turn h).trans hd.program, fun hmem => ?_⟩
  rcases trace_move d turn with ht | ht
  · exact hd.trace (ht ▸ hmem)
  · rw [ht, List.mem_append, List.mem_singleton] at hmem
    exact hmem.elim hd.trace h

end Moves

section Steps

variable {passes : Bool → EditPass} {m₀ : SecretStore} {x : KeyIndex} {d : Duo}
  (turn : Bool × Surroundings)

theorem isKept_advance {α : Type} (p : Program Store α) {m : SecretStore} (hm : m.IsKept)
    (w : Surroundings) : (p.advance answer w m).2.IsKept := by
  cases p with
  | done a => exact hm
  | ask r k =>
    cases r with
    | call c => exact SecretStore.isKept_answer hm c
    | log e => exact hm
    | configureLog l f => exact hm
    | pause s => exact hm
    | currentId => exact hm
    | setId id => exact hm
    | drawId => exact hm

/-- Both passes are through: their moves change nothing. -/
theorem resting_move_of_all (h : ∀ s, d.Resting s) : ∀ s, (d.move turn).Resting s := by
  intro s
  by_cases hs : s = turn.1
  · subst hs
    exact (move_of_resting (h turn.1)).2.2
  · exact resting_move_other hs (h s)

/-- Both passes are through after the last call of the second one. -/
theorem resting_move_of_last {side : Bool} (hrests : d.Resting side) (hswap : turn.1 = !side)
    (hlast : (d.move turn).Resting turn.1) : ∀ s, (d.move turn).Resting s := by
  intro s
  by_cases hs : s = turn.1
  · exact hs ▸ hlast
  · have hside : s = side := by
      rw [Bool.eq_not.2 hs, hswap, Bool.not_not]
    exact resting_move_other hs (hside ▸ hrests)

variable [Json.Nesting]

/-- The first write of all is by a pass that loaded the index as it was before. -/
theorem phase_move_of_untouched (hkept : d.store.IsKept)
    (hx : ∀ side, m₀.indexOf (passes side).cluster = .ok x) (hstore : d.store = m₀)
    (hboth : ∀ side, Fresh passes d side ∨ Working passes x d side) :
    Phase passes m₀ x (d.move turn) := by
  have hother : ∀ side, side ≠ turn.1 →
      Fresh passes (d.move turn) side ∨ Working passes x (d.move turn) side := by
    intro side hside
    rcases hboth side with hfresh | hworking
    · exact Or.inl (fresh_move_other hside hfresh)
    · exact Or.inr (working_move_other hside hworking)
  have hopen : (d.move turn).store = d.store → Working passes x (d.move turn) turn.1 →
      Phase passes m₀ x (d.move turn) := by
    intro hsame hworking
    refine .untouched (hsame.trans hstore) fun side => ?_
    by_cases hside : side = turn.1
    · exact hside ▸ Or.inr hworking
    · exact hother side hside
  rcases hboth turn.1 with hfresh | hworking
  · obtain ⟨hsame, -, hworking⟩ := move_of_fresh hfresh (hstore ▸ hx turn.1)
    exact hopen hsame hworking
  · rcases move_of_working hworking hkept with ⟨hsame, hworking⟩ | ⟨htrace, hbrings, hrests⟩
    · exact hopen hsame hworking
    · have hne : (!turn.1) ≠ turn.1 := Bool.not_ne_self turn.1
      rcases hboth (!turn.1) with hfresh | hlate
      · refine .ahead turn.1 hrests hbrings (fresh_move_other hne hfresh) ⟨d.trace.length + 1, ?_⟩
        rw [htrace]
        refine List.eq_replicate_iff.2 ⟨List.length_append, fun side hside => ?_⟩
        rcases List.mem_append.1 hside with hmem | hmem
        · by_contra hside
          have hswap : side = !turn.1 := (Bool.eq_not.2 hside)
          exact hfresh.trace (hswap ▸ hmem)
        · exact List.mem_singleton.1 hmem
      · refine .overlapped turn.1 hrests (working_move_other hne hlate) ?_
        rw [htrace]
        exact (List.singleton_sublist.2 hlate.trace).append (List.Sublist.refl [turn.1])

/-- A pass that begins after the other one is through loads what that one saved. -/
theorem phase_move_of_ahead {side : Bool}
    (hkeys : ∀ s s', (passes s).cluster.secretKey = (passes s').cluster.secretKey)
    (hlegible : ∀ y, (passes side).edit.apply x = .ok y → y.IsLegible)
    (hrests : d.Resting side) (hbrings : (passes side).Brings x d.store)
    (hfresh : Fresh passes d (!side)) (htrace : ∃ n, d.trace = List.replicate n side) :
    Phase passes m₀ x (d.move turn) := by
  by_cases hturn : turn.1 = side
  · subst hturn
    obtain ⟨hstore, hsame, hrests'⟩ := move_of_resting hrests
    refine .ahead turn.1 hrests' (hstore ▸ hbrings) ?_ (hsame ▸ htrace)
    exact fresh_move_other (Bool.not_ne_self turn.1) hfresh
  · obtain ⟨y, hy, hstands⟩ := hbrings
    obtain ⟨z, hz, hreread, hzl⟩ := KeyIndex.reread_of_stands (hlegible y hy) hstands
    have hswap : turn.1 = !side := Bool.eq_not.2 hturn
    rw [← hswap] at hfresh
    have hindex : d.store.indexOf (passes turn.1).cluster = .ok z := by
      rw [← hz]
      unfold SecretStore.indexOf
      rw [hkeys turn.1 side]
    obtain ⟨-, htrace', hworking⟩ := move_of_fresh hfresh hindex
    refine .followed side (resting_move_other (Ne.symm hturn) hrests) y z hy hreread hzl
      (hswap ▸ hworking) ?_
    obtain ⟨n, hn⟩ := htrace
    refine ⟨n, 1, ?_⟩
    rw [htrace', hn, hswap]
    rfl

/-- A pass that loaded before the other one wrote writes over it. -/
theorem phase_move_of_overlapped (hkept : d.store.IsKept) {side : Bool} (hrests : d.Resting side)
    (hworking : Working passes x d (!side)) (htrace : [!side, side].Sublist d.trace) :
    Phase passes m₀ x (d.move turn) := by
  by_cases hturn : turn.1 = side
  · subst hturn
    obtain ⟨-, hsame, hrests'⟩ := move_of_resting hrests
    refine .overlapped turn.1 hrests' ?_ (hsame ▸ htrace)
    exact working_move_other (Bool.not_ne_self turn.1) hworking
  · have hswap : turn.1 = !side := Bool.eq_not.2 hturn
    rw [← hswap] at hworking
    have hrests' : (d.move turn).Resting side := resting_move_other (Ne.symm hturn) hrests
    rcases move_of_working hworking hkept with ⟨-, hworking'⟩ | ⟨htrace', hbrings, hlast⟩
    · exact .overlapped side hrests' (hswap ▸ hworking') (sublist_trace_move htrace)
    · refine .lost turn.1 (resting_move_of_last turn hrests hswap hlast) hbrings ?_ ?_
      · rw [htrace', hswap, Bool.not_not]
        exact htrace.append (List.Sublist.refl [!side])
      · rw [htrace', List.getLast?_append, List.getLast?_singleton, Option.some_or]

/-- A pass that loaded what the other one saved adds its own edit. -/
theorem phase_move_of_followed (hkept : d.store.IsKept) {side : Bool} (hrests : d.Resting side)
    {y z : KeyIndex} (hy : (passes side).edit.apply x = .ok y) (hreread : y.Reread z)
    (hz : z.IsLegible) (hworking : Working passes z d (!side))
    (htrace : ∃ n k, d.trace = List.replicate n side ++ List.replicate k (!side)) :
    Phase passes m₀ x (d.move turn) := by
  by_cases hturn : turn.1 = side
  · subst hturn
    obtain ⟨-, hsame, hrests'⟩ := move_of_resting hrests
    refine .followed turn.1 hrests' y z hy hreread hz ?_ (hsame ▸ htrace)
    exact working_move_other (Bool.not_ne_self turn.1) hworking
  · have hswap : turn.1 = !side := Bool.eq_not.2 hturn
    have hlonger : ∃ n k,
        (d.move turn).trace = List.replicate n side ++ List.replicate k (!side) := by
      obtain ⟨n, k, hnk⟩ := htrace
      rcases trace_move d turn with ht | ht
      · exact ⟨n, k, ht.trans hnk⟩
      · refine ⟨n, k + 1, ?_⟩
        rw [ht, hnk, hswap, List.append_assoc, ← List.replicate_succ']
    rw [← hswap] at hworking
    have hrests' : (d.move turn).Resting side := resting_move_other (Ne.symm hturn) hrests
    rcases move_of_working hworking hkept with ⟨-, hworking'⟩ | ⟨-, hbrings, hlast⟩
    · exact .followed side hrests' y z hy hreread hz (hswap ▸ hworking') hlonger
    · exact .serial side (resting_move_of_last turn hrests hswap hlast) y z hy hreread hz
        (hswap ▸ hbrings) ⟨side, hlonger⟩

/-- Every move of either pass keeps the invariant. -/
theorem phase_move (hd : Phase passes m₀ x d) (hkept : d.store.IsKept)
    (hkeys : ∀ s s', (passes s).cluster.secretKey = (passes s').cluster.secretKey)
    (hx : ∀ side, m₀.indexOf (passes side).cluster = .ok x)
    (hlegible : ∀ side y, (passes side).edit.apply x = .ok y → y.IsLegible) :
    Phase passes m₀ x (d.move turn) := by
  cases hd with
  | untouched hstore hboth => exact phase_move_of_untouched turn hkept hx hstore hboth
  | ahead side hrests hbrings hfresh htrace =>
    exact phase_move_of_ahead turn hkeys (hlegible side) hrests hbrings hfresh htrace
  | overlapped side hrests hworking htrace =>
    exact phase_move_of_overlapped turn hkept hrests hworking htrace
  | followed side hrests y z hy hreread hz hworking htrace =>
    exact phase_move_of_followed turn hkept hrests hy hreread hz hworking htrace
  | serial side hrests y z hy hreread hz hbrings htrace =>
    obtain ⟨hstore, hsame, -⟩ := move_of_resting (hrests turn.1)
    refine .serial side (resting_move_of_all turn hrests) y z hy hreread hz (hstore ▸ hbrings) ?_
    unfold IsSerial
    rw [hsame]
    exact htrace
  | lost side hrests hbrings htrace hlast =>
    obtain ⟨hstore, hsame, -⟩ := move_of_resting (hrests turn.1)
    exact .lost side (resting_move_of_all turn hrests) (hstore ▸ hbrings) (hsame ▸ htrace)
      (hsame ▸ hlast)

end Steps

section Schedules

variable {passes : Bool → EditPass} {m₀ : SecretStore} {x : KeyIndex} {d : Duo}

theorem phase_start [Json.Nesting] (m₀ : SecretStore) (x : KeyIndex) :
    Phase passes m₀ x (start passes m₀) :=
  .untouched rfl fun _ => Or.inl ⟨rfl, List.not_mem_nil⟩

/-- The invariant holds along every schedule. -/
theorem phase_after [Json.Nesting] (schedule : List (Bool × Surroundings))
    (hd : Phase passes m₀ x d) (hkept : d.store.IsKept)
    (hkeys : ∀ s s', (passes s).cluster.secretKey = (passes s').cluster.secretKey)
    (hx : ∀ side, m₀.indexOf (passes side).cluster = .ok x)
    (hlegible : ∀ side y, (passes side).edit.apply x = .ok y → y.IsLegible) :
    Phase passes m₀ x (d.after schedule) := by
  induction schedule generalizing d with
  | nil => exact hd
  | cons turn schedule ih =>
    exact ih (phase_move turn hd hkept hkeys hx hlegible) (isKept_advance _ hkept turn.2)

theorem not_isSerial_of_sublist {side : Bool} (h : [side, !side, side].Sublist d.trace) :
    ¬ d.IsSerial := by
  rintro ⟨first, n, k, htrace⟩
  rw [htrace, List.sublist_append_iff] at h
  obtain ⟨front, back, hsplit, hfront, hback⟩ := h
  have hfirst : ∀ s ∈ front, s = first := fun s hs => List.eq_of_mem_replicate (hfront.subset hs)
  have hsecond : ∀ s ∈ back, s = !first := fun s hs => List.eq_of_mem_replicate (hback.subset hs)
  match front with
  | [] =>
    rw [List.nil_append] at hsplit
    subst hsplit
    have h₁ := hsecond side (by simp)
    have h₂ := hsecond (!side) (by simp)
    exact Bool.not_ne_self side (h₂.trans h₁.symm)
  | [s] =>
    rw [List.singleton_append, List.cons.injEq] at hsplit
    obtain ⟨-, rfl⟩ := hsplit
    have h₁ := hsecond side (by simp)
    have h₂ := hsecond (!side) (by simp)
    exact Bool.not_ne_self side (h₂.trans h₁.symm)
  | s :: t :: rest =>
    simp only [List.cons_append, List.cons.injEq] at hsplit
    obtain ⟨rfl, rfl, -⟩ := hsplit
    have h₁ := hfirst side (by simp)
    have h₂ := hfirst (!side) (by simp)
    exact Bool.not_ne_self side (h₂.trans h₁.symm)

/-- A pass that is still working has not succeeded. -/
theorem not_working_of_succeeds (hd : d.Succeeds) {z : KeyIndex} {side : Bool} :
    ¬ Working passes z d side := by
  intro hworking
  have htransacts := hworking.transacts
  rw [hd side] at htransacts
  obtain ⟨e, he⟩ : Failed (.ok () : Except Raised Unit) := htransacts
  cases he

theorem not_fresh_of_succeeds [Json.Nesting] (hd : d.Succeeds) {side : Bool} :
    ¬ Fresh passes d side := by
  intro hfresh
  have hprogram := hfresh.program
  rw [hd side] at hprogram
  cases hprogram

/-- What is loaded once an edited index stands in the store. -/
theorem becomes_of_brings [Json.Nesting] {p : EditPass} {edits : List Edit}
    {saved : List KeyIndex} {z : KeyIndex} {m : SecretStore} (hz : x.Becomes edits saved z)
    (hzl : z.IsLegible) (hp : p.edit.IsLegible) (h : p.Brings z m) :
    ∃ y w, m.indexOf p.cluster = .ok w ∧ x.Becomes (p.edit :: edits) (y :: saved) w := by
  obtain ⟨y, hy, hstands⟩ := h
  obtain ⟨w, hw, hreread, -⟩ :=
    KeyIndex.reread_of_stands (KeyIndex.isLegible_of_edit hzl hp hy) hstands
  exact ⟨y, w, hw, .edit hz hy hreread⟩

/-- Once both passes are through, either both edits were made in turn, or the one of the pass that
made the last call. -/
theorem indexOf_of_succeeds [Json.Nesting] (hd : Phase passes m₀ x d) (hsucceeds : d.Succeeds)
    (hxl : x.IsLegible) (hedits : ∀ side, (passes side).edit.IsLegible) :
    (d.IsSerial ∧ ∃ side saved w, d.store.indexOf (passes side).cluster = .ok w ∧
        x.Becomes [(passes side).edit, (passes !side).edit] saved w) ∨
      (¬ d.IsSerial ∧ ∃ side saved w, d.store.indexOf (passes side).cluster = .ok w ∧
        d.trace.getLast? = some side ∧ x.Becomes [(passes side).edit] saved w) := by
  cases hd with
  | untouched _ hboth =>
    rcases hboth false with hfresh | hworking
    · exact absurd hfresh (not_fresh_of_succeeds hsucceeds)
    · exact absurd hworking (not_working_of_succeeds hsucceeds)
  | ahead side _ _ hfresh _ => exact absurd hfresh (not_fresh_of_succeeds hsucceeds)
  | overlapped side _ hworking _ => exact absurd hworking (not_working_of_succeeds hsucceeds)
  | followed side _ _ _ _ _ _ hworking _ =>
    exact absurd hworking (not_working_of_succeeds hsucceeds)
  | serial side _ y z hy hreread hz hbrings hserial =>
    obtain ⟨y', w, hw, hbecomes⟩ :=
      becomes_of_brings (.edit .start hy hreread) hz (hedits !side) hbrings
    refine Or.inl ⟨hserial, !side, [y', y], w, hw, ?_⟩
    rw [Bool.not_not]
    exact hbecomes
  | lost side _ hbrings htrace hlast =>
    obtain ⟨y, w, hw, hbecomes⟩ := becomes_of_brings .start hxl (hedits side) hbrings
    exact Or.inr ⟨not_isSerial_of_sublist htrace, side, [y], w, hw, hlast, hbecomes⟩

end Schedules

section Losses

/-- A high surrogate before a low one. -/
def surrogates : Text := [.ofNat 0xD83D, .ofNat 0xDE00]

/-- The code point that the two are read as. -/
def joined : Text := [.ofNat 0x1F600]

/-- The bytes of another text, kept as surrogates. -/
def smuggled : Text := [.ofNat 0xDCC3, .ofNat 0xDCA9]

/-- An index with one key ID that is changed when it is stored. -/
def changing (keyId : Text) (keys : KeyMap Text) : KeyIndex :=
  ⟨Table.empty.insert "prod" keyId, keys⟩

/-- The surrogates have the stored form of the code point. -/
theorem stands_changing {keys keys' : KeyMap Text} {cluster : Cluster} {m : SecretStore}
    (hb : ∀ setting, (changing surrogates keys).bytesAt setting =
      (changing joined keys').bytesAt setting)
    (henc : (changing joined keys').IsEncodable) (h : (changing surrogates keys).Stands cluster m) :
    (changing joined keys').Stands cluster m := by
  have hsorted : ∀ k : Text, KeyMap.sorted (Table.empty.insert ("prod" : Text) k) =
      [(("prod" : Text), k)] :=
    fun k => List.mergeSort_singleton _
  have htext : KeyIndex.aliasesText (changing surrogates keys).aliases =
      KeyIndex.aliasesText (changing joined keys').aliases := by
    unfold KeyIndex.aliasesText changing
    rw [hsorted, hsorted]
    decide +kernel
  obtain ⟨s, hs, hholds⟩ := h
  exact ⟨s, hs, KeyIndex.holds_of_form htext hb henc hholds⟩

theorem isStorable_prod : (Edit.update "prod" "k1" "a2V5").IsStorable :=
  KeyIndex.isStorable_update (by decide) (Utf8.encode_of_isWellFormed (by decide)) "k1"

theorem isStorable_eu : (Edit.update "eu" "k2" "b2xk").IsStorable :=
  KeyIndex.isStorable_update (by decide) (Utf8.encode_of_isWellFormed (by decide)) "k2"

variable [Json.Nesting] (cluster : Cluster) {m : SecretStore} (hkept : m.IsKept)

include hkept

/-- The update of the pass that saved first is lost if both had loaded before. -/
theorem exists_lost_update (h : m.indexOf cluster = .ok .empty) :
    ∃ schedule,
      let passes := pair cluster (.update "prod" "k1" "a2V5") (.update "eu" "k2" "b2xk")
      let d := (start passes m).after schedule
      d.Succeeds ∧ ∃ y, d.store.indexOf cluster = .ok y ∧ y.aliases.get? "prod" = none := by
  obtain ⟨schedule, z, hsucceeds, hz, hstands⟩ := exists_lost isStorable_prod isStorable_eu hkept h
  obtain ⟨halias, rfl⟩ := KeyIndex.record_aliases hz
  have hclean : (KeyIndex.empty.put "eu" "k2" "b2xk").IsClean :=
    KeyIndex.isClean_put KeyIndex.isClean_empty halias (by decide) (by decide)
  obtain ⟨y, hy, halike⟩ := KeyIndex.indexOf_of_isClean hclean hstands
  exact ⟨schedule, hsucceeds, y, hy, (halike.1 "prod").trans rfl⟩

/-- Even one after the other, passes do not keep texts that their stored form changes. -/
theorem exists_changed_update (h : m.indexOf cluster = .ok .empty) :
    ∃ schedule,
      let d := (start (pair cluster (.delete "eu") (.update "prod" surrogates smuggled)) m).after
        schedule
      d.Succeeds ∧ d.IsSerial ∧ ∃ y, d.store.indexOf cluster = .ok y ∧
        y.aliases.get? "prod" = some joined ∧ y.keys.get? "prod" ≠ some smuggled := by
  have hbytes : Utf8.encode smuggled = .ok [0xC3, 0xA9] := rfl
  have hprod : (Edit.update "prod" surrogates smuggled).IsStorable :=
    KeyIndex.isStorable_update (by decide) hbytes surrogates
  obtain ⟨schedule, y, m', z, z', hsucceeds, hserial, hy, hstands, hz, hz', hlast⟩ :=
    exists_serial (KeyIndex.isStorable_delete "eu") hprod hkept h fun y m' hy hstands => by
      cases hy
      exact ⟨.empty, KeyIndex.indexOf_of_stands_empty hstands rfl⟩
  cases hy
  rw [KeyIndex.indexOf_of_stands_empty hstands rfl] at hz
  cases hz
  obtain ⟨halias, rfl⟩ := KeyIndex.record_aliases hz'
  -- what was written is just as well the form of an index with well-formed texts
  have hclean : (KeyIndex.empty.put "prod" joined [.ofNat 0xE9]).IsClean :=
    KeyIndex.isClean_put KeyIndex.isClean_empty halias (by decide) (by decide)
  have hform : ∀ setting, (KeyIndex.empty.put "prod" surrogates smuggled).bytesAt setting =
      (KeyIndex.empty.put "prod" joined [.ofNat 0xE9]).bytesAt setting := by
    intro setting
    unfold KeyIndex.bytesAt
    refine congrArg _ (funext fun a => ?_)
    rw [KeyIndex.get?_keys_put, KeyIndex.get?_keys_put]
    split
    · rfl
    · rfl
  obtain ⟨v, hv, halike⟩ :=
    KeyIndex.indexOf_of_isClean hclean (stands_changing hform hclean.isEncodable hlast)
  refine ⟨schedule, hsucceeds, hserial, v, hv, (halike.1 "prod").trans rfl, ?_⟩
  rw [halike.2]
  decide

/-- Nor do they keep such texts of other aliases. -/
theorem exists_changed_alias (h : m.indexOf cluster = .ok (changing surrogates .empty)) :
    ∃ schedule,
      let d := (start (pair cluster (.delete "a") (.delete "b")) m).after schedule
      d.Succeeds ∧ d.IsSerial ∧ ∃ y, d.store.indexOf cluster = .ok y ∧
        y.aliases.get? "prod" = some joined := by
  have hnone : ∀ a, (changing joined .empty).keys.get? a = none := fun _ => rfl
  have hlegible : (changing joined .empty).IsLegible := by
    refine ⟨fun a c hc => ?_, fun a k hk => ?_, fun a c bytes hc => ?_⟩
    · cases (hnone a).symm.trans hc
    · rw [changing, Table.get?_insert] at hk
      split at hk
      · next heq =>
        subst heq
        cases hk
        exact ⟨by decide, by decide⟩
      · cases hk
    · cases (hnone a).symm.trans hc
  have hread : ∀ m', (changing surrogates .empty).Stands cluster m' →
      ∃ z, m'.indexOf cluster = .ok z ∧ (changing joined .empty).Reread z ∧ z.IsLegible := by
    intro m' hstands
    refine KeyIndex.reread_of_stands hlegible ?_
    refine stands_changing (fun _ => rfl) (fun a c hc => ?_) hstands
    cases (hnone a).symm.trans hc
  have ha := KeyIndex.isStorable_delete "a"
  have hb := KeyIndex.isStorable_delete "b"
  obtain ⟨schedule, y, m', z, z', hsucceeds, hserial, hy, hstands, hz, hz', hlast⟩ :=
    exists_serial ha hb hkept h fun y m' hy hstands => by
      cases hy
      obtain ⟨z, hz, -⟩ := hread m' hstands
      exact ⟨z, hz⟩
  cases hy
  obtain ⟨v, hv, hreread, hvl⟩ := hread m' hstands
  obtain rfl : v = z := Except.ok.inj (hv.symm.trans hz)
  obtain ⟨u, hu, hlater, -⟩ :=
    KeyIndex.reread_of_stands (KeyIndex.isLegible_of_edit hvl (e := .delete "b") trivial hz') hlast
  refine ⟨schedule, hsucceeds, hserial, u, hu, ?_⟩
  cases hz'
  rw [hlater.aliases, KeyIndex.get?_aliases_forget, if_neg (by decide), hreread.aliases]
  rfl

/-- Nor do they keep a credential without a key ID when no alias is left. -/
theorem exists_dropped_credential {x : KeyIndex} (h : m.indexOf cluster = .ok x)
    (hx : x.isEmpty = true) :
    ∃ schedule,
      let d := (start (pair cluster (.delete "a") (.delete "b")) m).after schedule
      d.Succeeds ∧ d.IsSerial ∧ d.store.indexOf cluster = .ok .empty := by
  have ha := KeyIndex.isStorable_delete "a"
  have hb := KeyIndex.isStorable_delete "b"
  have hforget : (x.forget "a").isEmpty = true := by
    refine (Table.isEmpty_iff _).2 fun a => ?_
    rw [KeyIndex.get?_aliases_forget, (Table.isEmpty_iff _).1 hx, ite_self]
  obtain ⟨schedule, y, m', z, z', hsucceeds, hserial, hy, hstands, hz, hz', hlast⟩ :=
    exists_serial ha hb hkept h fun y m' hy hstands => by
      cases hy
      exact ⟨.empty, KeyIndex.indexOf_of_stands_empty hstands hforget⟩
  cases hy
  rw [KeyIndex.indexOf_of_stands_empty hstands hforget] at hz
  cases hz
  cases hz'
  exact ⟨schedule, hsucceeds, hserial, KeyIndex.indexOf_of_stands_empty hlast rfl⟩

omit hkept

/-- A Secret of a cluster `es`, with what is given of its annotations and data. -/
def storedSecret (annotations : KeyMap Text) (data : KeyMap (List UInt8)) : Secret :=
  ⟨"es-es-remote-api-keys", "ns", .empty, annotations, data, [], [], []⟩

end Losses

/-- Two passes edit different aliases of one cluster, in any interleaving, and both succeed.  If
one of them made all its calls before the other one's first, the index that is loaded afterwards
comes of both edits and shows them; otherwise it comes of the edit of the pass that made the last
call, and all else, the alias of the other pass included, is as it was.  Only a credential without
a key ID can be lost, and only if an index without aliases was saved. -/
theorem load_after_passes [Json.Nesting] (uids : Nat → Text) (calls : List StoreCall)
    (cluster : Cluster) (passes : Bool → EditPass)
    (hcluster : ∀ side, (passes side).cluster.secretKey = cluster.secretKey)
    (hedits : ∀ side, (passes side).edit.IsLegible)
    (hne : (passes false).edit.remote ≠ (passes true).edit.remote)
    (w w' : Surroundings) {x : KeyIndex}
    (hload : (SecretStore.run (KeyIndex.load cluster).run w
      ((SecretStore.empty uids).after calls)).1 = .ok x)
    (hx : ∀ a k, x.aliases.get? a = some k → a.isUnpaired = true ∧ k.isUnpaired = true)
    (schedule : List (Bool × Surroundings))
    (hsucceeds : ((start passes ((SecretStore.empty uids).after calls)).after schedule).Succeeds) :
    let d := (start passes ((SecretStore.empty uids).after calls)).after schedule
    ∃ y, (SecretStore.run (KeyIndex.load cluster).run w' d.store).1 = .ok y ∧
      (d.IsSerial → ∃ side saved,
        x.Becomes [(passes side).edit, (passes !side).edit] saved y ∧
        x.Shows saved [(passes false).edit, (passes true).edit] y) ∧
      (¬ d.IsSerial → ∃ side saved, d.trace.getLast? = some side ∧
        x.Becomes [(passes side).edit] saved y ∧ x.Shows saved [(passes side).edit] y) := by
  have hkept := SecretStore.isKept_after uids calls
  generalize (SecretStore.empty uids).after calls = m₀ at hkept hload hsucceeds ⊢
  intro d
  have hindex : m₀.indexOf cluster = .ok x := (KeyIndex.run_load cluster w m₀).symm.trans hload
  have hsame : ∀ (m : SecretStore) side, m.indexOf (passes side).cluster = m.indexOf cluster := by
    intro m side
    unfold SecretStore.indexOf
    rw [hcluster side]
  have hxl : x.IsLegible := KeyIndex.isLegible_of_indexOf hindex hx
  have hphase : Phase passes m₀ x d := by
    refine phase_after schedule (phase_start m₀ x) hkept ?_ ?_ ?_
    · exact fun s s' => (hcluster s).trans (hcluster s').symm
    · exact fun side => (hsame m₀ side).trans hindex
    · exact fun side y hy => KeyIndex.isLegible_of_edit hxl (hedits side) hy
  rcases indexOf_of_succeeds hphase hsucceeds hxl hedits with
    ⟨hserial, side, saved, y, hy, hbecomes⟩ | ⟨hserial, side, saved, y, hy, hlast, hbecomes⟩
  · rw [hsame] at hy
    have hdistinct : (passes !side).edit.remote ≠ (passes side).edit.remote := by
      cases side with
      | false => exact hne.symm
      | true => exact hne
    have hshows := KeyIndex.shows_of_becomes hbecomes (List.pairwise_pair.2 hdistinct)
    have hboth : ∀ e, e ∈ [(passes side).edit, (passes !side).edit] ↔
        e ∈ [(passes false).edit, (passes true).edit] := by
      intro e
      cases side with
      | false => rfl
      | true => simp [or_comm]
    exact ⟨y, (KeyIndex.run_load cluster w' d.store).trans hy,
      fun _ => ⟨side, saved, hbecomes, KeyIndex.shows_of_mem hshows hboth⟩,
      fun hnot => absurd hserial hnot⟩
  · rw [hsame] at hy
    have hshows := KeyIndex.shows_of_becomes hbecomes (List.pairwise_singleton _ _)
    exact ⟨y, (KeyIndex.run_load cluster w' d.store).trans hy, fun h => absurd h hserial,
      fun _ => ⟨side, saved, hlast, hbecomes, hshows⟩⟩

/-- Two updates, one after the other, of an index without aliases. -/
theorem load_after_passes_on_empty :
    let cluster : Cluster := ⟨"es", "ns", "uid", [], "v1", "Elasticsearch"⟩
    let passes := pair cluster (.update "prod" "k1" "a2V5") (.update "eu" "k2" "b2xk")
    let prior := (SecretStore.empty fun _ => "uid-1").after []
    (∀ side, (passes side).cluster.secretKey = cluster.secretKey) ∧
      (∀ side, (passes side).edit.IsLegible) ∧
      (passes false).edit.remote ≠ (passes true).edit.remote ∧
      (SecretStore.run (KeyIndex.load cluster).run .bare prior).1 = .ok .empty ∧
      (∀ a k, KeyIndex.empty.aliases.get? a = some k →
        a.isUnpaired = true ∧ k.isUnpaired = true) ∧
      ∃ schedule,
        let d := (start passes prior).after schedule
        d.Succeeds ∧ d.IsSerial ∧
          ∃ y, (SecretStore.run (KeyIndex.load cluster).run .bare d.store).1 = .ok y ∧
            (d.IsSerial → ∃ side saved,
              KeyIndex.empty.Becomes [(passes side).edit, (passes !side).edit] saved y ∧
              KeyIndex.empty.Shows saved [(passes false).edit, (passes true).edit] y) ∧
            (¬ d.IsSerial → ∃ side saved, d.trace.getLast? = some side ∧
              KeyIndex.empty.Becomes [(passes side).edit] saved y ∧
              KeyIndex.empty.Shows saved [(passes side).edit] y) := by
  intro cluster passes prior
  have hcluster : ∀ side, (passes side).cluster.secretKey = cluster.secretKey := by
    rintro (_ | _)
    · rfl
    · rfl
  have hlegible : ∀ side, (passes side).edit.IsLegible := by
    rintro (_ | _)
    · exact ⟨by decide, fun bytes => Utf8.decode_of_encode (by decide)⟩
    · exact ⟨by decide, fun bytes => Utf8.decode_of_encode (by decide)⟩
  have hne : (passes false).edit.remote ≠ (passes true).edit.remote := by decide
  have hindex : prior.indexOf cluster = .ok .empty := rfl
  have hload := (KeyIndex.run_load cluster .bare prior).trans hindex
  have hempty : ∀ a k, KeyIndex.empty.aliases.get? a = some k →
      a.isUnpaired = true ∧ k.isUnpaired = true := by
    intro a k hk
    cases hk
  obtain ⟨schedule, y, m', z, z', hsucceeds, hserial, -⟩ :=
    exists_serial isStorable_prod isStorable_eu (SecretStore.isKept_after _ []) hindex
      fun y m' hy hstands => by
        obtain ⟨ha, rfl⟩ := KeyIndex.record_aliases hy
        have hclean : (KeyIndex.empty.put "prod" "k1" "a2V5").IsClean :=
          KeyIndex.isClean_put KeyIndex.isClean_empty ha (by decide) (by decide)
        obtain ⟨z, hz, -⟩ := KeyIndex.indexOf_of_isClean hclean hstands
        exact ⟨z, hz⟩
  exact ⟨hcluster, hlegible, hne, hload, hempty, schedule, hsucceeds, hserial,
    load_after_passes _ [] cluster passes hcluster hlegible hne .bare .bare hload hempty schedule
      hsucceeds⟩

/-- The four ways in which passes that succeed do not show both edits and all else as it was. -/
theorem passes_lose_edits :
    let cluster : Cluster := ⟨"es", "ns", "uid", [], "v1", "Elasticsearch"⟩
    let prior := fun calls => (SecretStore.empty fun _ => "uid-1").after calls
    let load := fun (m : SecretStore) => (SecretStore.run (KeyIndex.load cluster).run .bare m).1
    (∃ schedule,
      let d := (start (pair cluster (.update "prod" "k1" "a2V5") (.update "eu" "k2" "b2xk"))
        (prior [])).after schedule
      d.Succeeds ∧ ∃ y, load d.store = .ok y ∧ y.aliases.get? "prod" = none) ∧
    (∃ schedule,
      let d := (start (pair cluster (.delete "eu") (.update "prod" surrogates smuggled))
        (prior [])).after schedule
      d.Succeeds ∧ d.IsSerial ∧ ∃ y, load d.store = .ok y ∧
        y.aliases.get? "prod" = some joined ∧ y.keys.get? "prod" ≠ some smuggled) ∧
    (∃ x schedule,
      let m := prior [.create (storedSecret (.ofList [(Naming.aliasesKey,
        "\x7b\"prod\":\"" ++ [CodePoint.ofNat 0xD83D] ++ "\\ude00\"\x7d")]) .empty)]
      let d := (start (pair cluster (.delete "a") (.delete "b")) m).after schedule
      load m = .ok x ∧ x.aliases.get? "prod" = some surrogates ∧ d.Succeeds ∧ d.IsSerial ∧
        ∃ y, load d.store = .ok y ∧ y.aliases.get? "prod" = some joined) ∧
    ∃ x schedule,
      let m := prior [.create (storedSecret .empty
        (.ofList [("cluster.remote.ghost.credentials", [98, 50, 120, 107])]))]
      let d := (start (pair cluster (.delete "a") (.delete "b")) m).after schedule
      load m = .ok x ∧ x.keys.get? "ghost" = some "b2xk" ∧ d.Succeeds ∧ d.IsSerial ∧
        ∃ y, load d.store = .ok y ∧ y.keys.get? "ghost" = none := by
  intro cluster prior load
  have hload : ∀ m, load m = m.indexOf cluster := KeyIndex.run_load cluster .bare
  have hkept : ∀ calls, (prior calls).IsKept := SecretStore.isKept_after _
  simp only [hload]
  refine ⟨?_, ?_, ?_, ?_⟩
  · exact exists_lost_update cluster (hkept []) rfl
  · exact exists_changed_update cluster (hkept []) rfl
  · have hm : (prior [.create (storedSecret (.ofList [(Naming.aliasesKey,
        "\x7b\"prod\":\"" ++ [CodePoint.ofNat 0xD83D] ++ "\\ude00\"\x7d")]) .empty)]).indexOf
          cluster = .ok (changing surrogates .empty) :=
      toOption_eq_some_iff.1 (by decide +kernel)
    obtain ⟨schedule, hsucceeds, hserial, hlast⟩ := exists_changed_alias cluster (hkept _) hm
    exact ⟨_, schedule, hm, rfl, hsucceeds, hserial, hlast⟩
  · have hm : (prior [.create (storedSecret .empty
        (.ofList [("cluster.remote.ghost.credentials", [98, 50, 120, 107])]))]).indexOf cluster =
          .ok ⟨.empty, .ofList [(("ghost" : Text), "b2xk")]⟩ :=
      toOption_eq_some_iff.1 (by decide +kernel)
    obtain ⟨schedule, hsucceeds, hserial, hlast⟩ :=
      exists_dropped_credential cluster (hkept _) hm rfl
    exact ⟨_, schedule, hm, rfl, hsucceeds, hserial, .empty, hlast, rfl⟩

end Duo
end CrossClusterKeys
