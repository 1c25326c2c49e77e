import CrossClusterKeys.Proofs.Rereading
import CrossClusterKeys.Proofs.Transactions

/-!
# Two passes over one store

Two passes edit one alias each in the index of one cluster.  They make their requests in any order,
and each of them is answered by the store as it is by then.

**Input.**  A store, two passes, and a schedule that says which of them makes its next request, and
in which surroundings.

**Results.**
* `after_alone`: moves of one side leave the program of the other one as it is.
* `exists_serial`: one pass can make all its moves before the other one's first.
* `exists_lost`: both passes can load the index before either of them saves.
-/

namespace CrossClusterKeys

open SecretStore (answer)

/-- Two passes over one store. -/
structure Duo where
  programs : Bool → Program Store (Except Raised Unit)
  store : SecretStore
  /-- Which pass made each call, the latest one last. -/
  trace : List Bool

namespace Duo

/-- Both passes before their first request. -/
def start [Json.Nesting] (passes : Bool → EditPass) (m : SecretStore) : Duo :=
  ⟨fun side => (passes side).program, m, []⟩

/-- The pass of one side makes its next request, in some surroundings. -/
def move (d : Duo) (turn : Bool × Surroundings) : Duo :=
  let next := (d.programs turn.1).advance answer turn.2 d.store
  { programs := fun side => if side = turn.1 then next.1 else d.programs side
    store := next.2
    trace := if (d.programs turn.1).isCalling then d.trace ++ [turn.1] else d.trace }

/-- The two passes after the moves of a schedule. -/
def after (d : Duo) (schedule : List (Bool × Surroundings)) : Duo := schedule.foldl move d

/-- Both passes have ended without a failure. -/
def Succeeds (d : Duo) : Prop := ∀ side, d.programs side = .done (.ok ())

/-- One pass made all its calls before the other one's first. -/
def IsSerial (d : Duo) : Prop :=
  ∃ side n k, d.trace = List.replicate n side ++ List.replicate k (!side)

section Moves

variable (d : Duo) (turn : Bool × Surroundings)

theorem programs_move_self :
    (d.move turn).programs turn.1 =
      ((d.programs turn.1).advance answer turn.2 d.store).1 := if_pos rfl

theorem programs_move_other {side : Bool} (h : side ≠ turn.1) :
    (d.move turn).programs side = d.programs side := if_neg h

theorem trace_move :
    (d.move turn).trace = d.trace ∨ (d.move turn).trace = d.trace ++ [turn.1] := by
  unfold move
  simp only
  split
  · exact Or.inr rfl
  · exact Or.inl rfl

variable {d turn}

theorem mem_trace_move {side : Bool} (h : side ∈ d.trace) : side ∈ (d.move turn).trace := by
  rcases trace_move d turn with ht | ht
  · exact ht ▸ h
  · rw [ht]
    exact List.mem_append_left _ h

theorem sublist_trace_move {sides : List Bool} (h : sides.Sublist d.trace) :
    sides.Sublist (d.move turn).trace := by
  rcases trace_move d turn with ht | ht
  · exact ht ▸ h
  · rw [ht]
    exact h.trans (List.sublist_append_left _ _)

end Moves

section Alone

theorem after_append (d : Duo) (first second : List (Bool × Surroundings)) :
    d.after (first ++ second) = (d.after first).after second := List.foldl_append

/-- The moves of one side alone. -/
theorem after_alone (d : Duo) (side : Bool) (ws : List Surroundings) :
    let d' := d.after (ws.map fun w => (side, w))
    (d'.programs side, d'.store) =
        ws.foldl (fun q w => q.1.advance answer w q.2) (d.programs side, d.store) ∧
      d'.programs (!side) = d.programs (!side) ∧
      ∃ n, d'.trace = d.trace ++ List.replicate n side := by
  induction ws generalizing d with
  | nil => exact ⟨rfl, rfl, 0, (List.append_nil _).symm⟩
  | cons w ws ih =>
    obtain ⟨hself, hother, n, htrace⟩ := ih (d.move (side, w))
    refine ⟨hself.trans ?_, hother.trans ?_, ?_⟩
    · rw [programs_move_self d (side, w)]
      rfl
    · exact programs_move_other d (side, w) (Bool.not_ne_self side)
    · rcases trace_move d (side, w) with ht | ht
      · exact ⟨n, htrace.trans (by rw [ht])⟩
      · refine ⟨n + 1, htrace.trans ?_⟩
        rw [ht, List.append_assoc, List.replicate_succ]
        rfl

/-- One side alone has gone on, and has ended with its index saved. -/
structure Ends (side : Bool) (y : KeyIndex) (cluster : Cluster) (d d' : Duo) : Prop where
  result : d'.programs side = .done (.ok ())
  other : d'.programs (!side) = d.programs (!side)
  trace : ∃ n, d'.trace = d.trace ++ List.replicate n side
  saved : y.Saved cluster d.store d'.store

/-- A side that is left alone ends as it ensures. -/
theorem exists_ends {d : Duo} (side : Bool) {p : Program Store (Except Raised Unit)}
    (hp : d.programs side = p) {y : KeyIndex} {cluster : Cluster}
    (h : p.Ensures answer d.store fun r m => r = .ok () ∧ y.Saved cluster d.store m) :
    ∃ schedule, Ends side y cluster d (d.after schedule) := by
  subst hp
  obtain ⟨ws, hws⟩ := Program.exists_advances (h := answer) (d.programs side) .bare d.store
  obtain ⟨hself, hother, htrace⟩ := after_alone d side ws
  obtain ⟨hok, hsaved⟩ := Program.run_of_ensures h Surroundings.bare
  rw [hws, Prod.mk.injEq] at hself
  refine ⟨_, ?_, hother, htrace, ?_⟩
  · rw [hself.1, hok]
  · rw [hself.2]
    exact hsaved

/-- Two passes over one cluster. -/
def pair (cluster : Cluster) (first second : Edit) : Bool → EditPass
  | false => ⟨first, cluster, 3⟩
  | true => ⟨second, cluster, 3⟩

variable [Json.Nesting] {first second : Edit} (hfirst : first.IsStorable)
    (hsecond : second.IsStorable)
  {m : SecretStore} (hkept : m.IsKept) {cluster : Cluster} {x : KeyIndex}
  (hx : m.indexOf cluster = .ok x)

include hfirst hsecond hkept hx

/-- One pass after the other: the second one loads what the first one saved. -/
theorem exists_serial
    (hread : ∀ y m', first.apply x = .ok y → y.Stands cluster m' →
      ∃ z, m'.indexOf cluster = .ok z) :
    ∃ schedule y m' z z',
      let d := (start (pair cluster first second) m).after schedule
      d.Succeeds ∧ d.IsSerial ∧ first.apply x = .ok y ∧ y.Stands cluster m' ∧
        m'.indexOf cluster = .ok z ∧ second.apply z = .ok z' ∧ z'.Stands cluster d.store := by
  obtain ⟨y, hy, hyenc⟩ := hfirst x (SecretStore.isEncodable_of_indexOf hx)
  obtain ⟨before, hbefore⟩ := exists_ends (d := start (pair cluster first second) m) false rfl
    (ensures_pass (pair cluster first second false) hx hy hyenc hkept .bare)
  obtain ⟨z, hz⟩ := hread y _ hy hbefore.saved.stands
  obtain ⟨z', hz', hzenc⟩ := hsecond z (SecretStore.isEncodable_of_indexOf hz)
  have hrest := ensures_pass (pair cluster first second true) hz hz' hzenc hbefore.saved.kept .bare
  obtain ⟨after, hafter⟩ := exists_ends true hbefore.other hrest
  obtain ⟨n, hn⟩ := hbefore.trace
  obtain ⟨k, hk⟩ := hafter.trace
  refine ⟨before ++ after, y, ((start (pair cluster first second) m).after before).store, z, z', ?_⟩
  rw [after_append]
  refine ⟨?_, ⟨false, n, k, ?_⟩, hy, hbefore.saved.stands, hz, hz', hafter.saved.stands⟩
  · rintro (_ | _)
    · exact hafter.other.trans hbefore.result
    · exact hafter.result
  · rw [hk, hn]
    rfl

/-- Both passes load the same index: what the second one saves is all that is left. -/
theorem exists_lost :
    ∃ schedule z,
      let d := (start (pair cluster first second) m).after schedule
      d.Succeeds ∧ second.apply x = .ok z ∧ z.Stands cluster d.store := by
  obtain ⟨y, hy, hyenc⟩ := hfirst x (SecretStore.isEncodable_of_indexOf hx)
  obtain ⟨z, hz, hzenc⟩ := hsecond x (SecretStore.isEncodable_of_indexOf hx)
  let loaded := (start (pair cluster first second) m).after [(false, .bare), (true, .bare)]
  obtain ⟨before, hbefore⟩ := exists_ends (d := loaded) false rfl
    (ensures_pass (pair cluster first second false) hx hy hyenc hkept .bare)
  have hrest := ensures_pass (pair cluster first second true) hx hz hzenc hbefore.saved.kept .bare
  obtain ⟨after, hafter⟩ := exists_ends true hbefore.other hrest
  refine ⟨[(false, .bare), (true, .bare)] ++ (before ++ after), z, ?_⟩
  rw [after_append, after_append]
  refine ⟨?_, hz, hafter.saved.stands⟩
  rintro (_ | _)
  · exact hafter.other.trans hbefore.result
  · exact hafter.result

end Alone

end Duo
end CrossClusterKeys
