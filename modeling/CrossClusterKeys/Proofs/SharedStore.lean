import CrossClusterKeys.Proofs.Execution
import CrossClusterKeys.Proofs.Versions

/-!
# Programs over a store that others use

Others may call the store before each call of a program.  What the program had to do with it is
kept as its moments: each of its calls, with the store as it was just then.

**Input.**  A store, and for each call of the program the calls that others make before it.  All
further calls find the store as the program left it.

**Invariant.**  The store has come about by calls, and what others still call is part of what they
were given to call.  Every call of the program keeps it.

**Results.**
* `run_of_ensures`: what a program ensures whatever surrounds it holds of every run.
* `run_alone`: without others, a shared store is the store.
* `within_answer`: a call keeps the invariant.
* `exists_mem_of_between`: what is changed between two calls has been changed by others.
* `next_of_not_isApplied`: a call that is no applied write leaves the store as it was.
-/

namespace CrossClusterKeys

/-- Whether a call can change what is stored. -/
def StoreCall.isWrite : StoreCall → Bool
  | .get .. => false
  | .create _ => true
  | .update _ => true
  | .delete .. => true
  | .close => false

/-- A call, with the store as it was just then. -/
structure Moment where
  call : StoreCall
  store : SecretStore

namespace Moment

/-- The answer to the call. -/
def answer (t : Moment) : t.call.Answer := (SecretStore.answer t.call t.store).1

/-- The store right after the call. -/
def next (t : Moment) : SecretStore := (SecretStore.answer t.call t.store).2

/-- Whether the call is a write that the store has accepted. -/
def isApplied (t : Moment) : Bool := t.call.isWrite && t.call.succeeded t.answer

end Moment

/-- A store between two calls of a program. -/
structure SharedStore where
  store : SecretStore
  /-- What others call before each of the next calls of the program. -/
  others : List (List StoreCall)
  /-- The calls of the program so far, the latest one last. -/
  moments : List Moment

namespace SharedStore

/-- The store as the next call finds it. -/
def now (x : SharedStore) : SecretStore := x.store.after (x.others.headD [])

/-- The answer to the next call of the program, and the store after it. -/
def answer (c : StoreCall) (x : SharedStore) : c.Answer × SharedStore :=
  ((SecretStore.answer c x.now).1,
    { store := (SecretStore.answer c x.now).2
      others := x.others.tail
      moments := x.moments ++ [⟨c, x.now⟩] })

/-- A program over this store, with its writes reported to the log. -/
def run {α : Type} (p : Program Store α) (w : Surroundings) (x : SharedStore) :
    α × Surroundings × SharedStore :=
  (p.serve SecretStore.reported).run answer w x

/-- What a program ensures over a shared store holds of every run over it. -/
theorem run_of_ensures {α : Type} {p : Program Store α} {x : SharedStore}
    {Q : α → SharedStore → Prop} (hp : p.Ensures answer x Q) (w : Surroundings) :
    Q (run p w x).1 (run p w x).2.2 :=
  Program.run_of_ensures (Program.ensures_serve SecretStore.ensures_reported hp) w

/-- A program that is left alone runs over a shared store as it does over the store itself. -/
theorem run_alone {α : Type} (p : Program Store α) (w : Surroundings) (m : SecretStore)
    (moments : List Moment) :
    (run p w ⟨m, [], moments⟩).1 = (SecretStore.run p w m).1 ∧
      (run p w ⟨m, [], moments⟩).2.1 = (SecretStore.run p w m).2.1 ∧
      (run p w ⟨m, [], moments⟩).2.2.store = (SecretStore.run p w m).2.2 := by
  unfold run SecretStore.run
  induction p.serve SecretStore.reported generalizing w m moments with
  | done a => exact ⟨rfl, rfl, rfl⟩
  | ask r k ih =>
    cases r with
    | call c => exact ih _ _ _ _
    | log e => exact ih _ _ _ _
    | configureLog l f => exact ih _ _ _ _
    | pause s => exact ih _ _ _ _
    | currentId => exact ih _ _ _ _
    | setId id => exact ih _ _ _ _
    | drawId => exact ih _ _ _ _

section Others

/-- The store `m'` is what others have made of `m` since the last call of the program. -/
def Between (others : List (List StoreCall)) (m m' : SecretStore) : Prop :=
  ∃ calls ∈ [] :: others, m' = m.after calls

/-- Where the two stores differ, others have made the difference. -/
theorem exists_mem_of_between {others : List (List StoreCall)} {m m' : SecretStore}
    (h : Between others m m') {key : Text × Text}
    (hne : m'.secrets.get? key ≠ m.secrets.get? key) :
    ∃ calls ∈ others, m' = m.after calls ∧ m'.secrets.get? key ≠ m.secrets.get? key := by
  obtain ⟨calls, hmem, hm'⟩ := h
  rcases List.mem_cons.1 hmem with rfl | hmem
  · rw [hm'] at hne
    exact absurd rfl hne
  · exact ⟨calls, hmem, hm', hne⟩

/-- The store has come about by calls, and others call only what they were given to call. -/
structure Within (others : List (List StoreCall)) (x : SharedStore) : Prop where
  reachable : x.store.IsReachable
  subset : x.others ⊆ others

variable {others : List (List StoreCall)} {x : SharedStore} (hx : x.Within others)

include hx

theorem between_now : Between others x.store x.now := by
  refine ⟨x.others.headD [], ?_, rfl⟩
  have hsub := hx.subset
  cases hcalls : x.others with
  | nil => exact List.mem_cons_self
  | cons calls rest =>
    rw [hcalls] at hsub
    exact List.mem_cons_of_mem _ (hsub List.mem_cons_self)

theorem isReachable_now : x.now.IsReachable := SecretStore.isReachable_after hx.reachable _

theorem within_answer (c : StoreCall) : (answer c x).2.Within others where
  reachable := SecretStore.isReachable_answer (isReachable_now hx) c
  subset := fun _ hcalls => hx.subset (List.mem_of_mem_tail hcalls)

end Others

end SharedStore

/-- A call that is no applied write leaves the store as it was. -/
theorem Moment.next_of_not_isApplied {t : Moment} (h : t.isApplied = false) :
    t.next = t.store := by
  obtain ⟨c, m⟩ := t
  cases c with
  | get n s => rfl
  | create s =>
    have hok : (m.create s).1.isOk = false := h
    rcases ha : m.create s with ⟨e | s', m'⟩
    · exact (congrArg Prod.snd ha).trans (SecretStore.create_error ha)
    · rw [ha] at hok
      cases hok
  | update s =>
    have hok : (m.update s).1.isOk = false := h
    rcases ha : m.update s with ⟨e | s', m'⟩
    · exact (congrArg Prod.snd ha).trans (SecretStore.update_error ha)
    · rw [ha] at hok
      cases hok
  | delete n s uid =>
    have hok : (m.delete n s uid).1.isOk = false := h
    rcases ha : m.delete n s uid with ⟨e | s', m'⟩
    · exact (congrArg Prod.snd ha).trans (SecretStore.delete_error ha)
    · rw [ha] at hok
      cases hok
  | close => rfl

end CrossClusterKeys
