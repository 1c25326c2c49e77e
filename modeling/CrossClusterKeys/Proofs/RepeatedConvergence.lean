import CrossClusterKeys.Proofs.LoneWriter
import CrossClusterKeys.Proofs.OwnerReferences

/-!
# A convergence made again

A stored Secret that is outdated gets the expected references by adoption, one after the other.  A
controller among them is dropped again by the next one, so the Secret stays outdated and the same
convergence writes it again.

**Input.**  A store that nobody else uses, an expected Secret whose references have distinct UIDs,
and maybe an owner.

**Shape.**  What one convergence stores is computed from the store before it; the second one writes
if and only if that is outdated.

**Results.**
* `run_converge_alone`: what a convergence results in, what it leaves and when it writes.
* `all_mem_owners_outcome_iff`: the expected references are all stored unless a controller is
  dropped.
* `dropsController_settle_iff`: a controller that is dropped once is dropped each time.
* `converge_twice`: what is stored carries the expected labels, annotations and data; the expected
  references are all there, and the second convergence makes no write, unless a controller is
  dropped.
-/

namespace CrossClusterKeys
namespace Convergence

open SecretStore (keyOf)

variable {m : SecretStore}

section Alone

/-- An attempt at a Secret in a store that nobody else uses. -/
theorem ensures_attempt_alone (hm : m.IsKept) (desired : Secret) :
    (attempt desired).run.Ensures SharedStore.answer ⟨m, [], []⟩ fun r x =>
      ∃ s, r = .ok s ∧ s = outcome desired m ∧ x.store = settle desired m ∧
        ((∀ t ∈ x.moments, t.call.isWrite = false) ↔ IsSettled desired m) := by
  refine Program.ensures_mono
    (ensures_attempt_settle (y := ⟨m, [], []⟩) SharedStore.relays_answer rfl desired hm) ?_
  rintro r x ⟨hreaches, hwrites, rfl | ⟨⟨⟩, -⟩⟩
  refine ⟨_, rfl, rfl, hreaches.store, ?_⟩
  rw [← SharedStore.writes_eq_zero_iff]
  constructor
  · intro hzero
    by_contra hnot
    exact Nat.succ_ne_zero _ ((hwrites hnot).symm.trans hzero)
  · exact hreaches.writes_eq

/-- What a convergence results in, what it leaves and when it writes. -/
theorem run_converge_alone (hm : m.IsKept) (expected : Secret) (owner : Option OwnerReference)
    (attempts : Int) (w : Surroundings) :
    let out := SharedStore.run (converge expected owner attempts).run w ⟨m, [], []⟩
    out.1 = .ok (outcome (expected.desired owner) m) ∧
      out.2.2.store = settle (expected.desired owner) m ∧
      ((∀ t ∈ out.2.2.moments, t.call.isWrite = false) ↔
        IsSettled (expected.desired owner) m) := by
  have hattempt := ensures_attempt_alone hm (expected.desired owner)
  obtain ⟨s, hr, rfl, hstore, hwrites⟩ :=
    SharedStore.run_of_ensures (Action.ensures_retrying hattempt _ 1) w
  exact ⟨hr, hstore, hwrites⟩

end Alone

section Outcome

theorem carries_outcome (desired : Secret) (m : SecretStore) :
    desired.Carries (outcome desired m) := by
  rw [outcome]
  split
  · exact Secret.carries_self _ _ _
  · next s hs =>
    split
    · exact Secret.carries_overlay _ _ _ _
    · next hcurrent => exact Secret.carries_of_not_outdated (Bool.eq_false_iff.2 hcurrent)

theorem outdated_outcome_eq_false_iff (desired : Secret) (m : SecretStore) :
    desired.outdated (outcome desired m) = false ↔
      ∀ r ∈ desired.owners, r ∈ (outcome desired m).owners :=
  Secret.outdated_eq_false_iff.trans (and_iff_right (carries_outcome desired m))

/-- A controller among the expected references is dropped again: the Secret has to be written over
a stored one, and another reference is adopted after the controller. -/
def DropsController (desired : Secret) (m : SecretStore) : Prop :=
  (∃ r ∈ desired.owners.dropLast, r.controller = true) ∧
    ∃ s, m.secrets.get? (keyOf desired) = some s ∧ desired.outdated s = true

/-- The expected references are all stored unless a controller is dropped. -/
theorem all_mem_owners_outcome_iff {desired : Secret}
    (hnodup : (desired.owners.map OwnerReference.uid).Nodup) (m : SecretStore) :
    (∀ r ∈ desired.owners, r ∈ (outcome desired m).owners) ↔ ¬ DropsController desired m := by
  rw [outcome, DropsController]
  cases hs : m.secrets.get? (keyOf desired) with
  | none => exact iff_of_true (fun r hr => hr) (by simp)
  | some s =>
    cases hold : desired.outdated s with
    | true =>
      simp only [hold, if_true]
      change (∀ r ∈ desired.owners, r ∈ OwnerReference.adoptAll desired.owners s.owners) ↔ _
      rw [OwnerReference.all_mem_adoptAll_iff hnodup]
      simp [hold]
    | false =>
      simp only [hold, Bool.false_eq_true, if_false]
      exact iff_of_true (Secret.outdated_eq_false_iff.1 hold).2 (by simp [hold])

/-- A controller that is dropped once is dropped each time. -/
theorem dropsController_settle_iff {desired : Secret}
    (hnodup : (desired.owners.map OwnerReference.uid).Nodup) (hm : m.IsKept) :
    DropsController desired (settle desired m) ↔ DropsController desired m := by
  have hstays := (outdated_outcome_eq_false_iff desired m).trans
    (all_mem_owners_outcome_iff hnodup m)
  constructor
  · rintro ⟨-, s, hs, hold⟩
    cases (get?_settle hm desired).symm.trans hs
    rw [← Bool.not_eq_false, hstays] at hold
    exact Classical.not_not.1 hold
  · intro hdrops
    refine ⟨hdrops.1, _, get?_settle hm desired, ?_⟩
    rw [← Bool.not_eq_false, hstays]
    exact fun hnot => hnot hdrops

/-- With an owner the only controller is adopted last. -/
theorem dropsController_desired_iff (expected : Secret) (owner : Option OwnerReference)
    (m : SecretStore) :
    DropsController (expected.desired owner) m ↔ owner = none ∧ DropsController expected m := by
  cases owner with
  | none => exact (and_iff_right rfl).symm
  | some o =>
    refine iff_of_false ?_ (by simp)
    rintro ⟨⟨r, hr, hcontroller⟩, -⟩
    have hplain := OwnerReference.controller_of_mem_dropLast_adopt o expected.owners r hr
    rw [hcontroller] at hplain
    cases hplain

end Outcome

/-- The first convergence stores a Secret that carries the expected labels, annotations and data.
All expected references are there, and the second convergence makes no write, unless a controller
among them is dropped. -/
theorem converge_twice {expected : Secret}
    (hexpected : (expected.owners.map OwnerReference.uid).Nodup) (owner : Option OwnerReference)
    (attempts : Int) (hm : m.IsKept) (w w' : Surroundings) :
    let desired := expected.desired owner
    let first := SharedStore.run (converge expected owner attempts).run w ⟨m, [], []⟩
    let second := SharedStore.run (converge expected owner attempts).run w'
      ⟨first.2.2.store, [], []⟩
    ∃ s, first.1 = .ok s ∧ first.2.2.store.secrets.get? (keyOf expected) = some s ∧
      desired.Carries s ∧
      ((∀ r ∈ desired.owners, r ∈ s.owners) ↔ ¬ (owner = none ∧ DropsController expected m)) ∧
      ((∀ t ∈ second.2.2.moments, t.call.isWrite = false) ↔
        ¬ (owner = none ∧ DropsController expected m)) := by
  intro desired first second
  obtain ⟨hresult, hstore, -⟩ := run_converge_alone hm expected owner attempts w
  have hm' : first.2.2.store.IsKept := hstore.symm ▸ isKept_settle hm desired
  -- The second convergence finds what the first one has stored, and writes if that is outdated.
  obtain ⟨-, -, hwrites⟩ := run_converge_alone hm' expected owner attempts w'
  have hstays := all_mem_owners_outcome_iff (Secret.nodup_desired hexpected owner) m
  rw [dropsController_desired_iff] at hstays
  refine ⟨outcome desired m, hresult, ?_, carries_outcome desired m, hstays, hwrites.trans ?_⟩
  · rw [hstore]
    exact get?_settle hm desired
  · rw [hstore, isSettled_settle_iff hm, outdated_outcome_eq_false_iff]
    exact hstays

/-- The controller among the expected references gives way to the owner, and the other expected
reference stays. -/
theorem converge_twice_owned :
    let owner : OwnerReference := ⟨"v1", "Elasticsearch", "es", "uid", true, true⟩
    let former : OwnerReference := ⟨"v1", "Pod", "p", "uid-2", true, false⟩
    let other : OwnerReference := ⟨"v1", "ConfigMap", "c", "uid-3", false, false⟩
    let expected : Secret :=
      ⟨"s", "ns", .empty, .empty, Table.empty.insert "k" [2], [former, other], [], []⟩
    let stored : Secret := ⟨"s", "ns", .empty, .empty, Table.empty.insert "k" [1], [], [], []⟩
    let first := SharedStore.run (converge expected (some owner) 3).run .bare
      ⟨(SecretStore.empty fun _ => "uid-1").after [.create stored], [], []⟩
    let second := SharedStore.run (converge expected (some owner) 3).run .bare
      ⟨first.2.2.store, [], []⟩
    (expected.owners.map OwnerReference.uid).Nodup ∧
      (expected.desired (some owner)).owners = [other, owner] ∧
      ∃ s, first.1 = .ok s ∧ (∀ r ∈ [other, owner], r ∈ s.owners) ∧
        ∀ t ∈ second.2.2.moments, t.call.isWrite = false := by
  intro owner former other expected stored first second
  have hexpected : (expected.owners.map OwnerReference.uid).Nodup := by decide
  have hkept := SecretStore.isKept_after (fun _ => "uid-1") [.create stored]
  have howned : ¬ (some owner = none ∧ DropsController expected
      ((SecretStore.empty fun _ => "uid-1").after [.create stored])) :=
    fun h => Option.some_ne_none _ h.1
  obtain ⟨s, hs, -, -, hstays, hwrites⟩ :=
    converge_twice hexpected (some owner) 3 hkept .bare .bare
  exact ⟨hexpected, rfl, s, hs, hstays.2 howned, hwrites.2 howned⟩

/-- Without an owner the controller among the expected references is dropped, and the second
convergence writes again. -/
theorem converge_twice_drops :
    let controller : OwnerReference := ⟨"v1", "Pod", "p", "uid-2", true, false⟩
    let other : OwnerReference := ⟨"v1", "ConfigMap", "c", "uid-3", false, false⟩
    let expected : Secret :=
      ⟨"s", "ns", .empty, .empty, Table.empty.insert "k" [2], [controller, other], [], []⟩
    let stored : Secret := ⟨"s", "ns", .empty, .empty, Table.empty.insert "k" [1], [], [], []⟩
    let first := SharedStore.run (converge expected none 3).run .bare
      ⟨(SecretStore.empty fun _ => "uid-1").after [.create stored], [], []⟩
    let second := SharedStore.run (converge expected none 3).run .bare ⟨first.2.2.store, [], []⟩
    OwnerReference.Admissible expected.owners ∧
      (∃ s, first.1 = .ok s ∧ s.owners = [other] ∧
        first.2.2.store.secrets.get? ("ns", "s") = some s) ∧
      ∃ t ∈ second.2.2.moments, t.call.isWrite = true := by
  intro controller other expected stored first second
  have hmem {l : List Moment} (h : 1 < l.length) : l[1] ∈ l := List.getElem_mem h
  exact ⟨⟨by decide, by decide⟩, ⟨_, rfl, rfl, rfl⟩, _, hmem (by decide), rfl⟩

end Convergence
end CrossClusterKeys
