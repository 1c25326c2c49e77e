import CrossClusterKeys.Proofs.StoreStates
import CrossClusterKeys.Proofs.Tables

/-!
# What a merged Secret carries

A Secret carries an expected one when it has the expected labels and annotations, whatever else it
has, and exactly the expected data.

**Results.**
* `carries_overlay`: what is written over a stored Secret carries the expected one.
* `outdated_eq_false_iff`: a stored Secret needs no write if it carries it and has its owners.
* `not_outdated_overlay`: what was written needs no further write.
* `merges_overlay`: what is changed by the write and what is kept.
-/

namespace CrossClusterKeys
namespace Secret

/-- The expected labels and annotations and exactly the expected data are there. -/
structure Carries (expected s : Secret) : Prop where
  labels : ∀ k v, expected.labels.get? k = some v → s.labels.get? k = some v
  annotations : ∀ k v, expected.annotations.get? k = some v → s.annotations.get? k = some v
  data : ∀ k, s.data.get? k = expected.data.get? k

/-- The Secrets are the same but for the order of their data entries. -/
inductive Reordered : Secret → Secret → Prop
  | intro {s : Secret} {data : KeyMap (List UInt8)} (h : ∀ k, s.data.get? k = data.get? k) :
      Reordered s { s with data := data }

theorem carries_self (s : Secret) (uid version : Text) :
    s.Carries { s with uid := uid, version := version } :=
  ⟨fun _ _ h => h, fun _ _ h => h, fun _ => rfl⟩

/-- What is written over a stored Secret carries the expected one. -/
theorem carries_overlay (expected stored : Secret) (uid version : Text) :
    expected.Carries { expected.overlay stored with uid := uid, version := version } where
  labels k v h := by
    change (stored.labels.overlay expected.labels).get? k = some v
    rw [Table.get?_overlay, h, Option.some_or]
  annotations k v h := by
    change (stored.annotations.overlay expected.annotations).get? k = some v
    rw [Table.get?_overlay, h, Option.some_or]
  data _ := rfl

/-- A stored Secret needs no write if it carries the expected one and has its owners. -/
theorem outdated_eq_false_iff {expected stored : Secret} :
    expected.outdated stored = false ↔
      expected.Carries stored ∧ ∀ r ∈ expected.owners, r ∈ stored.owners := by
  simp only [outdated, Bool.or_eq_false_iff, Bool.not_eq_false', Table.isSubmapOf_iff,
    Table.sameAs_iff, List.all_eq_true, List.contains_iff_mem]
  constructor
  · rintro ⟨⟨⟨hlabels, hannotations⟩, hdata⟩, howners⟩
    exact ⟨⟨hlabels, hannotations, fun k => (hdata k).symm⟩, howners⟩
  · rintro ⟨hcarries, howners⟩
    exact ⟨⟨⟨hcarries.labels, hcarries.annotations⟩, fun k => (hcarries.data k).symm⟩, howners⟩

/-- The order of the expected data makes no difference to what has to be written. -/
theorem Reordered.outdated_eq {s s' : Secret} (h : s.Reordered s') (stored : Secret) :
    s'.outdated stored = s.outdated stored := by
  obtain ⟨hdata⟩ := h
  unfold outdated
  congr 2
  rw [Bool.eq_iff_iff, Bool.not_eq_true', Bool.not_eq_true', ← Bool.not_eq_true,
    ← Bool.not_eq_true, Table.sameAs_iff, Table.sameAs_iff]
  simp only [hdata]

theorem Reordered.desired {s s' : Secret} (h : s.Reordered s') (owner : Option OwnerReference) :
    (s.desired owner).Reordered (s'.desired owner) := by
  obtain ⟨hdata⟩ := h
  exact .intro (s := s.desired owner) hdata

theorem Reordered.overlay {s s' : Secret} (h : s.Reordered s') (stored : Secret) :
    (s.overlay stored).Reordered (s'.overlay stored) := by
  obtain ⟨hdata⟩ := h
  exact .intro (s := s.overlay stored) hdata

/-- A stored Secret that needs no write carries the expected one already. -/
theorem carries_of_not_outdated {expected stored : Secret}
    (h : expected.outdated stored = false) : expected.Carries stored :=
  (outdated_eq_false_iff.1 h).1

theorem carries_of_desired {expected s : Secret} {owner : Option OwnerReference}
    (h : (expected.desired owner).Carries s) : expected.Carries s :=
  ⟨h.labels, h.annotations, h.data⟩

/-- A Secret that was created needs no further write. -/
theorem not_outdated_self (s : Secret) (uid version : Text) :
    s.outdated { s with uid := uid, version := version } = false :=
  outdated_eq_false_iff.2 ⟨s.carries_self uid version, fun _ h => h⟩

section Owners

variable {expected : Secret} (howners : expected.owners = []) (owner : Option OwnerReference)

include howners

theorem owners_desired : (expected.desired owner).owners = owner.toList := by
  cases owner with
  | none => exact howners
  | some o =>
    change o.adopt expected.owners = [o]
    rw [howners]
    rfl

theorem owners_overlay (stored : Secret) :
    ((expected.desired owner).overlay stored).owners =
      match owner with
      | none => stored.owners
      | some o => o.adopt stored.owners := by
  change (expected.desired owner).owners.foldl _ _ = _
  rw [owners_desired howners]
  cases owner <;> rfl

/-- What was written over a stored Secret needs no further write. -/
theorem not_outdated_overlay (stored : Secret) (uid version : Text) :
    (expected.desired owner).outdated
      { (expected.desired owner).overlay stored with uid := uid, version := version } = false := by
  refine outdated_eq_false_iff.2 ⟨carries_overlay _ _ _ _, ?_⟩
  intro r hr
  change r ∈ ((expected.desired owner).overlay stored).owners
  rw [owners_desired howners] at hr
  rw [owners_overlay howners]
  cases owner with
  | none => cases hr
  | some o =>
    obtain rfl := List.mem_singleton.1 hr
    exact (OwnerReference.mem_adopt_iff r r _).2 (Or.inl rfl)

end Owners

section Places

variable {m : SecretStore} {expected stored : Secret} (hm : m.IsKept)
  (hs : m.secrets.get? (SecretStore.keyOf expected) = some stored)

include hm hs

theorem keyOf_overlay :
    SecretStore.keyOf (expected.overlay stored) = SecretStore.keyOf expected :=
  (hm _ _ hs : SecretStore.keyOf stored = SecretStore.keyOf expected)

/-- What is written over a stored Secret is accepted. -/
theorem update_overlay_eq :
    let s := m.successor stored (expected.overlay stored)
    ∃ n, m.update (expected.overlay stored) = (.ok s, n) ∧
      n.secrets = m.secrets.insert (SecretStore.keyOf s) s := by
  refine SecretStore.update_eq ?_ rfl
  rw [keyOf_overlay hm hs]
  exact hs

end Places

/-- `s'` is what merging `expected` and its owner makes of `s`. -/
structure Merges (expected : Secret) (owner : Option OwnerReference) (s s' : Secret) : Prop where
  labels_kept : ∀ k, expected.labels.get? k = none → s'.labels.get? k = s.labels.get? k
  labels_expected : ∀ k v, expected.labels.get? k = some v → s'.labels.get? k = some v
  annotations_kept :
    ∀ k, expected.annotations.get? k = none → s'.annotations.get? k = s.annotations.get? k
  annotations_expected :
    ∀ k v, expected.annotations.get? k = some v → s'.annotations.get? k = some v
  data : s'.data = expected.data
  uid : s'.uid = s.uid
  owners_none : owner = none → s'.owners = s.owners
  /-- The owner comes after the references that are no controllers and not its own. -/
  owners_some : ∀ o, owner = some o →
    s'.owners = s.owners.filter (fun r => r.uid ≠ o.uid && !r.controller) ++ [o]

theorem merges_overlay {expected : Secret} (howners : expected.owners = [])
    (owner : Option OwnerReference) (stored : Secret) (version : Text) :
    expected.Merges owner stored { (expected.desired owner).overlay stored with
      uid := stored.uid, version := version } where
  labels_kept _ h := Table.get?_overlay_of_none h
  labels_expected := (carries_of_desired (carries_overlay _ _ _ _)).labels
  annotations_kept _ h := Table.get?_overlay_of_none h
  annotations_expected := (carries_of_desired (carries_overlay _ _ _ _)).annotations
  data := rfl
  uid := rfl
  owners_none h := by
    subst h
    exact owners_overlay howners none stored
  owners_some o h := by
    subst h
    exact owners_overlay howners (some o) stored

end Secret
end CrossClusterKeys
