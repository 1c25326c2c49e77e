import CrossClusterKeys.SecretStore

/-!
# States of a store in memory

**Invariant.**  Every Secret is stored under its own namespace and name.  It holds of the store
without Secrets and is kept by every call, so it holds after any history of calls.

**Results.**
* `answer_cases`: what one call can do to a store.
* `isKept_after`: the invariant holds after any history.
* `create_eq`, `update_eq`, `delete_eq`: what the writes do when nothing stands against them.
* `create_of_some`, `update_of_none`, `update_of_not_isCurrent`, `delete_of_none`,
  `delete_of_uid_ne`: why a write is refused, and that nothing has changed then.
-/

namespace CrossClusterKeys
namespace SecretStore

/-- The store after some calls, whoever made them. -/
def after (m : SecretStore) (calls : List StoreCall) : SecretStore :=
  calls.foldl (fun m c => (answer c m).2) m

/-- Every Secret is stored under its own namespace and name. -/
def IsKept (m : SecretStore) : Prop := ∀ key s, m.secrets.get? key = some s → keyOf s = key

section Steps

/-- What one call can do to a store: nothing, a Secret of the next version is put in, or one is
taken out. -/
theorem answer_cases (c : StoreCall) (m : SecretStore) :
    (answer c m).2 = m ∨
      (∃ s, (answer c m).2.secrets = m.secrets.insert (keyOf s) s ∧ s.version = m.nextVersion ∧
        (answer c m).2.versions = m.versions + 1) ∨
      ∃ key, (answer c m).2.secrets = m.secrets.erase key ∧
        (answer c m).2.versions = m.versions := by
  cases c with
  | get n s => exact Or.inl rfl
  | create s =>
    rw [answer, create]
    split
    · exact Or.inl rfl
    · exact Or.inr (Or.inl ⟨m.newborn s, rfl, rfl, rfl⟩)
  | update s =>
    rw [answer, update]
    split
    · exact Or.inl rfl
    · next current _ =>
      split
      · exact Or.inr (Or.inl ⟨m.successor current s, rfl, rfl, rfl⟩)
      · exact Or.inl rfl
  | delete n s uid =>
    rw [answer, delete]
    split
    · exact Or.inl rfl
    · split
      · split
        · exact Or.inr (Or.inr ⟨_, rfl, rfl⟩)
        · exact Or.inl rfl
      · exact Or.inr (Or.inr ⟨_, rfl, rfl⟩)
  | close => exact Or.inl rfl

theorem isKept_empty (uids : Nat → Text) : (empty uids).IsKept := by
  intro key s h
  cases h

theorem isKept_insert {m n : SecretStore} (hm : m.IsKept) {s : Secret}
    (h : n.secrets = m.secrets.insert (keyOf s) s) : n.IsKept := by
  intro key t ht
  rw [h, Table.get?_insert] at ht
  split at ht
  · next hk =>
    cases ht
    exact hk
  · exact hm key t ht

theorem isKept_erase {m n : SecretStore} (hm : m.IsKept) {key : Text × Text}
    (h : n.secrets = m.secrets.erase key) : n.IsKept := by
  intro key' t ht
  rw [h, Table.get?_erase] at ht
  split at ht
  · cases ht
  · exact hm key' t ht

/-- Every call keeps the invariant. -/
theorem isKept_answer {m : SecretStore} (hm : m.IsKept) (c : StoreCall) :
    (answer c m).2.IsKept := by
  rcases answer_cases c m with h | ⟨s, h, -, -⟩ | ⟨key, h, -⟩
  · rw [h]
    exact hm
  · exact isKept_insert hm h
  · exact isKept_erase hm h

/-- The invariant holds after any history. -/
theorem isKept_after (uids : Nat → Text) (calls : List StoreCall) :
    ((empty uids).after calls).IsKept := by
  have key : ∀ (calls : List StoreCall) (m : SecretStore), m.IsKept → (m.after calls).IsKept := by
    intro calls
    induction calls with
    | nil => exact fun m hm => hm
    | cons c calls ih => exact fun m hm => ih _ (isKept_answer hm c)
  exact key calls _ (isKept_empty uids)

end Steps

section Calls

variable {m : SecretStore}

theorem get_of_some {n name : Text} {s : Secret} (h : m.secrets.get? (n, name) = some s) :
    m.get n name = .ok s := by
  rw [get, h]

theorem get_of_none {n name : Text} (h : m.secrets.get? (n, name) = none) :
    m.get n name = .error (missing (namespaced n name)) := by
  rw [get, h]

theorem isNotFound_missing (resource : Text) : (missing resource).isNotFound = true := rfl

theorem isNotFound_clash (resource reason : Text) : (clash resource reason).isNotFound = false :=
  rfl

/-- A Secret whose name is free is created. -/
theorem create_eq {s : Secret} (h : m.secrets.get? (keyOf s) = none) :
    ∃ n, m.create s = (.ok (m.newborn s), n) ∧
      n.secrets = m.secrets.insert (keyOf (m.newborn s)) (m.newborn s) := by
  rw [create, h]
  exact ⟨_, rfl, rfl⟩

/-- A Secret of the stored version replaces the stored one. -/
theorem update_eq {s current : Secret} (h : m.secrets.get? (keyOf s) = some current)
    (hv : s.version = current.version) :
    ∃ n, m.update s = (.ok (m.successor current s), n) ∧
      n.secrets = m.secrets.insert (keyOf (m.successor current s)) (m.successor current s) := by
  have hc : isCurrent current s = true := by
    simp [isCurrent, hv]
  simp only [update, h, hc, if_true]
  exact ⟨_, rfl, rfl⟩

/-- A Secret of the stored UID is removed. -/
theorem delete_eq {n name : Text} {current : Secret}
    (h : m.secrets.get? (n, name) = some current) :
    ∃ m', m.delete n name (some current.uid) = (.ok (), m') ∧
      m'.secrets = m.secrets.erase (n, name) := by
  simp only [delete, h, if_true]
  exact ⟨_, rfl, rfl⟩

section Refusals

variable {s t : Secret} {n name : Text}

theorem create_of_some (h : m.secrets.get? (keyOf s) = some t) :
    m.create s = (.error (clash s.namespacedName "secret already exists"), m) := by
  rw [create, h]

theorem update_of_none (h : m.secrets.get? (keyOf s) = none) :
    m.update s = (.error (missing s.namespacedName), m) := by
  rw [update, h]

theorem update_of_not_isCurrent (h : m.secrets.get? (keyOf s) = some t)
    (hc : isCurrent t s = false) :
    ∃ reason, m.update s = (.error (clash s.namespacedName reason), m) := by
  simp only [update, h, hc, Bool.false_eq_true, if_false]
  exact ⟨_, rfl⟩

theorem delete_of_none {uid : Option Text} (h : m.secrets.get? (n, name) = none) :
    m.delete n name uid = (.error (missing (namespaced n name)), m) := by
  rw [delete, h]

theorem delete_of_uid_ne {uid : Text} (h : m.secrets.get? (n, name) = some t)
    (hne : uid ≠ t.uid) :
    ∃ reason, m.delete n name (some uid) = (.error (clash (namespaced n name) reason), m) := by
  simp only [delete, h, if_neg hne]
  exact ⟨_, rfl⟩

end Refusals

end Calls

end SecretStore
end CrossClusterKeys
