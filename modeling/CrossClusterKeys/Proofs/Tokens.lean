import CrossClusterKeys.Proofs.Incarnations
import CrossClusterKeys.Proofs.SharedStore

/-!
# Versions and UIDs over a history

Whoever calls a store sees Secrets with a version and a UID.  The version tells one state of a
Secret from all others that the store ever has, and the UID one Secret from all others, also if a
Secret is deleted and another one is created under its name.

**Input.**  The Secrets a store starts with, and calls of whomever.  UIDs are drawn once.

**Proof shape.**  `Moment.effect` says what one call can do.  A Secret that is found after some
calls was there before them or has a version given since, and a version belongs to one name.

**Results.**
* `stores_or_removes`, `get?_next_of_ne`: what an accepted write does, and what it leaves alone.
* `key_eq_of_version_eq`: no version is stored under two names.
* `found_after_change`: what is found after an accepted write has a version given from it on.
* `exists_uid_after`: a UID stays until its Secret is deleted.
* `version_ne_of_mem_before`, `exists_uid_of_not_removes`, `uid_ne_of_removes`,
  `guarded_of_response`: what follows at each place of a history.
* `tokensTell_history`: all of this for a whole history, and what it means for an update.
-/

namespace CrossClusterKeys

open SecretStore (keyOf)

/-- The namespace and name of the Secret that a call is about. -/
def StoreCall.key? : StoreCall → Option (Text × Text)
  | .get n name => some (n, name)
  | .create s => some (keyOf s)
  | .update s => some (keyOf s)
  | .delete n name _ => some (n, name)
  | .close => none

/-- The Secret that a call was answered with. -/
def StoreCall.secret? : (c : StoreCall) → c.Answer → Option Secret
  | .get .., a => Except.toOption (α := Secret) a
  | .create _, a => Except.toOption (α := Secret) a
  | .update _, a => Except.toOption (α := Secret) a
  | .delete .., _ => none
  | .close, _ => none

namespace Moment

/-- The Secret that the call was answered with. -/
def response? (t : Moment) : Option Secret := t.call.secret? t.answer

/-- The Secret that an accepted creation or update has stored. -/
def stored? (t : Moment) : Option Secret := if t.call.isWrite then t.response? else none

/-- The call is an accepted deletion of the Secret of a name. -/
def Removes (t : Moment) (key : Text × Text) : Prop :=
  t.isApplied = true ∧ ∃ uid, t.call = .delete key.1 key.2 uid

/-- What an accepted creation or update does. -/
structure Stores (t : Moment) (s : Secret) : Prop where
  applied : t.isApplied = true
  key : t.call.key? = some (keyOf s)
  secrets : t.next.secrets = t.store.secrets.insert (keyOf s) s
  version : s.version = t.store.nextVersion
  versions : t.next.versions = t.store.versions + 1
  uid : t.store.secrets.get? (keyOf s) = none ∧ s.uid = t.store.nextUid ∨
    ∃ current, t.store.secrets.get? (keyOf s) = some current ∧ s.uid = current.uid

end Moment

namespace SecretStore

/-- The calls of a history, each with the store as it found it. -/
def moments (m : SecretStore) : List StoreCall → List Moment
  | [] => []
  | c :: calls => ⟨c, m⟩ :: (answer c m).2.moments calls

/-- No version is stored under two names. -/
def TellsVersions (m : SecretStore) : Prop :=
  ∀ key key' s s', m.secrets.get? key = some s → m.secrets.get? key' = some s' →
    s.version = s'.version → key = key'

end SecretStore

/-- What the calls of a history tell about its Secrets, their versions and their UIDs. -/
structure TokensTell (history : List Moment) : Prop where
  kept : ∀ t ∈ history, t.store.IsKept ∧ t.next.IsKept
  refused : ∀ t ∈ history, t.call.succeeded t.answer = false → t.next = t.store
  elsewhere : ∀ t ∈ history, ∀ key, t.call.key? ≠ some key →
    t.next.secrets.get? key = t.store.secrets.get? key
  /-- An accepted creation or update is stored as it was answered. -/
  stored : ∀ t ∈ history, ∀ s, t.stored? = some s →
    t.call.key? = some (keyOf s) ∧ t.next.secrets.get? (keyOf s) = some s
  /-- Its version was never found before, under whatever name. -/
  version_fresh : ∀ before t after s, history = before ++ t :: after → t.stored? = some s →
    ∀ e ∈ before, ∀ key s', e.next.secrets.get? key = some s' → s'.version ≠ s.version
  /-- A UID stays under its name until the Secret is deleted. -/
  uid_kept : ∀ before t between e after key s, history = before ++ t :: between ++ e :: after →
    t.next.secrets.get? key = some s → (∀ d ∈ between ++ [e], ¬ d.Removes key) →
    ∃ s', e.next.secrets.get? key = some s' ∧ s'.uid = s.uid
  /-- After that it is found nowhere. -/
  uid_gone : ∀ before t after key s, history = before ++ t :: after → t.Removes key →
    t.store.secrets.get? key = some s →
    ∀ e ∈ t :: after, ∀ key' s', e.next.secrets.get? key' = some s' → s'.uid ≠ s.uid
  /-- An update under a version from an earlier answer is accepted only if the Secret is the one
  of that answer, with no accepted write of it in between. -/
  guarded : ∀ before e between m s s' after r,
    history = before ++ e :: between ++ ⟨.update s, m⟩ :: after → e.response? = some r →
    s.version = r.version → (m.update s).1 = .ok s' →
    keyOf s = keyOf r ∧ m.secrets.get? (keyOf s) = some r ∧
      ∀ d ∈ between, d.call.key? = some (keyOf s) → d.isApplied = false

namespace Moment

section Effects

variable {m : SecretStore} {s : Secret}

/-- A creation under a free name stores a new Secret. -/
theorem stores_create (hs : m.secrets.get? (keyOf s) = none) :
    (Moment.mk (.create s) m).stored? = some (m.newborn s) ∧
      (Moment.mk (.create s) m).Stores (m.newborn s) := by
  have hcreate : m.create s = (.ok (m.newborn s),
      { m with
        secrets := m.secrets.insert (keyOf s) (m.newborn s)
        versions := m.versions + 1
        drawn := m.drawn + 1 }) := by
    rw [SecretStore.create, hs]
  have hreply : (m.create s).1 = .ok (m.newborn s) := congrArg Prod.fst hcreate
  have hnext := congrArg Prod.snd hcreate
  refine ⟨congrArg Except.toOption hreply, ?_⟩
  exact {
    applied := congrArg Except.isOk hreply
    key := rfl
    secrets := congrArg SecretStore.secrets hnext
    version := rfl
    versions := congrArg SecretStore.versions hnext
    uid := Or.inl ⟨hs, rfl⟩ }

/-- An update of the stored version stores the next one. -/
theorem stores_update {current : Secret} (hs : m.secrets.get? (keyOf s) = some current)
    (hc : SecretStore.isCurrent current s = true) :
    (Moment.mk (.update s) m).stored? = some (m.successor current s) ∧
      (Moment.mk (.update s) m).Stores (m.successor current s) := by
  have hupdate : m.update s = (.ok (m.successor current s),
      { m with
        secrets := m.secrets.insert (keyOf s) (m.successor current s)
        versions := m.versions + 1 }) := by
    simp only [SecretStore.update, hs, hc, if_true]
  have hreply : (m.update s).1 = .ok (m.successor current s) := congrArg Prod.fst hupdate
  have hnext := congrArg Prod.snd hupdate
  refine ⟨congrArg Except.toOption hreply, ?_⟩
  exact {
    applied := congrArg Except.isOk hreply
    key := rfl
    secrets := congrArg SecretStore.secrets hnext
    version := rfl
    versions := congrArg SecretStore.versions hnext
    uid := Or.inr ⟨current, hs, rfl⟩ }

/-- A deletion is refused or takes the Secret out. -/
theorem delete_cases (m : SecretStore) (n name : Text) (uid : Option Text) :
    (∃ e, m.delete n name uid = (.error e, m)) ∨
      m.delete n name uid = (.ok (), { m with secrets := m.secrets.erase (n, name) }) := by
  rw [SecretStore.delete]
  split
  · exact Or.inl ⟨_, rfl⟩
  · split
    · split
      · exact Or.inr rfl
      · exact Or.inl ⟨_, rfl⟩
    · exact Or.inr rfl

/-- What one call can do: nothing, a Secret of the next version is stored, or one is removed. -/
theorem effect (t : Moment) :
    (t.isApplied = false ∧ t.stored? = none ∧ t.next = t.store) ∨
      (∃ s, t.stored? = some s ∧ t.Stores s) ∨
      ∃ key, t.stored? = none ∧ t.Removes key ∧ t.next.secrets = t.store.secrets.erase key ∧
        t.next.versions = t.store.versions := by
  obtain ⟨c, m⟩ := t
  cases c with
  | get n name => exact Or.inl ⟨rfl, rfl, rfl⟩
  | create s =>
    cases hs : m.secrets.get? (keyOf s) with
    | some found =>
      have hrefused := SecretStore.create_of_some hs
      have hreply := congrArg Prod.fst hrefused
      exact Or.inl ⟨congrArg Except.isOk hreply, congrArg Except.toOption hreply,
        congrArg Prod.snd hrefused⟩
    | none => exact Or.inr (Or.inl ⟨_, stores_create hs⟩)
  | update s =>
    cases hs : m.secrets.get? (keyOf s) with
    | none =>
      have hrefused := SecretStore.update_of_none hs
      have hreply := congrArg Prod.fst hrefused
      exact Or.inl ⟨congrArg Except.isOk hreply, congrArg Except.toOption hreply,
        congrArg Prod.snd hrefused⟩
    | some current =>
      cases hc : SecretStore.isCurrent current s with
      | true => exact Or.inr (Or.inl ⟨_, stores_update hs hc⟩)
      | false =>
        obtain ⟨reason, hrefused⟩ := SecretStore.update_of_not_isCurrent hs hc
        have hreply := congrArg Prod.fst hrefused
        exact Or.inl ⟨congrArg Except.isOk hreply, congrArg Except.toOption hreply,
          congrArg Prod.snd hrefused⟩
  | delete n name uid =>
    rcases delete_cases m n name uid with ⟨e, hrefused⟩ | hdelete
    · have hreply : (m.delete n name uid).1 = .error e := congrArg Prod.fst hrefused
      exact Or.inl ⟨congrArg Except.isOk hreply, rfl, congrArg Prod.snd hrefused⟩
    · have hreply : (m.delete n name uid).1 = .ok () := congrArg Prod.fst hdelete
      have hnext := congrArg Prod.snd hdelete
      have hversions : (m.delete n name uid).2.versions = m.versions := by rw [hnext]
      exact Or.inr (Or.inr ⟨(n, name), rfl, ⟨congrArg Except.isOk hreply, uid, rfl⟩,
        congrArg SecretStore.secrets hnext, hversions⟩)
  | close => exact Or.inl ⟨rfl, rfl, rfl⟩

end Effects

theorem Removes.key {t : Moment} {key : Text × Text} (h : t.Removes key) :
    t.call.key? = some key := by
  obtain ⟨-, uid, hcall⟩ := h
  rw [hcall]
  rfl

variable {t : Moment}

/-- An accepted write stores a Secret or removes one. -/
theorem stores_or_removes (h : t.isApplied = true) :
    (∃ s, t.stored? = some s ∧ t.Stores s) ∨
      ∃ key, t.Removes key ∧ t.next.secrets = t.store.secrets.erase key := by
  rcases t.effect with ⟨hnot, -⟩ | hstores | ⟨key, -, hremoves, hsecrets, -⟩
  · rw [h] at hnot
    cases hnot
  · exact Or.inl hstores
  · exact Or.inr ⟨key, hremoves, hsecrets⟩

theorem stores_of_stored? {s : Secret} (h : t.stored? = some s) : t.Stores s := by
  rcases t.effect with ⟨-, hnone, -⟩ | ⟨s', hs', hstores⟩ | ⟨key, hnone, -⟩
  · cases hnone.symm.trans h
  · cases hs'.symm.trans h
    exact hstores
  · cases hnone.symm.trans h

theorem Stores.found {s : Secret} (h : t.Stores s) : t.next.secrets.get? (keyOf s) = some s := by
  rw [h.secrets]
  exact (Table.get?_insert _ _ _ _).trans (if_pos rfl)

/-- A deletion that is accepted removes the Secret. -/
theorem Removes.get?_next {key : Text × Text} (h : t.Removes key) :
    t.next.secrets.get? key = none := by
  rcases stores_or_removes h.1 with ⟨s, hs, hstores⟩ | ⟨key', hremoves, hsecrets⟩
  · obtain ⟨-, uid, hcall⟩ := h
    obtain ⟨c, m⟩ := t
    obtain rfl : c = .delete key.1 key.2 uid := hcall
    cases hs
  · obtain rfl : key' = key := Option.some.inj (hremoves.key.symm.trans h.key)
    rw [hsecrets]
    exact (Table.get?_erase _ _ _).trans (if_pos rfl)

/-- A call changes no Secret but its own. -/
theorem get?_next_of_ne {key : Text × Text} (h : t.call.key? ≠ some key) :
    t.next.secrets.get? key = t.store.secrets.get? key := by
  rcases t.effect with ⟨-, -, hsame⟩ | ⟨s, -, hstores⟩ | ⟨key', -, hremoves, hsecrets, -⟩
  · rw [hsame]
  · rw [hstores.secrets, Table.get?_insert, if_neg]
    rintro rfl
    exact h hstores.key
  · rw [hsecrets, Table.get?_erase, if_neg]
    rintro rfl
    exact h hremoves.key

/-- What is found right after an accepted write of its name has the next version. -/
theorem version_next {key : Text × Text} {s : Secret} (h : t.isApplied = true)
    (hkey : t.call.key? = some key) (hs : t.next.secrets.get? key = some s) :
    s.version = t.store.nextVersion ∧ t.next.versions = t.store.versions + 1 := by
  rcases stores_or_removes h with ⟨s', -, hstores⟩ | ⟨key', hremoves, -⟩
  · obtain rfl : keyOf s' = key := Option.some.inj (hstores.key.symm.trans hkey)
    cases hstores.found.symm.trans hs
    exact ⟨hstores.version, hstores.versions⟩
  · obtain rfl : key' = key := Option.some.inj (hremoves.key.symm.trans hkey)
    cases hremoves.get?_next.symm.trans hs

/-- A Secret that is not deleted keeps its UID. -/
theorem exists_uid_next {key : Text × Text} {s : Secret}
    (hs : t.store.secrets.get? key = some s) (h : ¬ t.Removes key) :
    ∃ s', t.next.secrets.get? key = some s' ∧ s'.uid = s.uid := by
  by_cases hkey : t.call.key? = some key
  · rcases t.effect with ⟨-, -, hsame⟩ | ⟨s', -, hstores⟩ | ⟨key', -, hremoves, -⟩
    · exact ⟨s, hsame ▸ hs, rfl⟩
    · obtain rfl : keyOf s' = key := Option.some.inj (hstores.key.symm.trans hkey)
      rcases hstores.uid with ⟨hnone, -⟩ | ⟨current, hcurrent, huid⟩
      · cases hnone.symm.trans hs
      · cases hcurrent.symm.trans hs
        exact ⟨s', hstores.found, huid⟩
    · obtain rfl : key' = key := Option.some.inj (hremoves.key.symm.trans hkey)
      exact absurd hremoves h
  · exact ⟨s, (get?_next_of_ne hkey).trans hs, rfl⟩

end Moment

namespace SecretStore

section Moments

variable {m : SecretStore} {calls : List StoreCall} {before after : List Moment} {t : Moment}

theorem moments_append (m : SecretStore) (calls further : List StoreCall) :
    m.moments (calls ++ further) = m.moments calls ++ (m.after calls).moments further := by
  induction calls generalizing m with
  | nil => rfl
  | cons c calls ih => exact congrArg (⟨c, m⟩ :: ·) (ih _)

/-- The parts of a history are the histories of its calls. -/
theorem exists_parts (h : m.moments calls = before ++ after) :
    ∃ calls₁ calls₂, calls = calls₁ ++ calls₂ ∧ before = m.moments calls₁ ∧
      after = (m.after calls₁).moments calls₂ := by
  induction before generalizing m calls with
  | nil => exact ⟨[], calls, rfl, rfl, h.symm⟩
  | cons e before ih =>
    cases calls with
    | nil => cases h
    | cons c calls =>
      obtain ⟨rfl, hrest⟩ := List.cons.inj h
      obtain ⟨calls₁, calls₂, rfl, rfl, rfl⟩ := ih hrest
      exact ⟨c :: calls₁, calls₂, rfl, rfl, rfl⟩

/-- A call in a history finds the store as those before it left it. -/
theorem exists_calls (h : m.moments calls = before ++ t :: after) :
    ∃ calls₁ calls₂, before = m.moments calls₁ ∧ t.store = m.after calls₁ ∧
      after = t.next.moments calls₂ ∧ m.after calls = t.next.after calls₂ := by
  obtain ⟨calls₁, calls₂, rfl, hbefore, hafter⟩ := exists_parts h
  cases calls₂ with
  | nil => cases hafter
  | cons c calls₂ =>
    obtain ⟨rfl, rfl⟩ := List.cons.inj hafter
    exact ⟨calls₁, calls₂, hbefore, rfl, rfl, after_append m calls₁ (c :: calls₂)⟩

theorem exists_calls_of_mem (h : t ∈ m.moments calls) :
    ∃ calls₁ calls₂, t.store = m.after calls₁ ∧ m.after calls = t.next.after calls₂ := by
  obtain ⟨before, after, hsplit⟩ := List.append_of_mem h
  obtain ⟨calls₁, calls₂, -, hstore, -, hafter⟩ := exists_calls hsplit
  exact ⟨calls₁, calls₂, hstore, hafter⟩

theorem next_of_store {calls : List StoreCall} (h : t.store = m.after calls) :
    t.next = m.after (calls ++ [t.call]) := by
  rw [after_append, ← h]
  rfl

end Moments

section Uids

variable {m : SecretStore} {key : Text × Text} {s : Secret}

/-- A Secret that is not deleted by any of some calls keeps its UID. -/
theorem exists_uid_after (hs : m.secrets.get? key = some s) {calls : List StoreCall}
    (h : ∀ d ∈ m.moments calls, ¬ d.Removes key) :
    ∃ s', (m.after calls).secrets.get? key = some s' ∧ s'.uid = s.uid := by
  induction calls generalizing m s with
  | nil => exact ⟨s, hs, rfl⟩
  | cons c calls ih =>
    obtain ⟨s₁, hs₁, huid₁⟩ :=
      Moment.exists_uid_next (t := ⟨c, m⟩) hs (h _ List.mem_cons_self)
    obtain ⟨s₂, hs₂, huid₂⟩ := ih hs₁ fun d hd => h d (List.mem_cons_of_mem _ hd)
    exact ⟨s₂, hs₂, huid₂.trans huid₁⟩

end Uids

section Versions

variable {m : SecretStore} {key : Text × Text} {s : Secret}

/-- A Secret that is found has none of the versions that are still to come. -/
theorem version_ne_of_lt (hm : m.IsReachable) (hs : m.secrets.get? key = some s) {n : Nat}
    (hn : m.versions < n) : s.version ≠ Digits.ofNat n := by
  obtain ⟨k, hle, hk⟩ := exists_version hm hs
  intro hversion
  have hkn : k = n := Digits.ofNat_injective (hk.symm.trans hversion)
  omega

/-- Every call keeps versions apart. -/
theorem tellsVersions_answer (hm : m.IsReachable) (h : m.TellsVersions) (c : StoreCall) :
    (answer c m).2.TellsVersions := by
  intro key key' s s' hs hs' hversion
  rcases Moment.effect ⟨c, m⟩ with ⟨-, -, hsame⟩ | ⟨u, -, hstores⟩ | ⟨gone, -, -, hsecrets, -⟩
  · rw [show (answer c m).2 = m from hsame] at hs hs'
    exact h key key' s s' hs hs' hversion
  · rw [show (answer c m).2.secrets = m.secrets.insert (keyOf u) u from hstores.secrets,
      Table.get?_insert] at hs hs'
    have hnext : ∀ {k v}, m.secrets.get? k = some v → v.version ≠ u.version := by
      intro k v hv
      rw [hstores.version]
      exact version_ne_of_lt hm hv (Nat.lt_succ_self _)
    split at hs
    · next hkey =>
      split at hs'
      · next hkey' => exact hkey.symm.trans hkey'
      · cases hs
        exact absurd hversion.symm (hnext hs')
    · split at hs'
      · cases hs'
        exact absurd hversion (hnext hs)
      · exact h key key' s s' hs hs' hversion
  · have hkept : ∀ {k v}, (answer c m).2.secrets.get? k = some v →
        m.secrets.get? k = some v := by
      intro k v hv
      rw [show (answer c m).2.secrets = m.secrets.erase gone from hsecrets,
        Table.get?_erase] at hv
      split at hv
      · cases hv
      · exact hv
    exact h key key' s s' (hkept hs) (hkept hs') hversion

theorem tellsVersions_after (hm : m.IsReachable) (h : m.TellsVersions) (calls : List StoreCall) :
    (m.after calls).TellsVersions := by
  induction calls generalizing m with
  | nil => exact h
  | cons c calls ih => exact ih (isReachable_answer hm c) (tellsVersions_answer hm h c)

/-- No version is stored under two names. -/
theorem key_eq_of_version_eq (hm : m.IsReachable) : m.TellsVersions := by
  obtain ⟨uids, calls, rfl⟩ := hm
  refine tellsVersions_after ⟨uids, [], rfl⟩ ?_ calls
  intro key key' s s' hs
  cases hs

/-- What is found after an accepted write of its name has a version given from that write on. -/
theorem found_after_change {t : Moment} (happlied : t.isApplied = true)
    (hkey : t.call.key? = some key) {calls : List StoreCall}
    (hs : (t.next.after calls).secrets.get? key = some s) :
    ∃ n, t.store.versions < n ∧ s.version = Digits.ofNat n := by
  rcases found_after hs with hfound | ⟨n, hlt, -, hn⟩
  · exact ⟨_, Nat.lt_succ_self _, (Moment.version_next happlied hkey hfound).1⟩
  · refine ⟨n, Nat.lt_of_le_of_lt ?_ hlt, hn⟩
    exact versions_le_after t.store [t.call]

/-- An update under the version of a Secret that was found is accepted only if that Secret is still
there, with no accepted write of it in between. -/
theorem guarded_of_found {r : Secret} (hm : m.IsReachable) (hr : m.secrets.get? (keyOf r) = some r)
    {calls : List StoreCall} (hversion : s.version = r.version) {s' : Secret}
    (hupdate : ((m.after calls).update s).1 = .ok s') :
    keyOf s = keyOf r ∧ (m.after calls).secrets.get? (keyOf s) = some r ∧
      ∀ d ∈ m.moments calls, d.call.key? = some (keyOf s) → d.isApplied = false := by
  cases hs : (m.after calls).secrets.get? (keyOf s) with
  | none =>
    rw [update_of_none hs] at hupdate
    cases hupdate
  | some current =>
    have hsame : current.version = r.version := by
      obtain ⟨k, -, hk⟩ := exists_version hm hr
      cases hc : isCurrent current s with
      | false =>
        obtain ⟨reason, hrefused⟩ := update_of_not_isCurrent hs hc
        rw [hrefused] at hupdate
        cases hupdate
      | true =>
        have hne : s.version.isEmpty = false := by
          rw [hversion, hk]
          exact List.isEmpty_eq_false_iff.2 (Digits.ofNat_ne_nil k)
        rw [isCurrent, hne, Bool.false_or, decide_eq_true_eq] at hc
        exact hc.symm.trans hversion
    -- The version was given before the calls, so what carries it has not been written since.
    have hold : ∀ {n}, m.versions < n → current.version ≠ Digits.ofNat n := by
      intro n hn
      rw [hsame]
      exact version_ne_of_lt hm hr hn
    rcases found_after hs with hfound | ⟨n, hlt, -, hn⟩
    · have hkey := key_eq_of_version_eq hm _ _ _ _ hfound hr hsame
      rw [hkey] at hfound
      refine ⟨hkey, hfound.symm.trans hr, fun d hd hdkey => Bool.eq_false_iff.2 fun happlied => ?_⟩
      obtain ⟨calls₁, calls₂, hstore, hafter⟩ := exists_calls_of_mem hd
      rw [hafter] at hs
      obtain ⟨n, hlt, hn⟩ := found_after_change happlied hdkey hs
      rw [hstore] at hlt
      exact hold (Nat.lt_of_le_of_lt (versions_le_after m calls₁) hlt) hn
    · exact absurd hn (hold hlt)

end Versions

section Starting

/-- A store that starts with Secrets is one in which they were created. -/
theorem after_of_createAll {m m' : SecretStore} {initial : List Secret}
    (h : m.createAll initial = .ok m') : m' = m.after (initial.map .create) := by
  induction initial generalizing m with
  | nil =>
    cases h
    rfl
  | cons s initial ih =>
    rw [createAll] at h
    split at h
    · next m₁ hcreate =>
      rw [ih h]
      exact congrArg (fun n : SecretStore => n.after (initial.map .create))
        (congrArg Prod.snd hcreate).symm
    · cases h

end Starting

end SecretStore

namespace Moment

/-- The Secret of an answer is found right after the call. -/
theorem found_of_response? {t : Moment} (hkept : t.store.IsKept) {r : Secret}
    (h : t.response? = some r) : t.next.secrets.get? (keyOf r) = some r := by
  cases hwrite : t.call.isWrite with
  | true =>
    have hstored : t.stored? = some r := by
      rw [stored?, hwrite, if_pos rfl]
      exact h
    exact (stores_of_stored? hstored).found
  | false =>
    obtain ⟨c, m⟩ := t
    cases c with
    | get n name =>
      have hget : m.get n name = .ok r := toOption_eq_some_iff.1 h
      cases hs : m.secrets.get? (n, name) with
      | none =>
        rw [SecretStore.get_of_none hs] at hget
        cases hget
      | some s =>
        rw [SecretStore.get_of_some hs] at hget
        cases hget
        rw [hkept _ _ hs]
        exact hs
    | create s => cases hwrite
    | update s => cases hwrite
    | delete n name uid => cases hwrite
    | close => cases h

end Moment

namespace SecretStore

section Histories

variable {uids : Nat → Text} {history : List StoreCall} {before between after : List Moment}
  {t e : Moment} {key : Text × Text} {s s' : Secret}

theorem isReachable_of_mem (ht : t ∈ (empty uids).moments history) :
    t.store.IsReachable ∧ t.next.IsReachable := by
  obtain ⟨calls, -, hstore, -⟩ := exists_calls_of_mem ht
  have hreachable : t.store.IsReachable := ⟨uids, calls, hstore⟩
  exact ⟨hreachable, isReachable_answer hreachable t.call⟩

/-- What is stored has a version that was not found before. -/
theorem version_ne_of_mem_before (hsplit : (empty uids).moments history = before ++ t :: after)
    (hs : t.stored? = some s) (he : e ∈ before) (hs' : e.next.secrets.get? key = some s') :
    s'.version ≠ s.version := by
  have he' : e ∈ (empty uids).moments history := hsplit ▸ List.mem_append_left _ he
  obtain ⟨calls₁, -, rfl, ht, -⟩ := exists_calls hsplit
  obtain ⟨-, calls₂, -, hlater⟩ := exists_calls_of_mem he
  rw [(Moment.stores_of_stored? hs).version, ht, hlater]
  exact version_ne_of_lt (isReachable_of_mem he').2 hs'
    (Nat.lt_succ_of_le (versions_le_after _ calls₂))

/-- What is found keeps its UID over calls that do not delete it. -/
theorem exists_uid_of_not_removes {m : SecretStore}
    (hsplit : m.moments history = before ++ t :: between ++ e :: after)
    (hs : t.next.secrets.get? key = some s) (hnot : ∀ d ∈ between ++ [e], ¬ d.Removes key) :
    ∃ s', e.next.secrets.get? key = some s' ∧ s'.uid = s.uid := by
  rw [List.append_assoc, List.cons_append] at hsplit
  obtain ⟨-, calls₂, -, -, hrest, -⟩ := exists_calls hsplit
  obtain ⟨calls₃, -, hbetween, he, -⟩ := exists_calls hrest.symm
  have hcalls : between ++ [e] = t.next.moments (calls₃ ++ [e.call]) := by
    rw [moments_append, ← hbetween, ← he]
    rfl
  rw [hcalls] at hnot
  rw [next_of_store he]
  exact exists_uid_after hs hnot

/-- What is deleted has a UID that is not found from then on. -/
theorem uid_ne_of_removes (huids : DrawsOnce uids)
    (hsplit : (empty uids).moments history = before ++ t :: after) (hremoves : t.Removes key)
    (hs : t.store.secrets.get? key = some s) (he : e ∈ t :: after) {key' : Text × Text}
    (hs' : e.next.secrets.get? key' = some s') : s'.uid ≠ s.uid := by
  obtain ⟨calls₁, calls₂, -, ht, hafter, -⟩ := exists_calls hsplit
  have hidentified : t.store.IsIdentified :=
    ht ▸ isIdentified_after (isIdentified_empty huids) calls₁
  have hlater : ∃ further, e.next = t.next.after further := by
    rcases List.mem_cons.1 he with rfl | he
    · exact ⟨[], rfl⟩
    · rw [hafter] at he
      obtain ⟨calls₃, -, hstore, -⟩ := exists_calls_of_mem he
      exact ⟨_, next_of_store hstore⟩
  obtain ⟨further, hfurther⟩ := hlater
  rw [hfurther] at hs'
  have hgone : (t.store.after [t.call]).secrets.get? key = none := hremoves.get?_next
  exact uid_ne_of_vanished hidentified hs hgone hs'

/-- An update under a version from an earlier answer is accepted only if nothing has been written
to the Secret since. -/
theorem guarded_of_response {m : SecretStore} {r : Secret}
    (hsplit : (empty uids).moments history = before ++ e :: between ++ ⟨.update s, m⟩ :: after)
    (hr : e.response? = some r) (hversion : s.version = r.version)
    (hupdate : (m.update s).1 = .ok s') :
    keyOf s = keyOf r ∧ m.secrets.get? (keyOf s) = some r ∧
      ∀ d ∈ between, d.call.key? = some (keyOf s) → d.isApplied = false := by
  have he : e ∈ (empty uids).moments history := by
    rw [hsplit]
    exact List.mem_append_left _ (List.mem_append_right _ List.mem_cons_self)
  obtain ⟨hstore, hnext⟩ := isReachable_of_mem he
  obtain ⟨calls₁, -, hbefore, ht, -⟩ := exists_calls hsplit
  obtain ⟨-, calls₂, -, -, hbetween, hlater⟩ := exists_calls hbefore.symm
  have hm : m = e.next.after calls₂ := ht.trans hlater
  rw [hm] at hupdate ⊢
  rw [hbetween]
  exact guarded_of_found hnext (Moment.found_of_response? hstore.isKept hr) hversion hupdate

end Histories

end SecretStore

/-- What versions and UIDs tell over any history of a store that started with some Secrets, whoever
made the calls. -/
theorem tokensTell_history {uids : Nat → Text} (huids : SecretStore.DrawsOnce uids)
    {initial : List Secret} {m : SecretStore}
    (h : (SecretStore.empty uids).createAll initial = .ok m) (calls : List StoreCall) :
    TokensTell ((SecretStore.empty uids).moments (initial.map .create) ++ m.moments calls) := by
  rw [SecretStore.after_of_createAll h, ← SecretStore.moments_append]
  exact {
    kept := fun t ht =>
      ⟨(SecretStore.isReachable_of_mem ht).1.isKept, (SecretStore.isReachable_of_mem ht).2.isKept⟩
    refused := by
      intro t _ hrefused
      refine Moment.next_of_not_isApplied ?_
      rw [Moment.isApplied, hrefused, Bool.and_false]
    elsewhere := fun t _ key hkey => Moment.get?_next_of_ne hkey
    stored := fun t _ s hs =>
      ⟨(Moment.stores_of_stored? hs).key, (Moment.stores_of_stored? hs).found⟩
    version_fresh := fun _ _ _ _ hsplit hs _ he _ _ hs' =>
      SecretStore.version_ne_of_mem_before hsplit hs he hs'
    uid_kept := fun _ _ _ _ _ _ _ hsplit hs hnot =>
      SecretStore.exists_uid_of_not_removes hsplit hs hnot
    uid_gone := fun _ _ _ _ _ hsplit hremoves hs _ he _ _ hs' =>
      SecretStore.uid_ne_of_removes huids hsplit hremoves hs he hs'
    guarded := fun _ _ _ _ _ _ _ _ hsplit hr hversion hupdate =>
      SecretStore.guarded_of_response hsplit hr hversion hupdate }

/-- A store that starts with one Secret: it is read, deleted, created anew and then updated under
the version that was read. -/
theorem tokensTell_history_recreated :
    let secret (label : Text) : Secret :=
      ⟨"s", "ns", Table.empty.insert "a" label, .empty, .empty, [], [], []⟩
    let calls (version : Text) : List StoreCall :=
      [.get "ns" "s", .delete "ns" "s" none, .create (secret "2"),
        .update { secret "3" with version := version }]
    ∃ m, (SecretStore.empty Digits.ofNat).createAll [secret "1"] = .ok m ∧
      SecretStore.DrawsOnce Digits.ofNat ∧
      (((m.moments (calls "1")).map fun t => t.isApplied) = [false, true, true, false]) ∧
      TokensTell ((SecretStore.empty Digits.ofNat).moments ([secret "1"].map .create) ++
        m.moments (calls "1")) := by
  intro secret calls
  have huids : SecretStore.DrawsOnce Digits.ofNat :=
    fun _ _ _ hlt heq => absurd (Digits.ofNat_injective heq) (Nat.ne_of_lt hlt)
  exact ⟨_, rfl, huids, by decide, tokensTell_history huids rfl (calls "1")⟩

end CrossClusterKeys
