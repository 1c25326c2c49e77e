import CrossClusterKeys.Proofs.Versions

/-!
# What a UID tells

A Secret keeps its UID until it is deleted, and what is created in its place has another one.  If
no UID is drawn twice, a UID belongs to one Secret for as long as the store exists.

**Input.**  A store, and further calls of whomever.

**Invariant.**  Every stored Secret has a UID that was drawn for it, and no other Secret has it.
Every call keeps it.

**Results.**
* `identity_cases`: what one call can do to the UIDs of a store.
* `isIdentified_after`: the invariant after any history.
* `key_eq_of_uid_eq`: a UID is only found again under the name that it had.
* `uid_ne_of_vanished`: the UID of a Secret that is gone is never found again.
-/

namespace CrossClusterKeys
namespace SecretStore

/-- Every UID that is drawn differs from all earlier ones. -/
def DrawsOnce (uids : Nat → Text) : Prop := ∀ i j, 1 ≤ i → i < j → uids i ≠ uids j

/-- Every stored Secret has a UID that was drawn for it alone. -/
structure IsIdentified (m : SecretStore) : Prop where
  once : DrawsOnce m.uids
  drawn : ∀ key s, m.secrets.get? key = some s → ∃ n, 1 ≤ n ∧ n ≤ m.drawn ∧ s.uid = m.uids n
  distinct : ∀ key key' s s', m.secrets.get? key = some s → m.secrets.get? key' = some s' →
    s.uid = s'.uid → key = key'

section Steps

variable (c : StoreCall) (m : SecretStore)

/-- What one call can do to the UIDs of a store: a Secret is created with the next one, or every
Secret that is found then was there under its UID before. -/
theorem identity_cases :
    (answer c m).2.uids = m.uids ∧
      (((answer c m).2.drawn = m.drawn ∧
          ∀ key t, (answer c m).2.secrets.get? key = some t →
            ∃ s, m.secrets.get? key = some s ∧ t.uid = s.uid) ∨
        ∃ s, (answer c m).2.drawn = m.drawn + 1 ∧
          (answer c m).2.secrets = m.secrets.insert (keyOf s) (m.newborn s)) := by
  have hsame : m.uids = m.uids ∧ (m.drawn = m.drawn ∧ ∀ key t, m.secrets.get? key = some t →
      ∃ s, m.secrets.get? key = some s ∧ t.uid = s.uid) :=
    ⟨rfl, rfl, fun key t ht => ⟨t, ht, rfl⟩⟩
  have herased : ∀ gone key t, (m.secrets.erase gone).get? key = some t →
      ∃ s, m.secrets.get? key = some s ∧ t.uid = s.uid := by
    intro gone key t ht
    rw [Table.get?_erase] at ht
    split at ht
    · cases ht
    · exact ⟨t, ht, rfl⟩
  cases c with
  | get n s => exact ⟨hsame.1, Or.inl hsame.2⟩
  | create s =>
    rw [answer, create]
    split
    · exact ⟨hsame.1, Or.inl hsame.2⟩
    · exact ⟨rfl, Or.inr ⟨s, rfl, rfl⟩⟩
  | update s =>
    rw [answer, update]
    split
    · exact ⟨hsame.1, Or.inl hsame.2⟩
    · next current hcurrent =>
      split
      · refine ⟨rfl, Or.inl ⟨rfl, fun key t ht => ?_⟩⟩
        rw [Table.get?_insert] at ht
        split at ht
        · next hkey =>
          cases ht
          exact ⟨current, hkey ▸ hcurrent, rfl⟩
        · exact ⟨t, ht, rfl⟩
      · exact ⟨hsame.1, Or.inl hsame.2⟩
  | delete n s uid =>
    rw [answer, delete]
    split
    · exact ⟨hsame.1, Or.inl hsame.2⟩
    · split
      · split
        · exact ⟨rfl, Or.inl ⟨rfl, herased _⟩⟩
        · exact ⟨hsame.1, Or.inl hsame.2⟩
      · exact ⟨rfl, Or.inl ⟨rfl, herased _⟩⟩
  | close => exact ⟨hsame.1, Or.inl hsame.2⟩

variable {m}

theorem isIdentified_empty {uids : Nat → Text} (h : DrawsOnce uids) :
    (empty uids).IsIdentified := by
  refine ⟨h, fun key s hs => ?_, fun key key' s s' hs => ?_⟩
  · cases hs
  · cases hs

/-- The next UID is not that of a stored Secret. -/
theorem nextUid_ne (hm : m.IsIdentified) {key : Text × Text} {s : Secret}
    (hs : m.secrets.get? key = some s) : s.uid ≠ m.nextUid := by
  obtain ⟨n, hpos, hle, hn⟩ := hm.drawn key s hs
  rw [hn]
  exact hm.once n (m.drawn + 1) hpos (Nat.lt_succ_of_le hle)

/-- Every call keeps the invariant. -/
theorem isIdentified_answer (hm : m.IsIdentified) : (answer c m).2.IsIdentified := by
  obtain ⟨huids, ⟨hdrawn, hbefore⟩ | ⟨s, hdrawn, hsecrets⟩⟩ := identity_cases c m
  · refine ⟨huids ▸ hm.once, fun key t ht => ?_, fun key key' t t' ht ht' huid => ?_⟩
    · obtain ⟨s, hs, hsame⟩ := hbefore key t ht
      rw [hsame, huids, hdrawn]
      exact hm.drawn key s hs
    · obtain ⟨s, hs, hsame⟩ := hbefore key t ht
      obtain ⟨s', hs', hsame'⟩ := hbefore key' t' ht'
      exact hm.distinct key key' s s' hs hs' (hsame ▸ hsame' ▸ huid)
  · -- A Secret is the one just created, with the next UID, or it was there before.
    have hcases : ∀ key t, (answer c m).2.secrets.get? key = some t →
        (keyOf s = key ∧ t.uid = m.nextUid) ∨ m.secrets.get? key = some t := by
      intro key t ht
      rw [hsecrets, Table.get?_insert] at ht
      split at ht
      · next hkey =>
        cases ht
        exact Or.inl ⟨hkey, rfl⟩
      · exact Or.inr ht
    refine ⟨huids ▸ hm.once, fun key t ht => ?_, fun key key' t t' ht ht' huid => ?_⟩
    · rw [huids, hdrawn]
      rcases hcases key t ht with ⟨-, hnew⟩ | hold
      · exact ⟨m.drawn + 1, Nat.le_add_left _ _, Nat.le_refl _, hnew⟩
      · obtain ⟨n, hpos, hle, hn⟩ := hm.drawn key t hold
        exact ⟨n, hpos, Nat.le_succ_of_le hle, hn⟩
    · rcases hcases key t ht with ⟨hkey, hnew⟩ | hold <;>
        rcases hcases key' t' ht' with ⟨hkey', hnew'⟩ | hold'
      · exact hkey.symm.trans hkey'
      · exact absurd (huid.symm.trans hnew) (nextUid_ne hm hold')
      · exact absurd (huid.trans hnew') (nextUid_ne hm hold)
      · exact hm.distinct key key' t t' hold hold' huid

end Steps

section Histories

variable {m : SecretStore}

/-- The invariant holds after any history. -/
theorem isIdentified_after (hm : m.IsIdentified) (calls : List StoreCall) :
    (m.after calls).IsIdentified := by
  induction calls generalizing m with
  | nil => exact hm
  | cons c calls ih => exact ih (isIdentified_answer c hm)

theorem uids_after (m : SecretStore) (calls : List StoreCall) : (m.after calls).uids = m.uids := by
  induction calls generalizing m with
  | nil => rfl
  | cons c calls ih => exact (ih _).trans (identity_cases c m).1

theorem drawn_le_after (m : SecretStore) (calls : List StoreCall) :
    m.drawn ≤ (m.after calls).drawn := by
  induction calls generalizing m with
  | nil => exact Nat.le_refl _
  | cons c calls ih =>
    refine Nat.le_trans ?_ (ih (answer c m).2)
    obtain ⟨-, ⟨hdrawn, -⟩ | ⟨-, hdrawn, -⟩⟩ := identity_cases c m <;> omega

/-- What is found after some calls was there before under its UID, or the UID was drawn since. -/
theorem uid_found_after {calls : List StoreCall} {key : Text × Text} {t : Secret}
    (h : (m.after calls).secrets.get? key = some t) :
    (∃ s, m.secrets.get? key = some s ∧ t.uid = s.uid) ∨ ∃ n, m.drawn < n ∧ t.uid = m.uids n := by
  induction calls generalizing m with
  | nil => exact Or.inl ⟨t, h, rfl⟩
  | cons c calls ih =>
    obtain ⟨huids, hcases⟩ := identity_cases c m
    rcases ih h with ⟨s, hs, hsame⟩ | ⟨n, hlt, hn⟩
    · rcases hcases with ⟨-, hbefore⟩ | ⟨s', -, hsecrets⟩
      · obtain ⟨s', hs', hsame'⟩ := hbefore key s hs
        exact Or.inl ⟨s', hs', hsame.trans hsame'⟩
      · rw [hsecrets, Table.get?_insert] at hs
        split at hs
        · cases hs
          exact Or.inr ⟨m.drawn + 1, Nat.lt_succ_self _, hsame⟩
        · exact Or.inl ⟨s, hs, hsame⟩
    · refine Or.inr ⟨n, Nat.lt_of_le_of_lt (drawn_le_after m [c]) hlt, ?_⟩
      rw [hn, huids]

variable (hm : m.IsIdentified) {key : Text × Text} {s : Secret}
  (hs : m.secrets.get? key = some s)

include hm hs

/-- The UID of a stored Secret is not drawn again. -/
theorem uid_ne_of_drawn {n : Nat} (hn : m.drawn < n) : m.uids n ≠ s.uid := by
  obtain ⟨k, hpos, hle, hk⟩ := hm.drawn key s hs
  rw [hk]
  exact (hm.once k n hpos (Nat.lt_of_le_of_lt hle hn)).symm

/-- A UID is only found again under the name that it had. -/
theorem key_eq_of_uid_eq {calls : List StoreCall} {key' : Text × Text} {t : Secret}
    (ht : (m.after calls).secrets.get? key' = some t) (huid : t.uid = s.uid) : key' = key := by
  rcases uid_found_after ht with ⟨s', hs', hsame⟩ | ⟨n, hlt, hn⟩
  · exact hm.distinct key' key s' s hs' hs (hsame.symm.trans huid)
  · exact absurd (hn.symm.trans huid) (uid_ne_of_drawn hm hs hlt)

/-- The UID of a Secret that is gone is never found again, under whatever name. -/
theorem uid_ne_of_vanished {calls : List StoreCall}
    (hgone : (m.after calls).secrets.get? key = none) {further : List StoreCall}
    {key' : Text × Text} {t : Secret}
    (ht : ((m.after calls).after further).secrets.get? key' = some t) : t.uid ≠ s.uid := by
  intro huid
  have hlater : (m.after (calls ++ further)).secrets.get? key' = some t := by
    rw [after_append]
    exact ht
  obtain rfl := key_eq_of_uid_eq hm hs hlater huid
  -- Under its own name it is not left from before, so its UID was drawn since.
  rcases uid_found_after ht with ⟨s', hs', -⟩ | ⟨n, hlt, hn⟩
  · cases hgone.symm.trans hs'
  · rw [uids_after] at hn
    have hdrawn := Nat.lt_of_le_of_lt (drawn_le_after m calls) hlt
    exact absurd (hn.symm.trans huid) (uid_ne_of_drawn hm hs hdrawn)

end Histories

end SecretStore
end CrossClusterKeys
