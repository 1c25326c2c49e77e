import CrossClusterKeys.Proofs.StoreStates

/-!
# What a version tells

Between two looks at a Secret others may update it, and they may delete it and create it anew.  A
store numbers its versions through and never gives one twice, so a Secret that is found under its
old version is the old Secret.

**Input.**  A store that some calls have brought about, and further calls of whomever.

**Results.**
* `found_after`: what is found after some calls was there before them or has a later version.
* `eq_of_version_eq`: a Secret of the same version is the same Secret.
* `isCurrent_iff`: an update of a Secret that was read is current if the Secret is still the one
  that was read.
-/

namespace CrossClusterKeys
namespace SecretStore

/-- Some calls have brought the store about. -/
def IsReachable (m : SecretStore) : Prop := ∃ uids calls, m = (empty uids).after calls

section Reachable

theorem after_append (m : SecretStore) (calls further : List StoreCall) :
    m.after (calls ++ further) = (m.after calls).after further := List.foldl_append

variable {m : SecretStore} (hm : m.IsReachable)

include hm

theorem isReachable_after (calls : List StoreCall) : (m.after calls).IsReachable := by
  obtain ⟨uids, earlier, rfl⟩ := hm
  exact ⟨uids, earlier ++ calls, (after_append _ _ _).symm⟩

theorem isReachable_answer (c : StoreCall) : (answer c m).2.IsReachable :=
  isReachable_after hm [c]

theorem IsReachable.isKept : m.IsKept := by
  obtain ⟨uids, calls, rfl⟩ := hm
  exact isKept_after uids calls

end Reachable

section Versions

variable {m : SecretStore} {key : Text × Text} {s t : Secret}

/-- What is found after one call was there before it or has the next version. -/
theorem found_answer (c : StoreCall) (h : (answer c m).2.secrets.get? key = some t) :
    m.secrets.get? key = some t ∨
      (t.version = m.nextVersion ∧ (answer c m).2.versions = m.versions + 1) := by
  rcases answer_cases c m with hsame | ⟨s, hsecrets, hversion, hversions⟩ | ⟨gone, hsecrets, -⟩
  · exact Or.inl (hsame ▸ h)
  · rw [hsecrets, Table.get?_insert] at h
    split at h
    · cases h
      exact Or.inr ⟨hversion, hversions⟩
    · exact Or.inl h
  · rw [hsecrets, Table.get?_erase] at h
    split at h
    · cases h
    · exact Or.inl h

theorem versions_le_after (m : SecretStore) (calls : List StoreCall) :
    m.versions ≤ (m.after calls).versions := by
  induction calls generalizing m with
  | nil => exact Nat.le_refl _
  | cons c calls ih =>
    refine Nat.le_trans ?_ (ih (answer c m).2)
    rcases answer_cases c m with hsame | ⟨-, -, -, hversions⟩ | ⟨-, -, hversions⟩
    · exact Nat.le_of_eq (congrArg versions hsame.symm)
    · omega
    · omega

/-- What is found after some calls was there before them or has a version given since. -/
theorem found_after {calls : List StoreCall} (h : (m.after calls).secrets.get? key = some t) :
    m.secrets.get? key = some t ∨
      ∃ n, m.versions < n ∧ n ≤ (m.after calls).versions ∧ t.version = Digits.ofNat n := by
  induction calls generalizing m with
  | nil => exact Or.inl h
  | cons c calls ih =>
    have hlater := versions_le_after (answer c m).2 calls
    rcases ih h with hfound | ⟨n, hlt, hle, hversion⟩
    · rcases found_answer c hfound with hbefore | ⟨hversion, hversions⟩
      · exact Or.inl hbefore
      · exact Or.inr ⟨m.versions + 1, Nat.lt_succ_self _, hversions ▸ hlater, hversion⟩
    · exact Or.inr ⟨n, Nat.lt_of_le_of_lt (versions_le_after m [c]) hlt, hle, hversion⟩

variable (hm : m.IsReachable)

include hm

theorem exists_version (hs : m.secrets.get? key = some s) :
    ∃ n, n ≤ m.versions ∧ s.version = Digits.ofNat n := by
  obtain ⟨uids, calls, rfl⟩ := hm
  rcases found_after hs with hnone | ⟨n, -, hle, hversion⟩
  · cases hnone
  · exact ⟨n, hle, hversion⟩

/-- A Secret that is found later under the version it had is the same Secret, whatever was done
in between. -/
theorem eq_of_version_eq {calls : List StoreCall} (hs : m.secrets.get? key = some s)
    (ht : (m.after calls).secrets.get? key = some t) (hv : s.version = t.version) : t = s := by
  rcases found_after ht with hfound | ⟨n, hlt, -, hn⟩
  · exact Option.some.inj (hfound.symm.trans hs)
  · obtain ⟨k, hle, hk⟩ := exists_version hm hs
    have hkn : k = n := Digits.ofNat_injective (hk.symm.trans (hv.trans hn))
    omega

/-- What was made of a Secret that was read is current exactly if that Secret is still there. -/
theorem isCurrent_iff {calls : List StoreCall} (hs : m.secrets.get? key = some s)
    (ht : (m.after calls).secrets.get? key = some t) {u : Secret} (hu : u.version = s.version) :
    isCurrent t u = true ↔ t = s := by
  have hne : u.version.isEmpty = false := by
    obtain ⟨n, -, hn⟩ := exists_version hm hs
    rw [hu, hn]
    exact List.isEmpty_eq_false_iff.2 (Digits.ofNat_ne_nil n)
  rw [isCurrent, hne, Bool.false_or, decide_eq_true_eq, hu]
  constructor
  · exact eq_of_version_eq hm hs ht
  · rintro rfl
    rfl

end Versions
end SecretStore
end CrossClusterKeys
