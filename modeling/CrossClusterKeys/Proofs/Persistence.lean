import CrossClusterKeys.Proofs.Requests
import CrossClusterKeys.Proofs.StoredIndex

/-!
# What loading and saving do when nobody interferes

**Input.**  A store whose Secrets stand under their own names, and an index whose credentials
belong to aliases.

**Results.**
* `ensures_load`: loading results in the index that stands in the store and changes nothing.
* `ensures_save`: saving makes the index stand in the store and leaves every other Secret alone; it
  fails, with nothing written, exactly if a credential of an index with aliases has no bytes.
* `indexOf_of_stands`: a legible index that stands in a store is loaded from it.
-/

namespace CrossClusterKeys

open SecretStore (answer IsKept)

section Stored

variable [Json.Nesting]

/-- The index of a cluster in a store. -/
def SecretStore.indexOf (m : SecretStore) (cluster : Cluster) : Except Raised KeyIndex :=
  match m.secrets.get? cluster.secretKey with
  | some s => KeyIndex.ofSecret s
  | none => .ok .empty

theorem SecretStore.isNamed_of_indexOf {m : SecretStore} {cluster : Cluster} {x : KeyIndex}
    (h : m.indexOf cluster = .ok x) : x.IsNamed := by
  unfold indexOf at h
  split at h
  · exact KeyIndex.isNamed_of_ofSecret h
  · cases h
    intro a c hc
    cases hc

theorem SecretStore.isEncodable_of_indexOf {m : SecretStore} {cluster : Cluster} {x : KeyIndex}
    (h : m.indexOf cluster = .ok x) : x.IsEncodable := by
  unfold indexOf at h
  split at h
  · exact KeyIndex.isEncodable_of_ofSecret h
  · cases h
    intro a c hc
    cases hc

end Stored

namespace KeyIndex

/-- The Secret of the cluster holds the index; an index without aliases has no Secret. -/
def Stands (x : KeyIndex) (cluster : Cluster) (m : SecretStore) : Prop :=
  if x.isEmpty then m.secrets.get? cluster.secretKey = none
  else ∃ s, m.secrets.get? cluster.secretKey = some s ∧ x.Holds s

/-- The index has been saved in a store that was `m` before. -/
structure Saved (x : KeyIndex) (cluster : Cluster) (m m' : SecretStore) : Prop where
  kept : m'.IsKept
  stands : x.Stands cluster m'
  elsewhere : ∀ key, key ≠ cluster.secretKey → m'.secrets.get? key = m.secrets.get? key

theorem stands_congr {x y : KeyIndex} (h : x.Alike y) {cluster : Cluster} {m : SecretStore}
    (hx : x.Stands cluster m) : y.Stands cluster m := by
  unfold Stands at hx ⊢
  rw [← h.isEmpty_eq]
  cases hne : x.isEmpty with
  | true =>
    rw [hne, if_pos rfl] at hx
    rw [if_pos rfl]
    exact hx
  | false =>
    rw [hne, if_neg Bool.false_ne_true] at hx
    rw [if_neg Bool.false_ne_true]
    obtain ⟨s, hs, hholds⟩ := hx
    exact ⟨s, hs, holds_congr h hholds⟩

/-- An index that stands already is as good as saved. -/
theorem saved_self {x : KeyIndex} {cluster : Cluster} {m : SecretStore} (hm : m.IsKept)
    (hx : x.Stands cluster m) : x.Saved cluster m m :=
  ⟨hm, hx, fun _ _ => rfl⟩

theorem saved_congr {x y : KeyIndex} (h : x.Alike y) {cluster : Cluster} {m m' : SecretStore}
    (hx : x.Saved cluster m m') : y.Saved cluster m m' :=
  ⟨hx.kept, stands_congr h hx.stands, hx.elsewhere⟩

section Loading

variable {σ : Type} {h : (c : Store.Call) → σ → Store.Answer c × σ}

theorem ensures_logAll (es : List Log.Event) (y : σ) (Q : Unit → σ → Prop) :
    (logAll es).Ensures h y Q ↔ Q () y := by
  induction es with
  | nil => exact Iff.rfl
  | cons e es ih => exact ih

variable [Json.Nesting]

/-- Whatever answers the read, loading asks for nothing else and results in the index that stands in
the store. -/
theorem ensures_load_of_get {cluster : Cluster} {y : σ} {m : SecretStore}
    (hget : (h (.get cluster.namespace (Naming.secretName cluster.name)) y).1 =
      m.get cluster.namespace (Naming.secretName cluster.name))
    (Q : Except Raised KeyIndex → σ → Prop) :
    (load cluster).run.Ensures h y Q ↔
      Q (m.indexOf cluster) (h (.get cluster.namespace (Naming.secretName cluster.name)) y).2 := by
  refine (Program.ensures_bind _ _ _ _).trans ((Program.ensures_call _ _ _).trans ?_)
  rw [hget]
  unfold SecretStore.indexOf
  cases hs : m.secrets.get? cluster.secretKey with
  | none =>
    simp only [SecretStore.get_of_none hs, SecretStore.isNotFound_missing, if_true]
    exact Iff.rfl
  | some s =>
    simp only [SecretStore.get_of_some hs]
    cases hx : ofSecret s with
    | error e => exact Iff.rfl
    | ok x => exact (Program.ensures_bind _ _ _ _).trans (ensures_logAll _ _ _)

/-- Loading results in the index that stands in the store and changes nothing. -/
theorem ensures_load (cluster : Cluster) (m : SecretStore)
    (Q : Except Raised KeyIndex → SecretStore → Prop) :
    (load cluster).run.Ensures answer m Q ↔ Q (m.indexOf cluster) m :=
  ensures_load_of_get rfl Q

/-- What is loaded from a store is the index that stands in it. -/
theorem run_load (cluster : Cluster) (w : Surroundings) (m : SecretStore) :
    (SecretStore.run (load cluster).run w m).1 = m.indexOf cluster :=
  SecretStore.run_of_ensures
    ((ensures_load cluster m fun r _ => r = m.indexOf cluster).2 rfl) w

end Loading

section Removing

/-- The Secret of the cluster is gone afterwards, and nothing else. -/
theorem ensures_discard (cluster : Cluster) {m : SecretStore} (hm : m.IsKept) :
    (discard cluster).run.Ensures answer m fun r m' =>
      r = .ok () ∧ m'.IsKept ∧ m'.secrets.get? cluster.secretKey = none ∧
        ∀ key, key ≠ cluster.secretKey → m'.secrets.get? key = m.secrets.get? key := by
  cases hs : m.secrets.get? cluster.secretKey with
  | none =>
    refine (ensures_discard_error (SecretStore.get_of_none hs)).2 ?_
    exact ⟨rfl, hm, hs, fun _ _ => rfl⟩
  | some s =>
    obtain ⟨m', hdelete, hsecrets⟩ := SecretStore.delete_eq hs
    refine (ensures_discard_found (SecretStore.get_of_some hs)).2 ?_
    simp only [answer, hdelete]
    refine ⟨rfl, SecretStore.isKept_erase hm hsecrets, ?_, fun key hkey => ?_⟩
    · rw [hsecrets]
      exact (Table.get?_erase _ _ _).trans (if_pos rfl)
    · rw [hsecrets]
      exact (Table.get?_erase _ _ _).trans (if_neg fun h => hkey h.symm)

end Removing

section Writing

/-- A stored Secret carries the desired one, and all others are as they were. -/
structure Converged (desired s : Secret) (m m' : SecretStore) : Prop where
  kept : m'.IsKept
  found : m'.secrets.get? (SecretStore.keyOf desired) = some s
  carries : desired.Carries s
  elsewhere : ∀ key, key ≠ SecretStore.keyOf desired → m'.secrets.get? key = m.secrets.get? key

/-- What is written under its own name is found there, and nothing else is touched. -/
theorem converged_of_insert {desired s : Secret} {m m' : SecretStore} (hm : m.IsKept)
    (hkey : SecretStore.keyOf s = SecretStore.keyOf desired) (hs : desired.Carries s)
    (h : m'.secrets = m.secrets.insert (SecretStore.keyOf s) s) : Converged desired s m m' := by
  refine ⟨SecretStore.isKept_insert hm h, ?_, hs, fun key hne => ?_⟩
  · rw [h, Table.get?_insert, if_pos hkey]
  · rw [h, Table.get?_insert, if_neg fun he => hne (he.symm.trans hkey)]

theorem ensures_attempt (desired : Secret) {m : SecretStore} (hm : m.IsKept) :
    (Convergence.attempt desired).run.Ensures answer m fun r m' =>
      ∃ s, r = .ok s ∧ Converged desired s m m' := by
  cases hs : m.secrets.get? (SecretStore.keyOf desired) with
  | none =>
    obtain ⟨m', hcreate, hsecrets⟩ := SecretStore.create_eq hs
    refine (Convergence.ensures_attempt_missing (SecretStore.get_of_none hs) rfl).2 ?_
    simp only [answer, hcreate]
    exact ⟨_, rfl, converged_of_insert hm rfl (desired.carries_self _ _) hsecrets⟩
  | some stored =>
    cases hold : desired.outdated stored with
    | true =>
      obtain ⟨m', hupdate, hsecrets⟩ := Secret.update_overlay_eq hm hs
      have hkey := Secret.keyOf_overlay hm hs
      refine (Convergence.ensures_attempt_outdated (SecretStore.get_of_some hs) hold).2 ?_
      simp only [answer, hupdate]
      exact ⟨_, rfl, converged_of_insert hm hkey (desired.carries_overlay stored _ _) hsecrets⟩
    | false =>
      refine (Convergence.ensures_attempt_current (SecretStore.get_of_some hs) hold).2 ?_
      exact ⟨stored, rfl, hm, hs, Secret.carries_of_not_outdated hold, fun _ _ => rfl⟩

theorem ensures_converge (expected : Secret) (owner : Option OwnerReference) (attempts : Int)
    {m : SecretStore} (hm : m.IsKept) :
    (converge expected owner attempts).run.Ensures answer m fun r m' =>
      ∃ s, r = .ok s ∧ Converged (expected.desired owner) s m m' :=
  Action.ensures_retrying (ensures_attempt (expected.desired owner) hm) _ _

/-- How storing an index ends: with the index saved, or at a credential without bytes. -/
theorem ensures_store {x : KeyIndex} (hx : x.IsNamed) (hne : x.isEmpty = false)
    (cluster : Cluster) (attempts : Int) {m : SecretStore} (hm : m.IsKept) :
    (x.store cluster attempts).run.Ensures answer m fun r m' =>
      (r = .ok () ∧ x.Saved cluster m m') ∨
        ((∃ e, r = .error e) ∧ ¬ x.IsEncodable ∧ m' = m) := by
  refine (Action.ensures_bind _ _ _ _).2 ((Action.ensures_ofExcept _ _ _).2 ?_)
  cases hs : x.toSecret cluster with
  | error e =>
    refine Or.inr ⟨⟨e, rfl⟩, fun henc => ?_, rfl⟩
    obtain ⟨s, hok⟩ := (toSecret_eq_ok_iff x cluster).2 henc
    rw [hs] at hok
    cases hok
  | ok expected =>
    obtain ⟨hkey, hholds⟩ := holds_toSecret hx hs
    refine (Action.ensures_bind _ _ _ _).2 ?_
    refine Program.ensures_mono (ensures_converge expected _ attempts hm) ?_
    rintro r m' ⟨s, rfl, hdone⟩
    refine Or.inl ⟨rfl, hdone.kept, ?_, fun key hne => ?_⟩
    · rw [Stands, hne, if_neg Bool.false_ne_true]
      refine ⟨s, ?_, holds_of_carries hholds (Secret.carries_of_desired hdone.carries)⟩
      rw [← hkey]
      exact hdone.found
    · refine hdone.elsewhere key ?_
      rw [← hkey] at hne
      exact hne

end Writing

/-- How saving an index ends: with the index saved, or at a credential without bytes. -/
theorem ensures_save {x : KeyIndex} (hx : x.IsNamed) (cluster : Cluster) (attempts : Int)
    {m : SecretStore} (hm : m.IsKept) :
    (x.save cluster attempts).run.Ensures answer m fun r m' =>
      (r = .ok () ∧ x.Saved cluster m m') ∨
        ((∃ e, r = .error e) ∧ x.isEmpty = false ∧ ¬ x.IsEncodable ∧ m' = m) := by
  unfold save
  cases hne : x.isEmpty with
  | true =>
    rw [if_pos rfl]
    refine Program.ensures_mono (ensures_discard cluster hm) ?_
    rintro r m' ⟨rfl, hkept, hnone, helse⟩
    refine Or.inl ⟨rfl, hkept, ?_, helse⟩
    rw [Stands, if_pos hne]
    exact hnone
  | false =>
    rw [if_neg Bool.false_ne_true]
    refine Program.ensures_mono (ensures_store hx hne cluster attempts hm) ?_
    rintro r m' (⟨rfl, hsaved⟩ | ⟨he, henc, hm'⟩)
    · exact Or.inl ⟨rfl, hsaved⟩
    · exact Or.inr ⟨he, rfl, henc, hm'⟩

/-- An index that has bytes for its credentials is saved. -/
theorem ensures_save_of_isEncodable {x : KeyIndex} (hx : x.IsNamed) (henc : x.IsEncodable)
    (cluster : Cluster) (attempts : Int) {m : SecretStore} (hm : m.IsKept) :
    (x.save cluster attempts).run.Ensures answer m fun r m' =>
      r = .ok () ∧ x.Saved cluster m m' := by
  refine Program.ensures_mono (ensures_save hx cluster attempts hm) ?_
  rintro r m' (⟨hr, hsaved⟩ | ⟨-, -, hnot, -⟩)
  · exact ⟨hr, hsaved⟩
  · exact absurd henc hnot

section Reloading

variable [Json.Nesting]

/-- A legible index that stands in a store is loaded from it. -/
theorem indexOf_of_stands {x : KeyIndex} (hx : x.IsLegible) {cluster : Cluster} {m : SecretStore}
    (h : x.Stands cluster m) (hne : x.isEmpty = false) :
    ∃ y, m.indexOf cluster = .ok y ∧ y.Alike x := by
  rw [Stands, hne, if_neg Bool.false_ne_true] at h
  obtain ⟨s, hs, hholds⟩ := h
  unfold SecretStore.indexOf
  rw [hs]
  exact ofSecret_of_holds hx hholds

theorem indexOf_of_stands_empty {x : KeyIndex} {cluster : Cluster} {m : SecretStore}
    (h : x.Stands cluster m) (hx : x.isEmpty = true) : m.indexOf cluster = .ok .empty := by
  rw [Stands, if_pos hx] at h
  unfold SecretStore.indexOf
  rw [h]

end Reloading

end KeyIndex
end CrossClusterKeys
