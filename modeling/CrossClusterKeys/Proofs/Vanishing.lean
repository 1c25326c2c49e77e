import CrossClusterKeys.Proofs.Edits
import CrossClusterKeys.Proofs.Rounds

/-!
# Secrets that vanish while an index is saved

Others may delete the Secret of a cluster at any point while an index is saved.

**Cases.**  An index without aliases wants the Secret gone and is content.  For an index with
aliases a Secret that is missing at the read is created, in whatever attempt.  What remains is the
update of a Secret that was found and has been deleted since.

**Results.**
* `ensures_discard_content`: saving an index without aliases never fails for a missing Secret.
* `Cycle.isNotFound_iff`: an attempt fails for a missing Secret in the remaining case only.
* `isNotFound_save_iff`: saving fails for a missing Secret in that case and in no other.
-/

namespace CrossClusterKeys

open SecretStore (keyOf)

/-- The Secret of some name was found by the read before the last call, and that call, an update,
did not find it any more. -/
def EndsVanished (key : Text × Text) (moments : List Moment) : Prop :=
  ∃ before read write s u, moments = before ++ [read, write] ∧
    read.call = .get key.1 key.2 ∧ read.store.secrets.get? key = some s ∧
    write.call = .update u ∧ write.store.secrets.get? key = none

namespace Convergence

variable {desired : Secret} {others : List (List StoreCall)} {more : Nat} {rounds : List Round}
  {result : Except Raised Secret}

/-- A cycle fails for a missing Secret exactly if the Secret has vanished in the last attempt. -/
theorem Cycle.isNotFound_iff (h : Cycle desired others more rounds result) :
    (∃ e, result = .error e ∧ e.isNotFound = true) ↔
      EndsVanished (keyOf desired) (rounds.flatMap Round.moments) := by
  obtain ⟨before, last, hmoments, -, hlast⟩ := h.exists_last
  rw [hmoments]
  constructor
  · rintro ⟨e, rfl, hmissing⟩
    cases hlast with
    | forestalled hbetween hs hs' reason => cases hmissing
    | overtaken hbetween hkey hs hold hs' hstale reason => cases hmissing
    | vanished hbetween hkey hs hold hs' =>
      exact ⟨before, _, _, _, _, rfl, rfl, hs, rfl, hs'⟩
  · rintro ⟨before', read, write, s, u, heq, -, -, hcall, hnone⟩
    have hwrite : last.moments.getLast? = some write := by
      have hlasts := congrArg List.getLast? heq
      rw [List.getLast?_append, List.getLast?_append] at hlasts
      cases htail : last.moments.getLast? with
      | none => exact absurd (List.getLast?_eq_none_iff.1 htail) (List.cons_ne_nil _ _)
      | some t =>
        rw [htail] at hlasts
        exact hlasts
    cases hlast with
    | current hs hcurrent =>
      cases hwrite
      cases hcall
    | created hbetween hs hs' =>
      cases hwrite
      cases hcall
    | forestalled hbetween hs hs' reason =>
      cases hwrite
      cases hcall
    | updated hbetween hkey hs hold hs' =>
      cases hwrite
      cases hs'.symm.trans hnone
    | overtaken hbetween hkey hs hold hs' hstale reason =>
      cases hwrite
      cases hs'.symm.trans hnone
    | vanished hbetween hkey hs hold hs' => exact ⟨_, rfl, rfl⟩

end Convergence

namespace KeyIndex

section Removing

variable {σ : Type} {h : (c : Store.Call) → σ → Store.Answer c × σ}

/-- Whatever the store answers, the removal of the Secret does not fail for its absence. -/
theorem ensures_discard_content (cluster : Cluster) (s : σ) :
    (discard cluster).run.Ensures h s fun r _ => ∀ e, r = .error e → e.isNotFound = false := by
  have hcontent : ∀ (r : Except Raised Unit) (e : Raised),
      removalResult r = .error e → e.isNotFound = false := by
    rintro (e' | u) e he
    · rw [removalResult] at he
      split at he
      · cases he
      · next hne =>
        cases he
        exact Bool.eq_false_iff.2 hne
    · cases he
  rcases hget : (h (.get cluster.namespace (Naming.secretName cluster.name)) s).1 with e | current
  · exact (ensures_discard_error hget).2 (hcontent _)
  · exact (ensures_discard_found hget).2 (hcontent _)

end Removing

section Storing

theorem isNotFound_of_dataOf {es : List (Text × Text)} {e : Raised}
    (h : dataOf es = .error e) : e.isNotFound = false := by
  induction es with
  | nil => cases h
  | cons entry rest ih =>
    rw [dataOf] at h
    split at h
    · cases h
      rfl
    · rcases hrest : dataOf rest with e' | data
      · rw [hrest] at h
        cases h
        exact ih hrest
      · rw [hrest] at h
        cases h

theorem isNotFound_of_toSecret {x : KeyIndex} {cluster : Cluster} {e : Raised}
    (h : x.toSecret cluster = .error e) : e.isNotFound = false := by
  rw [toSecret] at h
  rcases hdata : dataOf x.keys.entries with e' | data
  · rw [hdata] at h
    cases h
    exact isNotFound_of_dataOf hdata
  · rw [hdata] at h
    cases h

/-- An index with aliases is not stored for a missing Secret exactly if the Secret has vanished in
the last attempt. -/
theorem ensures_store_vanished (x : KeyIndex) (cluster : Cluster) (attempts : Int)
    {others : List (List StoreCall)} {y : SharedStore} (hy : y.Within others)
    (hstart : y.moments = []) :
    (x.store cluster attempts).run.Ensures SharedStore.answer y fun r y' =>
      (∃ e, r = .error e ∧ e.isNotFound = true) ↔ EndsVanished cluster.secretKey y'.moments := by
  refine (Action.ensures_bind _ _ _ _).2 ((Action.ensures_ofExcept _ _ _).2 ?_)
  cases hs : x.toSecret cluster with
  | error e =>
    constructor
    · rintro ⟨e', heq, hmissing⟩
      cases heq
      rw [isNotFound_of_toSecret hs] at hmissing
      cases hmissing
    · rintro ⟨before, read, write, s, u, heq, -⟩
      rw [hstart] at heq
      simp at heq
  | ok expected =>
    refine (Action.ensures_bind _ _ _ _).2 ?_
    refine Program.ensures_mono (Convergence.ensures_converge_cycle expected _ attempts hy) ?_
    rintro r y' ⟨rounds, hcycle, hmoments⟩
    have hiff := hcycle.isNotFound_iff
    have hkey : keyOf (expected.desired cluster.ownerReference?) = cluster.secretKey :=
      (parts_of_toSecret hs).1
    rw [hkey] at hiff
    rw [hstart, List.nil_append] at hmoments
    rw [← hmoments] at hiff
    cases r with
    | ok s =>
      refine Iff.trans ⟨?_, ?_⟩ hiff
      · rintro ⟨e, ⟨⟩, -⟩
      · rintro ⟨e, ⟨⟩, -⟩
    | error e =>
      refine Iff.trans ⟨?_, ?_⟩ hiff
      · rintro ⟨e', ⟨⟩, hmissing⟩
        exact ⟨e, rfl, hmissing⟩
      · rintro ⟨e', ⟨⟩, hmissing⟩
        exact ⟨e, rfl, hmissing⟩

end Storing

/-- Whatever others do to the store before each call, saving an index fails for a missing Secret
exactly if the index has aliases and the Secret, found by the last read, is gone at the update that
follows. -/
theorem isNotFound_save_iff (x : KeyIndex) (cluster : Cluster) (attempts : Int)
    (uids : Nat → Text) (calls : List StoreCall) (others : List (List StoreCall))
    (w : Surroundings) :
    let out := SharedStore.run (x.save cluster attempts).run w
      ⟨(SecretStore.empty uids).after calls, others, []⟩
    (∃ e, out.1 = .error e ∧ e.isNotFound = true) ↔
      x.isEmpty = false ∧ EndsVanished cluster.secretKey out.2.2.moments := by
  unfold save
  cases hne : x.isEmpty with
  | true =>
    have hcontent := SharedStore.run_of_ensures (ensures_discard_content cluster
      ⟨(SecretStore.empty uids).after calls, others, []⟩) w
    rw [if_pos rfl]
    constructor
    · rintro ⟨e, he, hmissing⟩
      rw [hcontent e he] at hmissing
      cases hmissing
    · rintro ⟨⟨⟩, -⟩
  | false =>
    have hstart : SharedStore.Within others ⟨(SecretStore.empty uids).after calls, others, []⟩ :=
      ⟨⟨uids, calls, rfl⟩, fun _ h => h⟩
    rw [if_neg Bool.false_ne_true]
    refine Iff.trans ?_ (and_iff_right rfl).symm
    exact SharedStore.run_of_ensures (ensures_store_vanished x cluster attempts hstart rfl) w

/-- Saving fails for a Secret that is deleted between the read and the update. -/
theorem save_fails_on_vanished :
    let x : KeyIndex := empty.put "prod" "k1" "a2V5"
    let stored : Secret := ⟨"es-es-remote-api-keys", "ns", .empty, .empty, .empty, [], [], []⟩
    let cluster : Cluster := ⟨"es", "ns", "uid", [], "v1", "Elasticsearch"⟩
    let out := SharedStore.run (x.save cluster 3).run .bare
      ⟨(SecretStore.empty fun _ => "uid-1").after [.create stored],
        [[], [.delete "ns" "es-es-remote-api-keys" none]], []⟩
    x.IsEncodable ∧ ∃ e, out.1 = .error e ∧ e.isNotFound = true := by
  exact ⟨isEncodable_put isEncodable_empty _ _ ⟨_, rfl⟩, _, rfl, rfl⟩

end KeyIndex
end CrossClusterKeys
