import CrossClusterKeys.Proofs.Merging
import Mathlib.Data.List.Induction
import Mathlib.Data.List.Perm.Basic

/-!
# References that are adopted one after the other

References are admissible when their UIDs are distinct and at most one of them is to a controller.
An adoption drops every other controller, also one that was adopted just before.

**Input.**  The references of a stored Secret, and those that an expected one wants there.

**Invariant.**  A reference that has been adopted stays until a reference to a controller or with
its own UID is adopted; with distinct UIDs, a controller stays only until the next adoption.

**Results.**
* `adopt_perm`: the adoption of the controller that is there already changes the order alone.
* `all_mem_adoptAll_iff`: all adopted references stay if and only if no controller is adopted
  before the last of them.
* `Secret.outdated_eq_false_iff_alike`: where at most one controller is expected and nothing else,
  a Secret needs no write if and only if the merge changes nothing but an order.
-/

namespace CrossClusterKeys
namespace OwnerReference

variable {refs : List OwnerReference} {r : OwnerReference}

/-- Distinct UIDs, and at most one controller. -/
structure Admissible (refs : List OwnerReference) : Prop where
  nodup : (refs.map OwnerReference.uid).Nodup
  controllers : refs.countP OwnerReference.controller ≤ 1

/-- The other references have other UIDs than the controller and are no controllers. -/
theorem Admissible.kept_of_controller {before after : List OwnerReference}
    (h : Admissible (before ++ r :: after)) (hr : r.controller = true) :
    ∀ s ∈ before ++ after, s.uid ≠ r.uid ∧ s.controller = false := by
  have hcount := h.controllers
  rw [List.countP_append, List.countP_cons_of_pos hr] at hcount
  have hbefore : before.countP OwnerReference.controller = 0 := by omega
  have hafter : after.countP OwnerReference.controller = 0 := by omega
  have hperm : ((before ++ r :: after).map OwnerReference.uid).Perm
      (r.uid :: (before ++ after).map OwnerReference.uid) := List.perm_middle.map _
  have huid := (List.nodup_cons.1 (hperm.nodup_iff.1 h.nodup)).1
  intro s hs
  refine ⟨fun heq => huid (heq ▸ List.mem_map_of_mem hs), ?_⟩
  rcases List.mem_append.1 hs with hs | hs
  · exact Bool.eq_false_iff.2 (List.countP_eq_zero.1 hbefore s hs)
  · exact Bool.eq_false_iff.2 (List.countP_eq_zero.1 hafter s hs)

/-- The adoption of the controller that is there already changes the order alone. -/
theorem adopt_perm (h : Admissible refs) (hmem : r ∈ refs) (hr : r.controller = true) :
    (r.adopt refs).Perm refs := by
  obtain ⟨before, after, rfl⟩ := List.append_of_mem hmem
  have hkept := h.kept_of_controller hr
  have hfilter : (before ++ r :: after).filter (fun s => s.uid ≠ r.uid && !s.controller) =
      before ++ after := by
    rw [List.filter_append, List.filter_cons_of_neg (by simp), ← List.filter_append,
      List.filter_eq_self]
    intro s hs
    simp [hkept s hs]
  rw [adopt, hfilter]
  exact (List.perm_append_singleton r _).trans List.perm_middle.symm

/-- An adopted reference has its UID to itself. -/
theorem nodup_adopt (h : (refs.map OwnerReference.uid).Nodup) (r : OwnerReference) :
    ((r.adopt refs).map OwnerReference.uid).Nodup := by
  rw [adopt, List.map_append, List.nodup_append]
  refine ⟨h.sublist (List.filter_sublist.map _), by simp, ?_⟩
  intro u hu v hv heq
  obtain ⟨s, hs, rfl⟩ := List.mem_map.1 hu
  have hne : s.uid ≠ r.uid := by
    simpa using (Bool.and_eq_true_iff.1 (List.mem_filter.1 hs).2).1
  exact hne (heq.trans (by simpa using hv))

/-- No reference before the adopted one is a controller. -/
theorem controller_of_mem_dropLast_adopt (r : OwnerReference) (refs : List OwnerReference) :
    ∀ s ∈ (r.adopt refs).dropLast, s.controller = false := by
  rw [adopt, List.dropLast_concat]
  intro s hs
  simpa using (Bool.and_eq_true_iff.1 (List.mem_filter.1 hs).2).2

/-- The references after all of `rs` have been adopted, the first one first. -/
def adoptAll (rs refs : List OwnerReference) : List OwnerReference :=
  rs.foldl (fun refs r => r.adopt refs) refs

theorem adoptAll_concat (rs : List OwnerReference) (r : OwnerReference)
    (refs : List OwnerReference) : adoptAll (rs ++ [r]) refs = r.adopt (adoptAll rs refs) :=
  List.foldl_append

/-- What was adopted stays if it is no controller and the next one has another UID. -/
theorem mem_adoptAll_concat_iff {rs : List OwnerReference} {last : OwnerReference} :
    r ∈ adoptAll (rs ++ [last]) refs ↔
      r = last ∨ (r ∈ adoptAll rs refs ∧ r.uid ≠ last.uid ∧ r.controller = false) := by
  rw [adoptAll_concat, mem_adopt_iff]

theorem uid_ne_of_nodup_concat {rs : List OwnerReference} {last : OwnerReference}
    (h : ((rs ++ [last]).map OwnerReference.uid).Nodup) (hr : r ∈ rs) : r.uid ≠ last.uid := by
  rw [List.map_append, List.nodup_append] at h
  exact h.2.2 _ (List.mem_map_of_mem hr) _ (by simp)

/-- All adopted references stay if and only if no controller is adopted before the last. -/
theorem all_mem_adoptAll_iff {rs : List OwnerReference}
    (hnodup : (rs.map OwnerReference.uid).Nodup) (refs : List OwnerReference) :
    (∀ r ∈ rs, r ∈ adoptAll rs refs) ↔ ∀ r ∈ rs.dropLast, r.controller = false := by
  -- From the back: the reference that is adopted last decides which of the others stay.
  induction rs using List.reverseRecOn with
  | nil => simp
  | append_singleton rs last ih =>
    have hrest : (rs.map OwnerReference.uid).Nodup :=
      hnodup.sublist ((List.sublist_append_left rs [last]).map _)
    rw [List.dropLast_concat]
    constructor
    · intro hall r hr
      rcases mem_adoptAll_concat_iff.1 (hall r (List.mem_append_left _ hr)) with rfl | ⟨-, -, hr'⟩
      · exact absurd rfl (uid_ne_of_nodup_concat hnodup hr)
      · exact hr'
    · intro hplain r hr
      have hstay := (ih hrest).2 fun s hs => hplain s (List.dropLast_subset _ hs)
      rcases List.mem_append.1 hr with hr | hr
      · exact mem_adoptAll_concat_iff.2
          (Or.inr ⟨hstay r hr, uid_ne_of_nodup_concat hnodup hr, hplain r hr⟩)
      · exact mem_adoptAll_concat_iff.2 (Or.inl (List.mem_singleton.1 hr))

end OwnerReference

namespace Secret

/-- The same Secret, whatever the order of its entries and of its owners. -/
structure Alike (s s' : Secret) : Prop where
  name : s.name = s'.name
  «namespace» : s.namespace = s'.namespace
  labels : ∀ k, s.labels.get? k = s'.labels.get? k
  annotations : ∀ k, s.annotations.get? k = s'.annotations.get? k
  data : ∀ k, s.data.get? k = s'.data.get? k
  owners : s.owners.Perm s'.owners
  uid : s.uid = s'.uid
  version : s.version = s'.version

variable {expected stored : Secret}

theorem owners_overlay_eq (expected stored : Secret) :
    (expected.overlay stored).owners = OwnerReference.adoptAll expected.owners stored.owners := rfl

theorem nodup_desired (h : (expected.owners.map OwnerReference.uid).Nodup)
    (owner : Option OwnerReference) :
    ((expected.desired owner).owners.map OwnerReference.uid).Nodup := by
  cases owner with
  | none => exact h
  | some o => exact OwnerReference.nodup_adopt h o

/-- Where the controller is the only owner that is expected, if any, the owners are there already
if and only if their adoption changes nothing but the order. -/
theorem all_mem_owners_iff_perm
    (hexpected : expected.owners = [] ∨ ∃ r, expected.owners = [r] ∧ r.controller = true)
    (hstored : OwnerReference.Admissible stored.owners) :
    (∀ r ∈ expected.owners, r ∈ stored.owners) ↔
      (expected.overlay stored).owners.Perm stored.owners := by
  rw [owners_overlay_eq]
  rcases hexpected with hnone | ⟨r, hone, hr⟩
  · rw [hnone]
    exact iff_of_true (by simp) (List.Perm.refl _)
  · rw [hone, List.forall_mem_singleton]
    change r ∈ stored.owners ↔ (r.adopt stored.owners).Perm stored.owners
    constructor
    · exact fun hmem => OwnerReference.adopt_perm hstored hmem hr
    · exact fun hperm =>
        hperm.mem_iff.1 ((OwnerReference.mem_adopt_iff r r _).2 (Or.inl rfl))

/-- Where the controller is the only owner that is expected, if any, a stored Secret needs no write
if and only if the merge makes no other Secret of it. -/
theorem outdated_eq_false_iff_alike
    (hexpected : expected.owners = [] ∨ ∃ r, expected.owners = [r] ∧ r.controller = true)
    (hstored : OwnerReference.Admissible stored.owners) :
    expected.outdated stored = false ↔ (expected.overlay stored).Alike stored := by
  rw [outdated_eq_false_iff, all_mem_owners_iff_perm hexpected hstored]
  constructor
  · rintro ⟨hcarries, hperm⟩
    exact {
      name := rfl
      «namespace» := rfl
      labels := (Table.get?_overlay_eq_iff _ _).2 hcarries.labels
      annotations := (Table.get?_overlay_eq_iff _ _).2 hcarries.annotations
      data := fun k => (hcarries.data k).symm
      owners := hperm
      uid := rfl
      version := rfl }
  · intro halike
    refine ⟨⟨?_, ?_, fun k => (halike.data k).symm⟩, halike.owners⟩
    · exact (Table.get?_overlay_eq_iff _ _).1 halike.labels
    · exact (Table.get?_overlay_eq_iff _ _).1 halike.annotations

/-- The merge would move the controller behind another owner and change nothing else. -/
theorem outdated_eq_false_iff_alike_moved :
    let controller : OwnerReference := ⟨"v1", "Elasticsearch", "es", "uid", true, true⟩
    let other : OwnerReference := ⟨"v1", "ConfigMap", "c", "uid-2", false, false⟩
    let expected : Secret := ⟨"s", "ns", Table.empty.insert "a" "1", .empty,
      Table.empty.insert "k" [1], [controller], [], []⟩
    let stored : Secret := ⟨"s", "ns", .ofList [("b", "2"), ("a", "1")], .empty,
      Table.empty.insert "k" [1], [controller, other], "uid-1", "4"⟩
    OwnerReference.Admissible stored.owners ∧
      (expected.overlay stored).owners = [other, controller] ∧
      expected.outdated stored = false ∧ (expected.overlay stored).Alike stored := by
  intro controller other expected stored
  have hstored : OwnerReference.Admissible stored.owners := ⟨by decide, by decide⟩
  have hcurrent : expected.outdated stored = false := by decide
  have hiff : expected.outdated stored = false ↔ (expected.overlay stored).Alike stored :=
    outdated_eq_false_iff_alike (Or.inr ⟨controller, rfl, rfl⟩) hstored
  exact ⟨hstored, rfl, hcurrent, hiff.1 hcurrent⟩

end Secret
end CrossClusterKeys
