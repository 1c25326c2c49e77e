import CrossClusterKeys.Proofs.Incarnations
import CrossClusterKeys.Proofs.Rounds
import CrossClusterKeys.Proofs.StoredIndex

/-!
# Removing the Secret that was found and no other one

An index without aliases is saved by removing the Secret of its cluster.  Others may delete that
Secret between the read and the removal and create another one in its place, any number of times;
the removal names the UID that was read and must not hit the other one.

**Cases.**  `Removal` lists how saving can end, with the store `m` at the read and `m'` at the
removal.  The Secret is `absent` from the start; it is still there under its UID and `removed`; it
has `vanished` already; or it was `replaced`, and what stands in its place is left alone.

**Results.**
* `ensures_discard_removal`: every run ends in one of these ways and calls nothing else.
* `Removal.uid_ne`: if the removal succeeds, the UID that was found is never found again.
* `save_isGuardedRemoval`: what is known of such a run as a whole.
-/

namespace CrossClusterKeys

open SharedStore (Between)

/-- A deletion touches no other name. -/
theorem SecretStore.get?_delete_of_ne {m : SecretStore} {n name : Text} {uid : Option Text}
    {key : Text × Text} (hne : key ≠ (n, name)) :
    (m.delete n name uid).2.secrets.get? key = m.secrets.get? key := by
  have herased : (m.secrets.erase (n, name)).get? key = m.secrets.get? key :=
    (Table.get?_erase _ _ _).trans (if_neg hne.symm)
  rw [delete]
  split
  · rfl
  · split
    · split
      · exact herased
      · rfl
    · exact herased

/-- The store right after an attempt. -/
def Convergence.Round.final (r : Convergence.Round) : SecretStore := (r.write.getD r.read).next

namespace KeyIndex

open Convergence (Round)

/-- The reading of the Secret of a cluster at some moment. -/
def fetching (cluster : Cluster) (m : SecretStore) : Moment :=
  ⟨.get cluster.namespace (Naming.secretName cluster.name), m⟩

/-- The removal of the Secret of a cluster at some moment, if its UID is `uid`. -/
def removing (cluster : Cluster) (uid : Text) (m : SecretStore) : Moment :=
  ⟨.delete cluster.namespace (Naming.secretName cluster.name) (some uid), m⟩

/-- How the removal of a Secret can end, and with which result. -/
inductive Removal (cluster : Cluster) (others : List (List StoreCall)) :
    Round → Except Raised Unit → Prop
  | absent {m} (hs : m.secrets.get? cluster.secretKey = none) :
      Removal cluster others ⟨fetching cluster m, none⟩ (.ok ())
  | removed {m m' s t} (hbetween : Between others m m')
      (hs : m.secrets.get? cluster.secretKey = some s)
      (hs' : m'.secrets.get? cluster.secretKey = some t) (huid : t.uid = s.uid) :
      Removal cluster others ⟨fetching cluster m, some (removing cluster s.uid m')⟩ (.ok ())
  | vanished {m m' s} (hbetween : Between others m m')
      (hs : m.secrets.get? cluster.secretKey = some s)
      (hs' : m'.secrets.get? cluster.secretKey = none) :
      Removal cluster others ⟨fetching cluster m, some (removing cluster s.uid m')⟩ (.ok ())
  | replaced {m m' s t} (hbetween : Between others m m')
      (hs : m.secrets.get? cluster.secretKey = some s)
      (hs' : m'.secrets.get? cluster.secretKey = some t) (huid : t.uid ≠ s.uid)
      (resource reason : Text) :
      Removal cluster others ⟨fetching cluster m, some (removing cluster s.uid m')⟩
        (.error (SecretStore.clash resource reason))

variable {cluster : Cluster} {others : List (List StoreCall)}

/-- Every run ends in one of the ways that are listed, and nothing else has been called. -/
theorem ensures_discard_removal (cluster : Cluster) {x : SharedStore} (hx : x.Within others) :
    (discard cluster).run.Ensures SharedStore.answer x fun result x' =>
      ∃ r, Removal cluster others r result ∧ r.read.store = x.now ∧
        x'.moments = x.moments ++ r.moments ∧ x'.store = r.final := by
  let name := Naming.secretName cluster.name
  have hread := SharedStore.within_answer hx (.get cluster.namespace name)
  have hbetween := SharedStore.between_now hread
  cases hs : x.now.secrets.get? cluster.secretKey with
  | none =>
    refine (ensures_discard_error (SecretStore.get_of_none hs)).2 ?_
    exact ⟨_, .absent hs, rfl, rfl, rfl⟩
  | some s =>
    refine (ensures_discard_found (SecretStore.get_of_some hs)).2 ?_
    let m' := (SharedStore.answer (.get cluster.namespace name) x).2.now
    refine ⟨⟨fetching cluster x.now, some (removing cluster s.uid m')⟩, ?_, rfl,
      List.append_assoc _ _ _, rfl⟩
    change Removal cluster others _
      (removalResult (m'.delete cluster.namespace name (some s.uid)).1)
    cases hs' : m'.secrets.get? cluster.secretKey with
    | none =>
      rw [SecretStore.delete_of_none hs']
      exact .vanished hbetween hs hs'
    | some t =>
      by_cases huid : t.uid = s.uid
      · obtain ⟨_, hdelete, -⟩ := SecretStore.delete_eq hs'
        rw [huid] at hdelete
        rw [hdelete]
        exact .removed hbetween hs hs' huid
      · obtain ⟨reason, hdelete⟩ := SecretStore.delete_of_uid_ne hs' (Ne.symm huid)
        rw [hdelete]
        exact .replaced hbetween hs hs' huid _ reason

section Endings

variable {r : Round} {result : Except Raised Unit}

theorem Removal.call_read (h : Removal cluster others r result) :
    r.read.call = .get cluster.namespace (Naming.secretName cluster.name) := by
  cases h <;> rfl

/-- All that can follow the read is a removal under the UID that was read. -/
theorem Removal.call_write (h : Removal cluster others r result) {t : Moment}
    (ht : r.write = some t) :
    Between others r.read.store t.store ∧
      ∃ s, r.read.store.secrets.get? cluster.secretKey = some s ∧
        t.call = .delete cluster.namespace (Naming.secretName cluster.name) (some s.uid) := by
  cases h with
  | absent hs => cases ht
  | removed hbetween hs | vanished hbetween hs | replaced hbetween hs =>
    cases ht
    exact ⟨hbetween, _, hs, rfl⟩

theorem Removal.exists_write (h : Removal cluster others r result) {s : Secret}
    (hs : r.read.store.secrets.get? cluster.secretKey = some s) : ∃ t, r.write = some t := by
  cases h with
  | absent hnone => cases hnone.symm.trans hs
  | removed | vanished | replaced => exact ⟨_, rfl⟩

theorem Removal.elsewhere (h : Removal cluster others r result) {t : Moment} (ht : t ∈ r.moments)
    {key : Text × Text} (hkey : key ≠ cluster.secretKey) :
    t.next.secrets.get? key = t.store.secrets.get? key := by
  rcases Round.mem_moments.1 ht with rfl | hwrite
  · rw [Moment.next, h.call_read]
    rfl
  · obtain ⟨-, s, -, hcall⟩ := h.call_write hwrite
    rw [Moment.next, hcall]
    exact SecretStore.get?_delete_of_ne hkey

/-- If the removal succeeds, the name of what was found is free right after it. -/
theorem Removal.get?_final (h : Removal cluster others r (.ok ())) :
    r.final.secrets.get? cluster.secretKey = none := by
  cases h with
  | absent hs => exact hs
  | @removed m m' s t _ _ hs' huid =>
    obtain ⟨n, hdelete, hsecrets⟩ := SecretStore.delete_eq hs'
    have hfinal : Round.final ⟨fetching cluster m, some (removing cluster s.uid m')⟩ = n := by
      rw [← huid]
      exact congrArg Prod.snd hdelete
    rw [hfinal, hsecrets]
    exact (Table.get?_erase _ _ _).trans (if_pos rfl)
  | @vanished m m' s _ _ hs' =>
    have hfinal : Round.final ⟨fetching cluster m, some (removing cluster s.uid m')⟩ = m' :=
      congrArg Prod.snd (SecretStore.delete_of_none hs')
    rw [hfinal]
    exact hs'

/-- What is stored after the attempt has come about by calls since the read. -/
theorem Removal.exists_after (h : Removal cluster others r result) :
    ∃ calls, r.final = r.read.store.after calls := by
  cases hwrite : r.write with
  | none =>
    refine ⟨[r.read.call], ?_⟩
    rw [Round.final, hwrite]
    rfl
  | some t =>
    obtain ⟨⟨calls, -, hstore⟩, -⟩ := h.call_write hwrite
    refine ⟨calls ++ [t.call], ?_⟩
    rw [SecretStore.after_append, ← hstore, Round.final, hwrite]
    rfl

/-- If the removal succeeds, the UID that was found is never found again. -/
theorem Removal.uid_ne (h : Removal cluster others r (.ok ())) (hread : r.read.store.IsIdentified)
    {s : Secret} (hs : r.read.store.secrets.get? cluster.secretKey = some s)
    {further : List StoreCall} {key : Text × Text} {t : Secret}
    (ht : (r.final.after further).secrets.get? key = some t) : t.uid ≠ s.uid := by
  obtain ⟨calls, hfinal⟩ := h.exists_after
  have hgone := h.get?_final
  rw [hfinal] at hgone ht
  exact SecretStore.uid_ne_of_vanished hread hs hgone ht

end Endings

/-- What is known of the removal of a Secret as a whole. -/
structure IsGuardedRemoval (cluster : Cluster) (others : List (List StoreCall)) (r : Round)
    (result : Except Raised Unit) : Prop where
  read : r.read.call = .get cluster.namespace (Naming.secretName cluster.name)
  /-- All that can follow the read is a removal under the UID that was read, on what others have
  made of the store since. -/
  write : ∀ t, r.write = some t → Between others r.read.store t.store ∧
    ∃ s, r.read.store.secrets.get? cluster.secretKey = some s ∧
      t.call = .delete cluster.namespace (Naming.secretName cluster.name) (some s.uid)
  absent : r.read.store.secrets.get? cluster.secretKey = none → r.write = none ∧ result = .ok ()
  found : ∀ s, r.read.store.secrets.get? cluster.secretKey = some s → ∃ t, r.write = some t
  /-- After a removal that did not fail, nothing has the UID that was found, now or later. -/
  removed : ∀ s, r.read.store.secrets.get? cluster.secretKey = some s → result = .ok () →
    ∀ further key s', (r.final.after further).secrets.get? key = some s' → s'.uid ≠ s.uid
  matched : ∀ s t s', r.read.store.secrets.get? cluster.secretKey = some s → r.write = some t →
    t.store.secrets.get? cluster.secretKey = some s' → s'.uid = s.uid → result = .ok ()
  /-- A Secret of another UID is a conflict and stays as it is. -/
  replaced : ∀ s t s', r.read.store.secrets.get? cluster.secretKey = some s → r.write = some t →
    t.store.secrets.get? cluster.secretKey = some s' → s'.uid ≠ s.uid →
    (∃ e, result = .error e ∧ e.isConflict = true) ∧ r.final = t.store
  vanished : ∀ t, r.write = some t → t.store.secrets.get? cluster.secretKey = none →
    result = .ok () ∧ r.final = t.store
  elsewhere : ∀ t ∈ r.moments, ∀ key, key ≠ cluster.secretKey →
    t.next.secrets.get? key = t.store.secrets.get? key

theorem Removal.isGuardedRemoval {r : Round} {result : Except Raised Unit}
    (h : Removal cluster others r result) (hread : r.read.store.IsIdentified) :
    IsGuardedRemoval cluster others r result where
  read := h.call_read
  write _ := h.call_write
  absent hnone := by
    cases h with
    | absent => exact ⟨rfl, rfl⟩
    | removed _ hs | vanished _ hs | replaced _ hs => cases hs.symm.trans hnone
  found _ := h.exists_write
  removed s hs hresult further key t ht := by
    subst hresult
    exact h.uid_ne hread hs ht
  matched s t s' hs ht hs' huid := by
    cases h with
    | absent => cases ht
    | removed | vanished => rfl
    | replaced _ hfound hfound' hne =>
      cases ht
      cases hfound.symm.trans hs
      cases hfound'.symm.trans hs'
      exact absurd huid hne
  replaced s t s' hs ht hs' huid := by
    cases h with
    | absent => cases ht
    | removed _ hfound hfound' hsame =>
      cases ht
      cases hfound.symm.trans hs
      cases hfound'.symm.trans hs'
      exact absurd hsame huid
    | vanished _ _ hnone =>
      cases ht
      cases hnone.symm.trans hs'
    | replaced _ hfound hfound' hne =>
      cases ht
      obtain ⟨reason, hdelete⟩ := SecretStore.delete_of_uid_ne hfound' (Ne.symm hne)
      exact ⟨⟨_, rfl, rfl⟩, congrArg Prod.snd hdelete⟩
  vanished t ht hnone := by
    cases h with
    | absent => cases ht
    | removed _ _ hfound' | replaced _ _ hfound' =>
      cases ht
      cases hfound'.symm.trans hnone
    | vanished =>
      cases ht
      exact ⟨rfl, congrArg Prod.snd (SecretStore.delete_of_none hnone)⟩
  elsewhere _ ht _ := h.elsewhere ht

/-- Whatever others do to the store before each call, an index without aliases is saved by at most
one removal, which hits the Secret that was found or none. -/
theorem save_isGuardedRemoval {x : KeyIndex} (hx : x.isEmpty = true) (cluster : Cluster)
    (attempts : Int) {uids : Nat → Text} (huids : SecretStore.DrawsOnce uids)
    (calls : List StoreCall) (others : List (List StoreCall)) (w : Surroundings) :
    let out := SharedStore.run (x.save cluster attempts).run w
      ⟨(SecretStore.empty uids).after calls, others, []⟩
    ∃ r, out.2.2.moments = r.moments ∧ out.2.2.store = r.final ∧
      IsGuardedRemoval cluster others r out.1 := by
  intro out
  have hstart : SharedStore.Within others ⟨(SecretStore.empty uids).after calls, others, []⟩ :=
    ⟨⟨uids, calls, rfl⟩, fun _ h => h⟩
  have hidentified := SecretStore.isIdentified_after
    (SecretStore.isIdentified_after (SecretStore.isIdentified_empty huids) calls) (others.headD [])
  have hsave : x.save cluster attempts = discard cluster := if_pos hx
  obtain ⟨r, hends, hread, hmoments, hfinal⟩ :=
    SharedStore.run_of_ensures (ensures_discard_removal cluster hstart) w
  rw [← hsave] at hends hmoments hfinal
  exact ⟨r, hmoments, hfinal, hends.isGuardedRemoval (hread ▸ hidentified)⟩

/-- Between the read and the removal the Secret is deleted and created anew, updated, and once more
deleted and created anew; the third Secret of that name is left alone. -/
theorem save_isGuardedRemoval_recreated :
    let cluster : Cluster := ⟨"es", "ns", "uid", [], "v1", "Elasticsearch"⟩
    let stored (label : Text) : Secret :=
      ⟨"es-es-remote-api-keys", "ns", Table.empty.insert "a" label, .empty, .empty, [], [], []⟩
    let gone : StoreCall := .delete "ns" "es-es-remote-api-keys" none
    let others : List (List StoreCall) := [[],
      [gone, .create (stored "2"), .update (stored "3"), gone, .create (stored "4")]]
    let out := SharedStore.run (KeyIndex.empty.save cluster 3).run .bare
      ⟨(SecretStore.empty Digits.ofNat).after [.create (stored "1")], others, []⟩
    KeyIndex.empty.isEmpty = true ∧ SecretStore.DrawsOnce Digits.ofNat ∧
      (∃ e, out.1 = .error e ∧ e.isConflict = true) ∧
      ∃ r, out.2.2.moments = r.moments ∧ out.2.2.store = r.final ∧
        IsGuardedRemoval cluster others r out.1 := by
  have huids : SecretStore.DrawsOnce Digits.ofNat :=
    fun _ _ _ hlt heq => absurd (Digits.ofNat_injective heq) (Nat.ne_of_lt hlt)
  exact ⟨rfl, huids, ⟨_, rfl, rfl⟩, save_isGuardedRemoval rfl _ 3 huids _ _ .bare⟩

end KeyIndex
end CrossClusterKeys
