import CrossClusterKeys.Proofs.PassOutcome
import CrossClusterKeys.Proofs.Rereading

/-!
# What a pass reports

A pass compares the expected keys with an index that it changes on the way.  No alias comes twice,
so each comparison is as good as one with the index that was loaded.

**Results.**
* `foldl_settle`: the lists that a pass collects are parts of the expected keys, picked by the index
  before the pass.
* `agrees_of_apply`, `isDifference_of_apply`: the index after a pass, and what is reported of the
  way there.
* `isLegible_of_apply`: the index after a pass can be read again.
-/

namespace CrossClusterKeys

namespace Text

/-- The list has the texts with a property, in order and each of them once. -/
structure Lists (p : Text → Prop) (ts : List Text) : Prop where
  sorted : ts.Pairwise fun s t => le s t = true
  nodup : ts.Nodup
  mem : ∀ t, t ∈ ts ↔ p t

theorem lists_sort {ts : List Text} (h : ts.Nodup) : Lists (· ∈ ts) (sort ts) where
  sorted := by
    have htrans : ∀ s t u : Text, le s t = true → le t u = true → le s u = true :=
      fun _ _ _ => le_trans
    have htotal : ∀ s t : Text, (le s t || le t s) = true := by
      intro s t
      rw [Bool.or_eq_true]
      exact le_total s t
    exact List.pairwise_mergeSort htrans htotal ts
  nodup := (List.mergeSort_perm ts le).nodup_iff.2 h
  mem _ := (List.mergeSort_perm ts le).mem_iff

theorem Lists.congr {p q : Text → Prop} {ts : List Text} (h : Lists p ts)
    (hpq : ∀ t, p t ↔ q t) : Lists q ts :=
  ⟨h.sorted, h.nodup, fun t => (h.mem t).trans (hpq t)⟩

theorem Lists.disjoint {p q : Text → Prop} {ts us : List Text} (hp : Lists p ts)
    (hq : Lists q us) (hpq : ∀ t, p t → ¬ q t) : ts.Disjoint us :=
  fun t ht hu => hpq t ((hp.mem t).1 ht) ((hq.mem t).1 hu)

end Text

/-- The texts of a key are without surrogates. -/
structure IssuedKey.IsWellFormed (k : IssuedKey) : Prop where
  remote : k.remote.isWellFormed = true
  keyId : k.keyId.isWellFormed = true
  encoded : k.encoded.isWellFormed = true

namespace Pass

/-- The index has exactly the expected aliases, with their key IDs and keys. -/
structure Agrees (x : KeyIndex) (expected : List IssuedKey) : Prop where
  aliases : ∀ a, x.aliases.get? a = (expectedFor expected a).map IssuedKey.keyId
  credentials : ∀ a k, expectedFor expected a = some k → x.credentialFor a = k.encoded

/-- The report tells how the expected keys differ from the index `x`, and its own index agrees with
them. -/
structure Report.IsDifference (x : KeyIndex) (expected : List IssuedKey) (r : Report) : Prop where
  removed : Text.Lists (fun a => x.contains a = true ∧ expectedFor expected a = none) r.removed
  added : Text.Lists (fun a => x.contains a = false ∧ (expectedFor expected a).isSome = true)
    r.added
  /-- Rotated is what is known with another key ID or another key. -/
  rotated : Text.Lists (fun a => x.contains a = true ∧ ∃ k, expectedFor expected a = some k ∧
    (x.keyIdFor a ≠ k.keyId ∨ x.credentialFor a ≠ k.encoded)) r.rotated
  removed_added : r.removed.Disjoint r.added
  removed_rotated : r.removed.Disjoint r.rotated
  added_rotated : r.added.Disjoint r.rotated
  agrees : Agrees r.index expected

section Collecting

theorem contains_settled_of_ne (x : KeyIndex) {k : IssuedKey} {a : Text} (h : k.remote ≠ a) :
    (settled x k).contains a = x.contains a := by
  simp only [KeyIndex.contains, Table.contains, get?_aliases_settled, if_neg h]

theorem isStale_settled_of_ne (x : KeyIndex) {k k' : IssuedKey} (h : k.remote ≠ k'.remote) :
    isStale (settled x k) k' = isStale x k' := by
  have hid : (settled x k).keyIdFor k'.remote = x.keyIdFor k'.remote := by
    simp only [KeyIndex.keyIdFor, get?_aliases_settled, if_neg h]
  have hcredential : (settled x k).credentialFor k'.remote = x.credentialFor k'.remote := by
    simp only [KeyIndex.credentialFor, get?_keys_settled, if_neg h]
  rw [isStale, isStale, hid, hcredential]

/-- The lists that are collected are parts of the keys, picked by the index at the beginning. -/
theorem foldl_settle {ks : List IssuedKey} (hnodup : (ks.map IssuedKey.remote).Nodup)
    (r : Report) :
    (ks.foldl Report.settle r).added =
        r.added ++ (ks.filter fun k => !r.index.contains k.remote).map IssuedKey.remote ∧
      (ks.foldl Report.settle r).rotated =
        r.rotated ++ (ks.filter fun k =>
          r.index.contains k.remote && isStale r.index k).map IssuedKey.remote ∧
      (ks.foldl Report.settle r).removed = r.removed := by
  induction ks generalizing r with
  | nil => simp
  | cons k ks ih =>
    rw [List.map_cons, List.nodup_cons] at hnodup
    obtain ⟨hadded, hrotated, hremoved⟩ := ih hnodup.2 (r.settle k)
    have hne : ∀ k' ∈ ks, k.remote ≠ k'.remote := by
      intro k' hk' heq
      exact hnodup.1 (heq ▸ List.mem_map.2 ⟨k', hk', rfl⟩)
    have hnew : ks.filter (fun k' => !(r.settle k).index.contains k'.remote) =
        ks.filter fun k' => !r.index.contains k'.remote := by
      refine List.filter_congr fun k' hk' => ?_
      exact congrArg Bool.not (contains_settled_of_ne r.index (hne k' hk'))
    have hstale : ks.filter (fun k' =>
          (r.settle k).index.contains k'.remote && isStale (r.settle k).index k') =
        ks.filter fun k' => r.index.contains k'.remote && isStale r.index k' := by
      refine List.filter_congr fun k' hk' => ?_
      exact congrArg₂ Bool.and (contains_settled_of_ne r.index (hne k' hk'))
        (isStale_settled_of_ne r.index (hne k' hk'))
    rw [hnew] at hadded
    rw [hstale] at hrotated
    refine ⟨hadded.trans ?_, hrotated.trans ?_, hremoved⟩
    · cases hknown : r.index.contains k.remote <;> simp [Report.settle, hknown]
    · cases hcond : r.index.contains k.remote && isStale r.index k <;>
        simp [Report.settle, hcond]

theorem recordAll_eq {ks : List IssuedKey} {r r' : Report} (h : recordAll r ks = .ok r') :
    r' = ks.foldl Report.settle r := by
  induction ks generalizing r with
  | nil =>
    cases h
    rfl
  | cons k ks ih => exact ih (recordAll_settle h).1

/-- Any part of the expected keys has its aliases in order. -/
theorem lists_filter_wanted (expected : List IssuedKey) (p : IssuedKey → Bool) :
    Text.Lists (fun a => ∃ k, expectedFor expected a = some k ∧ p k = true)
      ((((wanted expected).sorted.map Prod.snd).filter p).map IssuedKey.remote) := by
  have hsub : ((((wanted expected).sorted.map Prod.snd).filter p).map IssuedKey.remote).Sublist
      ((wanted expected).sorted.map Prod.fst) := by
    rw [← map_remote_sorted_wanted]
    exact List.filter_sublist.map _
  refine ⟨?_, hsub.nodup (KeyMap.nodup_sorted _), fun a => ?_⟩
  · exact (List.pairwise_map.2 (KeyMap.pairwise_sorted _)).sublist hsub
  · simp only [List.mem_map (f := IssuedKey.remote), List.mem_filter, mem_sorted_wanted]
    constructor
    · rintro ⟨k, ⟨hk, hp⟩, rfl⟩
      exact ⟨k, hk, hp⟩
    · rintro ⟨k, hk, hp⟩
      have ha := remote_of_expectedFor expected hk
      exact ⟨k, ⟨ha ▸ hk, hp⟩, ha⟩

end Collecting

section Reporting

variable {x : KeyIndex} {expected : List IssuedKey}

theorem isStale_iff (x : KeyIndex) (k : IssuedKey) :
    isStale x k = true ↔ x.keyIdFor k.remote ≠ k.keyId ∨ x.credentialFor k.remote ≠ k.encoded := by
  simp [isStale]

theorem contains_forgetAll_of_expected {a : Text} {k : IssuedKey}
    (ha : expectedFor expected a = some k) :
    (forgetAll x (unwanted x (wanted expected))).contains a = x.contains a := by
  simp only [KeyIndex.contains, Table.contains, (get?_forgetAll_of_expected x ha).1]

theorem isStale_forgetAll_of_expected {k : IssuedKey}
    (hk : expectedFor expected k.remote = some k) :
    isStale (forgetAll x (unwanted x (wanted expected))) k = isStale x k := by
  obtain ⟨haliases, hkeys⟩ := get?_forgetAll_of_expected x hk
  rw [isStale, KeyIndex.keyIdFor, KeyIndex.credentialFor, haliases, hkeys]
  rfl

theorem lists_unwanted (x : KeyIndex) (expected : List IssuedKey) :
    Text.Lists (fun a => x.contains a = true ∧ expectedFor expected a = none)
      (unwanted x (wanted expected)) := by
  have hnodup := x.aliases.nodup.filter fun a => !(wanted expected).contains a
  refine (Text.lists_sort hnodup).congr fun a => ?_
  rw [← mem_unwanted]
  exact ((Text.lists_sort hnodup).mem a).symm

variable {r : Report} (h : apply x expected = .ok r)

include h

/-- What a pass reports are parts of the expected keys, picked by the index before the pass. -/
theorem collected_of_apply :
    let ks := (wanted expected).sorted.map Prod.snd
    r.removed = unwanted x (wanted expected) ∧
      r.added = (ks.filter fun k => !x.contains k.remote).map IssuedKey.remote ∧
      r.rotated =
        (ks.filter fun k => x.contains k.remote && isStale x k).map IssuedKey.remote := by
  intro ks
  let base := forgetAll x (unwanted x (wanted expected))
  obtain ⟨hadded, hrotated, hremoved⟩ := foldl_settle (nodup_sorted_wanted expected)
    ⟨base, [], [], unwanted x (wanted expected)⟩
  have hr : r = ks.foldl Report.settle ⟨base, [], [], unwanted x (wanted expected)⟩ :=
    recordAll_eq h
  have hnew : ks.filter (fun k => !base.contains k.remote) =
      ks.filter fun k => !x.contains k.remote := by
    refine List.filter_congr fun k hk => ?_
    have hwanted := (mem_sorted_wanted expected k).1 hk
    exact congrArg Bool.not (contains_forgetAll_of_expected hwanted)
  have hstale : ks.filter (fun k => base.contains k.remote && isStale base k) =
      ks.filter fun k => x.contains k.remote && isStale x k := by
    refine List.filter_congr fun k hk => ?_
    have hwanted := (mem_sorted_wanted expected k).1 hk
    exact congrArg₂ Bool.and (contains_forgetAll_of_expected hwanted)
      (isStale_forgetAll_of_expected hwanted)
  rw [← hr] at hadded hrotated hremoved
  refine ⟨hremoved, hadded.trans ?_, hrotated.trans ?_⟩
  · exact congrArg (List.map IssuedKey.remote) hnew
  · exact congrArg (List.map IssuedKey.remote) hstale

theorem lists_removed :
    Text.Lists (fun a => x.contains a = true ∧ expectedFor expected a = none) r.removed := by
  rw [(collected_of_apply h).1]
  exact lists_unwanted x expected

theorem lists_added :
    Text.Lists (fun a => x.contains a = false ∧ (expectedFor expected a).isSome = true)
      r.added := by
  rw [(collected_of_apply h).2.1]
  refine (lists_filter_wanted expected _).congr fun a => ?_
  rw [Option.isSome_iff_exists]
  constructor
  · rintro ⟨k, hk, hnew⟩
    rw [remote_of_expectedFor expected hk, Bool.not_eq_true'] at hnew
    exact ⟨hnew, k, hk⟩
  · rintro ⟨hnew, k, hk⟩
    refine ⟨k, hk, ?_⟩
    rw [remote_of_expectedFor expected hk, hnew]
    rfl

theorem lists_rotated :
    Text.Lists (fun a => x.contains a = true ∧ ∃ k, expectedFor expected a = some k ∧
      (x.keyIdFor a ≠ k.keyId ∨ x.credentialFor a ≠ k.encoded)) r.rotated := by
  rw [(collected_of_apply h).2.2]
  refine (lists_filter_wanted expected _).congr fun a => ?_
  constructor
  · rintro ⟨k, hk, hcond⟩
    obtain rfl := remote_of_expectedFor expected hk
    rw [Bool.and_eq_true, isStale_iff] at hcond
    exact ⟨hcond.1, k, hk, hcond.2⟩
  · rintro ⟨hknown, k, hk, hstale⟩
    obtain rfl := remote_of_expectedFor expected hk
    refine ⟨k, hk, ?_⟩
    rw [Bool.and_eq_true, isStale_iff]
    exact ⟨hknown, hstale⟩

/-- The index after a pass agrees with the expected keys. -/
theorem agrees_of_apply : Agrees r.index expected where
  aliases a := by
    cases ha : expectedFor expected a with
    | none => exact (get?_of_not_expected h ha).1
    | some k => exact (get?_of_expected h ha).1
  credentials a k ha := by
    rw [KeyIndex.credentialFor, (get?_of_expected h ha).2]
    split
    · next hskip =>
      simp only [isSkipped, Bool.and_eq_true, List.isEmpty_iff] at hskip
      exact hskip.1.1.symm
    · rfl

/-- The report is the difference between the index and the expected keys. -/
theorem isDifference_of_apply : r.IsDifference x expected where
  removed := lists_removed h
  added := lists_added h
  rotated := lists_rotated h
  removed_added := by
    refine (lists_removed h).disjoint (lists_added h) fun a ha ha' => ?_
    rw [ha.1] at ha'
    cases ha'.1
  removed_rotated := by
    refine (lists_removed h).disjoint (lists_rotated h) fun a ha ha' => ?_
    obtain ⟨-, k, hk, -⟩ := ha'
    rw [ha.2] at hk
    cases hk
  added_rotated := by
    refine (lists_added h).disjoint (lists_rotated h) fun a ha ha' => ?_
    rw [ha.1] at ha'
    cases ha'.1
  agrees := agrees_of_apply h

variable [Json.Nesting] {m : SecretStore} {cluster : Cluster} (hx : m.indexOf cluster = .ok x)
  (hexpected : ∀ k ∈ expected, k.IsWellFormed)

include hx hexpected

/-- Every text after a pass was loaded or is expected, so it reads back from its stored form. -/
theorem isLegible_of_apply : r.index.IsLegible := by
  refine ⟨isNamed_of_apply h (SecretStore.isNamed_of_indexOf hx), fun a keyId ha => ?_,
    fun a c bytes hc hb => ?_⟩
  · rw [(agrees_of_apply h).aliases] at ha
    obtain ⟨k, hk, rfl⟩ := Option.map_eq_some_iff.1 ha
    have hwell := hexpected k (mem_of_expectedFor expected hk)
    rw [← remote_of_expectedFor expected hk]
    exact ⟨Text.isUnpaired_of_isWellFormed hwell.remote,
      Text.isUnpaired_of_isWellFormed hwell.keyId⟩
  · cases ha : expectedFor expected a with
    | none =>
      rw [(get?_of_not_expected h ha).2] at hc
      split at hc
      · cases hc
      · exact KeyIndex.decode_of_indexOf hx hc hb
    | some k =>
      rw [(get?_of_expected h ha).2] at hc
      split at hc
      · cases hc
      · cases hc
        exact Utf8.decode_of_encode (hexpected k (mem_of_expectedFor expected ha)).encoded hb

/-- After a pass for some keys its own index is loaded; after a pass for none there is no Secret. -/
theorem stored_of_apply {m' : SecretStore} (hsaved : r.index.Saved cluster m m') :
    (expected ≠ [] → ∃ y, m'.indexOf cluster = .ok y ∧ y.Alike r.index) ∧
      (expected = [] → m'.secrets.get? cluster.secretKey = none) := by
  refine ⟨fun hne => ?_, fun hnil => ?_⟩
  · exact KeyIndex.indexOf_of_stands (isLegible_of_apply h hx hexpected) hsaved.stands
      (not_isEmpty_of_apply h hne)
  · have hempty : r.index.isEmpty = true := by
      refine (Table.isEmpty_iff _).2 fun a => ?_
      rw [(agrees_of_apply h).aliases, hnil]
      rfl
    have hstands := hsaved.stands
    rw [KeyIndex.Stands, if_pos hempty] at hstands
    exact hstands

end Reporting

/-- A pass that succeeds over any stored Secret that can be loaded reports how the expected keys
differ from what was loaded; its index is what is loaded right after it, or there is no Secret any
more if no key is expected. -/
theorem reports_difference [Json.Nesting] (uids : Nat → Text) (calls : List StoreCall)
    (cluster : Cluster)
    (expected : List IssuedKey) (hexpected : ∀ k ∈ expected, k.IsWellFormed) (attempts : Int)
    (id : Option Text) (w w' w'' : Surroundings) {x : KeyIndex} {r : Report}
    (hload : (SecretStore.run (KeyIndex.load cluster).run w
      ((SecretStore.empty uids).after calls)).1 = .ok x)
    (hrun : (SecretStore.run (run cluster expected attempts id).run w'
      ((SecretStore.empty uids).after calls)).1 = .ok r) :
    let m := (SecretStore.run (run cluster expected attempts id).run w'
      ((SecretStore.empty uids).after calls)).2.2
    r.IsDifference x expected ∧
      (expected ≠ [] → ∃ y, (SecretStore.run (KeyIndex.load cluster).run w'' m).1 = .ok y ∧
        y.Alike r.index) ∧
      (expected = [] → m.secrets.get? cluster.secretKey = none) := by
  intro m
  have hkept := SecretStore.isKept_after uids calls
  have hx := (KeyIndex.run_load cluster w _).symm.trans hload
  have hdone := SecretStore.run_of_ensures (ensures_run cluster expected attempts id hkept hx) w'
  rw [hrun] at hdone
  rcases hdone with ⟨r', hr', happly, hsaved⟩ | ⟨⟨e, ⟨⟩⟩, -⟩
  cases hr'
  obtain ⟨hsome, hnone⟩ := stored_of_apply happly hx hexpected hsaved
  rw [KeyIndex.run_load]
  exact ⟨isDifference_of_apply happly, hsome, hnone⟩

/-- One alias is new and listed twice, one is rotated, and one credential has no key ID. -/
theorem reports_difference_orphaned :
    let expected : List IssuedKey :=
      [⟨"eu", "k0", "eA=="⟩, ⟨"prod", "k3", "eQ=="⟩, ⟨"eu", "k2", [.ofNat 0xE9, .ofNat 0x1F511]⟩]
    let cluster : Cluster := ⟨"es", "ns", "uid", [], "v1", "Elasticsearch"⟩
    let prior := (SecretStore.empty fun _ => "uid-1").after [.create orphanedSecret]
    let pass := SecretStore.run (run cluster expected 3 none).run .bare prior
    ∃ x r, (∀ k ∈ expected, k.IsWellFormed) ∧
      (SecretStore.run (KeyIndex.load cluster).run .bare prior).1 = .ok x ∧ pass.1 = .ok r ∧
      r.IsDifference x expected ∧
      (expected ≠ [] → ∃ y, (SecretStore.run (KeyIndex.load cluster).run .bare pass.2.2).1 = .ok y ∧
        y.Alike r.index) ∧
      (expected = [] → pass.2.2.secrets.get? cluster.secretKey = none) := by
  intro expected cluster prior pass
  have hwell : ∀ k ∈ expected, k.IsWellFormed := by
    intro k hk
    simp only [expected, List.mem_cons, List.not_mem_nil, or_false] at hk
    rcases hk with rfl | rfl | rfl
    · exact ⟨by decide, by decide, by decide⟩
    · exact ⟨by decide, by decide, by decide⟩
    · exact ⟨by decide, by decide, by decide⟩
  obtain ⟨x, hx, -⟩ := indexOf_orphanedSecret
  have hload := (KeyIndex.run_load cluster .bare prior).trans hx
  have hkept := SecretStore.isKept_after (fun _ => "uid-1") [.create orphanedSecret]
  obtain ⟨r, hr, -⟩ := SecretStore.run_of_ensures
    (ensures_run_ok cluster 3 none hkept hx (by decide : ∀ k ∈ expected, _)
      fun k hk => ⟨_, Utf8.encode_of_isWellFormed (hwell k hk).encoded⟩) .bare
  exact ⟨x, r, hwell, hload, hr,
    reports_difference _ [.create orphanedSecret] cluster expected hwell 3 none .bare .bare .bare
      hload hr⟩

end Pass
end CrossClusterKeys
