import CrossClusterKeys.Pass
import CrossClusterKeys.Proofs.Edits

/-!
# What a pass leaves

A pass removes and changes aliases by their key IDs, and saves the credentials with them.  The two
maps of a loaded index need not have the same aliases, so the Secret can end up with more or fewer
credentials than are expected.

**Cases.**
* An expected alias gets its key, unless the key is empty, the key ID is recorded already and there
  is no credential: then it stays without one.
* An alias that is not expected loses its credential if it has a key ID.
* A credential without a key ID stays where it is unless its alias is expected.

**Results.**
* `recordAll_settle`: what recording one key does.
* `get?_of_expected`, `get?_of_not_expected`: both maps after a pass.
* `ensures_run_of_apply`: a pass saves what it makes of the index that it loads.
* `ensures_run`: a pass that succeeds has saved what it reports.
* `holdsExactly_iff`: the Secret has exactly the expected credentials if and only if neither
  exception occurs in the loaded index.
-/

namespace CrossClusterKeys
namespace Pass

open SecretStore (answer)

/-- The last listed key of an alias. -/
def expectedFor (expected : List IssuedKey) (a : Text) : Option IssuedKey :=
  expected.reverse.find? fun k => k.remote = a

/-- The key is empty and counts as recorded, although there is no credential. -/
def isSkipped (x : KeyIndex) (k : IssuedKey) : Bool :=
  k.encoded.isEmpty && x.aliases.get? k.remote = some k.keyId && (x.keys.get? k.remote).isNone

/-- The index once a key was found to be recorded or was recorded. -/
def settled (x : KeyIndex) (k : IssuedKey) : KeyIndex :=
  if x.contains k.remote && !isStale x k then x else x.put k.remote k.keyId k.encoded

/-- The report once a key was found to be recorded or was recorded. -/
def Report.settle (r : Report) (k : IssuedKey) : Report where
  index := settled r.index k
  added := r.added ++ if r.index.contains k.remote then [] else [k.remote]
  rotated := r.rotated ++ if r.index.contains k.remote && isStale r.index k then [k.remote] else []
  removed := r.removed

/-- The Secret has one entry for each expected alias, with its last listed key, and no other. -/
def HoldsExactly (expected : List IssuedKey) (s : Secret) : Prop :=
  ∀ setting bytes, s.data.get? setting = some bytes ↔
    ∃ a k, expectedFor expected a = some k ∧ setting = Naming.settingName a ∧
      Utf8.encode k.encoded = .ok bytes

/-- No credential without a key ID is unexpected, and no expected key is skipped. -/
structure IsRegular (x : KeyIndex) (expected : List IssuedKey) : Prop where
  orphans : ∀ a c, x.keys.get? a = some c → x.contains a = false →
    (expectedFor expected a).isSome = true
  skips : ∀ a k, expectedFor expected a = some k → isSkipped x k = false

section Expected

variable (expected : List IssuedKey)

theorem find_map_remote (ks : List IssuedKey) (a : Text) :
    Table.find a (ks.map fun k => (k.remote, k)) = ks.find? fun k => k.remote = a := by
  induction ks with
  | nil => rfl
  | cons k ks ih =>
    rw [List.map_cons, Table.find, List.find?_cons, ih]
    by_cases h : k.remote = a
    · simp only [h, if_true, decide_true]
    · simp only [h, if_false, decide_false]

theorem get?_wanted (a : Text) : (wanted expected).get? a = expectedFor expected a := by
  unfold wanted Table.ofList
  rw [Table.get?_insertMany, ← List.map_reverse, find_map_remote, Table.get?_empty, Option.or_none]
  rfl

theorem remote_of_expectedFor {a : Text} {k : IssuedKey} (h : expectedFor expected a = some k) :
    k.remote = a := by
  have hp : decide (k.remote = a) = true :=
    List.find?_some (p := fun k : IssuedKey => decide (k.remote = a)) h
  exact of_decide_eq_true hp

theorem mem_of_expectedFor {a : Text} {k : IssuedKey} (h : expectedFor expected a = some k) :
    k ∈ expected := List.mem_reverse.1 (List.mem_of_find?_eq_some h)

/-- The keys that a pass records, in order: the last listed key of every alias. -/
theorem mem_sorted_wanted (k : IssuedKey) :
    k ∈ (wanted expected).sorted.map Prod.snd ↔ expectedFor expected k.remote = some k := by
  rw [List.mem_map]
  constructor
  · rintro ⟨⟨a, k'⟩, hmem, rfl⟩
    rw [KeyMap.mem_sorted_iff, get?_wanted] at hmem
    rw [remote_of_expectedFor expected hmem]
    exact hmem
  · intro h
    refine ⟨(k.remote, k), ?_, rfl⟩
    rw [KeyMap.mem_sorted_iff, get?_wanted]
    exact h

theorem map_remote_sorted_wanted :
    ((wanted expected).sorted.map Prod.snd).map IssuedKey.remote =
      (wanted expected).sorted.map Prod.fst := by
  rw [List.map_map]
  refine List.map_congr_left fun e he => ?_
  obtain ⟨a, k⟩ := e
  rw [KeyMap.mem_sorted_iff, get?_wanted] at he
  exact remote_of_expectedFor expected he

theorem nodup_sorted_wanted :
    (((wanted expected).sorted.map Prod.snd).map IssuedKey.remote).Nodup := by
  rw [map_remote_sorted_wanted]
  exact KeyMap.nodup_sorted _

end Expected

section Settling

variable (x : KeyIndex) (k : IssuedKey)

/-- A key that counts as recorded has its key ID there, and its credential unless it is empty. -/
theorem not_isStale_iff :
    (x.contains k.remote && !isStale x k) = true ↔
      x.aliases.get? k.remote = some k.keyId ∧
        (x.keys.get? k.remote = some k.encoded ∨
          x.keys.get? k.remote = none ∧ k.encoded = []) := by
  have hstale : isStale x k = false ↔
      x.keyIdFor k.remote = k.keyId ∧ x.credentialFor k.remote = k.encoded := by
    simp [isStale]
  rw [Bool.and_eq_true, Bool.not_eq_true', hstale]
  unfold KeyIndex.contains Table.contains KeyIndex.keyIdFor KeyIndex.credentialFor
  constructor
  · rintro ⟨hsome, hid, hcredential⟩
    obtain ⟨keyId, hkeyId⟩ := Option.isSome_iff_exists.1 hsome
    rw [hkeyId, Option.getD_some] at hid
    refine ⟨by rw [hkeyId, hid], ?_⟩
    cases hc : x.keys.get? k.remote with
    | none =>
      rw [hc, Option.getD_none] at hcredential
      exact Or.inr ⟨rfl, hcredential.symm⟩
    | some c =>
      rw [hc, Option.getD_some] at hcredential
      exact Or.inl (congrArg some hcredential)
  · rintro ⟨hid, hc | ⟨hc, hempty⟩⟩
    · rw [hid, hc]
      exact ⟨rfl, rfl, rfl⟩
    · rw [hid, hc, hempty]
      exact ⟨rfl, rfl, rfl⟩

theorem get?_aliases_settled (a : Text) :
    (settled x k).aliases.get? a = if k.remote = a then some k.keyId else x.aliases.get? a := by
  unfold settled
  split
  · next h =>
    obtain ⟨hid, -⟩ := (not_isStale_iff x k).1 h
    split
    · next ha => rw [← ha, hid]
    · rfl
  · exact KeyIndex.get?_aliases_put _ _ _ _ _

theorem get?_keys_settled (a : Text) :
    (settled x k).keys.get? a =
      if k.remote = a then if isSkipped x k then none else some k.encoded
      else x.keys.get? a := by
  unfold settled
  split
  · next h =>
    obtain ⟨hid, hc | ⟨hc, hempty⟩⟩ := (not_isStale_iff x k).1 h
    · have hskip : isSkipped x k = false := by
        simp [isSkipped, hc]
      split
      · next ha => rw [← ha, hc, hskip, if_neg Bool.false_ne_true]
      · rfl
    · have hskip : isSkipped x k = true := by
        simp [isSkipped, hc, hid, hempty]
      rw [hskip, if_pos rfl]
      split
      · next ha => rw [← ha, hc]
      · rfl
  · next h =>
    have hskip : isSkipped x k = false := by
      refine Bool.eq_false_iff.2 fun hskip => h ((not_isStale_iff x k).2 ?_)
      simp only [isSkipped, Bool.and_eq_true, List.isEmpty_iff, decide_eq_true_eq,
        Option.isNone_iff_eq_none] at hskip
      exact ⟨hskip.1.2, Or.inr ⟨hskip.2, hskip.1.1⟩⟩
    rw [KeyIndex.get?_keys_put, hskip, if_neg Bool.false_ne_true]

end Settling

section Applying

/-- Each key is settled before those after it, and recorded only under an alias. -/
theorem recordAll_settle {k : IssuedKey} {ks : List IssuedKey} {r r' : Report}
    (h : recordAll r (k :: ks) = .ok r') :
    recordAll (r.settle k) ks = .ok r' ∧
      (settled r.index k = r.index ∨ Naming.isAlias k.remote = true) := by
  have hput : ∀ {x}, r.index.record k.remote k.keyId k.encoded = .ok x →
      (r.index.contains k.remote && !isStale r.index k) = false →
      x = settled r.index k ∧ Naming.isAlias k.remote = true := by
    intro x hx hcond
    obtain ⟨ha, rfl⟩ := KeyIndex.record_aliases hx
    simp [settled, hcond, ha]
  rw [recordAll] at h
  cases hknown : r.index.contains k.remote with
  | false =>
    cases hx : r.index.record k.remote k.keyId k.encoded with
    | error e =>
      rw [hknown, hx] at h
      cases h
    | ok x =>
      rw [hknown, hx] at h
      obtain ⟨rfl, ha⟩ := hput hx (by rw [hknown, Bool.false_and])
      have hnext : r.settle k =
          { r with index := settled r.index k, added := r.added ++ [k.remote] } := by
        simp [Report.settle, hknown]
      exact ⟨hnext ▸ h, Or.inr ha⟩
  | true =>
    cases hstale : isStale r.index k with
    | true =>
      cases hx : r.index.record k.remote k.keyId k.encoded with
      | error e =>
        rw [hknown, hstale, hx] at h
        cases h
      | ok x =>
        rw [hknown, hstale, hx] at h
        obtain ⟨rfl, ha⟩ := hput hx (by rw [hstale, Bool.not_true, Bool.and_false])
        have hnext : r.settle k =
            { r with index := settled r.index k, rotated := r.rotated ++ [k.remote] } := by
          simp [Report.settle, hknown, hstale]
        exact ⟨hnext ▸ h, Or.inr ha⟩
    | false =>
      rw [hknown, hstale] at h
      have hsame : settled r.index k = r.index := by
        simp [settled, hknown, hstale]
      have hnext : r.settle k = r := by
        simp [Report.settle, hknown, hstale, hsame]
      exact ⟨hnext.symm ▸ h, Or.inl hsame⟩

theorem index_recordAll {ks : List IssuedKey} {r r' : Report} (h : recordAll r ks = .ok r') :
    r'.index = ks.foldl settled r.index := by
  induction ks generalizing r with
  | nil =>
    cases h
    rfl
  | cons k ks ih =>
    obtain ⟨hrest, -⟩ := recordAll_settle h
    exact ih hrest

theorem isNamed_recordAll {ks : List IssuedKey} {r r' : Report} (h : recordAll r ks = .ok r')
    (hr : r.index.IsNamed) : r'.index.IsNamed := by
  induction ks generalizing r with
  | nil =>
    cases h
    exact hr
  | cons k ks ih =>
    obtain ⟨hrest, hcases⟩ := recordAll_settle h
    refine ih hrest ?_
    change (settled r.index k).IsNamed
    rcases hcases with hsame | ha
    · exact hsame.symm ▸ hr
    · unfold settled
      split
      · exact hr
      · exact KeyIndex.isNamed_put hr ha k.keyId k.encoded

theorem get?_foldl_settled_of_not_mem {ks : List IssuedKey} {a : Text}
    (h : a ∉ ks.map IssuedKey.remote) (x : KeyIndex) :
    (ks.foldl settled x).aliases.get? a = x.aliases.get? a ∧
      (ks.foldl settled x).keys.get? a = x.keys.get? a := by
  induction ks generalizing x with
  | nil => exact ⟨rfl, rfl⟩
  | cons k ks ih =>
    rw [List.map_cons, List.mem_cons, not_or] at h
    obtain ⟨haliases, hkeys⟩ := ih h.2 (settled x k)
    have hne : ¬ k.remote = a := fun heq => h.1 heq.symm
    rw [List.foldl_cons, haliases, hkeys, get?_aliases_settled, get?_keys_settled, if_neg hne,
      if_neg hne]
    exact ⟨rfl, rfl⟩

/-- Every key is settled against the index before the pass, since no alias comes twice. -/
theorem get?_foldl_settled {ks : List IssuedKey} (hnodup : (ks.map IssuedKey.remote).Nodup)
    {k : IssuedKey} (hk : k ∈ ks) (x : KeyIndex) :
    (ks.foldl settled x).aliases.get? k.remote = some k.keyId ∧
      (ks.foldl settled x).keys.get? k.remote =
        if isSkipped x k then none else some k.encoded := by
  induction ks generalizing x with
  | nil => cases hk
  | cons k' ks ih =>
    rw [List.map_cons, List.nodup_cons] at hnodup
    rw [List.foldl_cons]
    rcases List.mem_cons.1 hk with rfl | hmem
    · obtain ⟨haliases, hkeys⟩ := get?_foldl_settled_of_not_mem hnodup.1 (settled x k)
      rw [haliases, hkeys, get?_aliases_settled, get?_keys_settled, if_pos rfl, if_pos rfl]
      exact ⟨rfl, rfl⟩
    · have hne : ¬ k'.remote = k.remote := by
        intro heq
        exact hnodup.1 (heq ▸ List.mem_map.2 ⟨k, hmem, rfl⟩)
      have hsame : isSkipped (settled x k') k = isSkipped x k := by
        unfold isSkipped
        rw [get?_aliases_settled, get?_keys_settled, if_neg hne, if_neg hne]
      rw [← hsame]
      exact ih hnodup.2 hmem (settled x k')

theorem get?_forgetAll (x : KeyIndex) (as : List Text) (a : Text) :
    (forgetAll x as).aliases.get? a = (if a ∈ as then none else x.aliases.get? a) ∧
      (forgetAll x as).keys.get? a = (if a ∈ as then none else x.keys.get? a) := by
  induction as generalizing x with
  | nil => exact ⟨rfl, rfl⟩
  | cons b as ih =>
    obtain ⟨haliases, hkeys⟩ := ih (x.forget b)
    unfold forgetAll at haliases hkeys ⊢
    rw [List.foldl_cons, haliases, hkeys, KeyIndex.get?_aliases_forget, KeyIndex.get?_keys_forget]
    by_cases hb : b = a
    · subst hb
      simp
    · have hb' : ¬ a = b := fun h => hb h.symm
      simp [hb, hb']

theorem mem_unwanted (x : KeyIndex) (expected : List IssuedKey) (a : Text) :
    a ∈ unwanted x (wanted expected) ↔
      x.contains a = true ∧ expectedFor expected a = none := by
  unfold unwanted Text.sort
  rw [(List.mergeSort_perm _ _).mem_iff, List.mem_filter, ← Table.contains_iff, Table.contains,
    Bool.not_eq_true', Table.contains, get?_wanted, Option.isSome_eq_false_iff,
    Option.isNone_iff_eq_none]
  exact Iff.rfl

/-- Forgetting the unwanted aliases leaves the expected ones as they are. -/
theorem get?_forgetAll_of_expected (x : KeyIndex) {expected : List IssuedKey} {a : Text}
    {k : IssuedKey} (ha : expectedFor expected a = some k) :
    (forgetAll x (unwanted x (wanted expected))).aliases.get? a = x.aliases.get? a ∧
      (forgetAll x (unwanted x (wanted expected))).keys.get? a = x.keys.get? a := by
  have hnot : a ∉ unwanted x (wanted expected) := by
    intro hm
    rw [((mem_unwanted x expected a).1 hm).2] at ha
    cases ha
  obtain ⟨haliases, hkeys⟩ := get?_forgetAll x (unwanted x (wanted expected)) a
  rw [haliases, hkeys, if_neg hnot, if_neg hnot]
  exact ⟨rfl, rfl⟩

theorem recordAll_ok {ks : List IssuedKey} (h : ∀ k ∈ ks, Naming.isAlias k.remote = true)
    (r : Report) : ∃ r', recordAll r ks = .ok r' := by
  induction ks generalizing r with
  | nil => exact ⟨r, rfl⟩
  | cons k ks ih =>
    have hrest := ih fun k' hk' => h k' (List.mem_cons_of_mem _ hk')
    rw [recordAll, KeyIndex.record_of_isAlias (h k List.mem_cons_self)]
    split
    · exact hrest _
    · split
      · exact hrest _
      · exact hrest _

/-- A pass over keys of aliases that can be recorded has an outcome. -/
theorem apply_ok (x : KeyIndex) {expected : List IssuedKey}
    (h : ∀ k ∈ expected, Naming.isAlias k.remote = true) : ∃ r, apply x expected = .ok r := by
  refine recordAll_ok (fun k hk => h k ?_) _
  exact mem_of_expectedFor expected ((mem_sorted_wanted expected k).1 hk)

variable {x : KeyIndex} {expected : List IssuedKey} {r : Report}

/-- An alias that is not expected keeps what it has only if it has no key ID. -/
theorem get?_of_not_expected (h : apply x expected = .ok r) {a : Text}
    (ha : expectedFor expected a = none) :
    r.index.aliases.get? a = none ∧
      r.index.keys.get? a = if x.contains a then none else x.keys.get? a := by
  have hnot : a ∉ ((wanted expected).sorted.map Prod.snd).map IssuedKey.remote := by
    intro hmem
    obtain ⟨k, hk, rfl⟩ := List.mem_map.1 hmem
    rw [(mem_sorted_wanted expected k).1 hk] at ha
    cases ha
  obtain ⟨haliases, hkeys⟩ :=
    get?_foldl_settled_of_not_mem hnot (forgetAll x (unwanted x (wanted expected)))
  obtain ⟨haliases', hkeys'⟩ := get?_forgetAll x (unwanted x (wanted expected)) a
  rw [index_recordAll h, haliases, hkeys, haliases', hkeys']
  by_cases hc : x.contains a = true
  · have hmem := (mem_unwanted x expected a).2 ⟨hc, ha⟩
    rw [if_pos hmem, if_pos hmem, if_pos hc]
    exact ⟨rfl, rfl⟩
  · have hmem : a ∉ unwanted x (wanted expected) := fun hm =>
      hc ((mem_unwanted x expected a).1 hm).1
    rw [if_neg hmem, if_neg hmem, if_neg hc]
    refine ⟨?_, rfl⟩
    unfold KeyIndex.contains Table.contains at hc
    rw [Option.not_isSome_iff_eq_none] at hc
    exact hc

/-- An expected alias has its key ID afterwards, and its key unless that is skipped. -/
theorem get?_of_expected (h : apply x expected = .ok r) {a : Text} {k : IssuedKey}
    (ha : expectedFor expected a = some k) :
    r.index.aliases.get? a = some k.keyId ∧
      r.index.keys.get? a = if isSkipped x k then none else some k.encoded := by
  obtain rfl := remote_of_expectedFor expected ha
  have hmem := (mem_sorted_wanted expected k).2 ha
  have hsettled := get?_foldl_settled (nodup_sorted_wanted expected) hmem
    (forgetAll x (unwanted x (wanted expected)))
  obtain ⟨haliases', hkeys'⟩ := get?_forgetAll_of_expected x ha
  have hsame : isSkipped (forgetAll x (unwanted x (wanted expected))) k = isSkipped x k := by
    unfold isSkipped
    rw [haliases', hkeys']
  rw [index_recordAll h, ← hsame]
  exact hsettled

theorem isNamed_of_apply (h : apply x expected = .ok r) (hx : x.IsNamed) : r.index.IsNamed := by
  refine isNamed_recordAll h fun a c hc => ?_
  change (forgetAll x _).keys.get? a = some c at hc
  rw [(get?_forgetAll x _ a).2] at hc
  split at hc
  · cases hc
  · exact hx a c hc

end Applying

section Saving

variable {x : KeyIndex} {expected : List IssuedKey} {r : Report}

/-- Expected keys leave aliases behind. -/
theorem not_isEmpty_of_apply (h : apply x expected = .ok r) (hne : expected ≠ []) :
    r.index.isEmpty = false := by
  obtain ⟨k, hk⟩ := List.exists_mem_of_ne_nil expected hne
  have hsome : (expectedFor expected k.remote).isSome = true := by
    unfold expectedFor
    rw [List.find?_isSome]
    exact ⟨k, List.mem_reverse.2 hk, decide_eq_true rfl⟩
  obtain ⟨k', hk'⟩ := Option.isSome_iff_exists.1 hsome
  exact (Table.isEmpty_eq_false_iff _).2 ⟨k.remote, k'.keyId, (get?_of_expected h hk').1⟩

/-- A Secret that holds the index after a pass has exactly the expected credentials if and only if
neither exception occurred in the index before. -/
theorem holdsExactly_iff (h : apply x expected = .ok r) (hx : x.IsNamed) {s : Secret}
    (hs : r.index.Holds s) :
    HoldsExactly expected s ↔ IsRegular x expected := by
  have hdata : ∀ setting bytes, s.data.get? setting = some bytes ↔
      ∃ a c, setting = Naming.settingName a ∧ Naming.isAlias a = true ∧
        r.index.keys.get? a = some c ∧ Utf8.encode c = .ok bytes := by
    intro setting bytes
    rw [hs.data, KeyIndex.bytesAt_eq_some]
  have hnamed := isNamed_of_apply h hx
  constructor
  · intro hexact
    refine ⟨fun a c hc hnot => ?_, fun a k hk => ?_⟩
    · cases hexp : expectedFor expected a with
      | some k => rfl
      | none =>
        have hleft : r.index.keys.get? a = some c := by
          rw [(get?_of_not_expected h hexp).2, hnot, if_neg Bool.false_ne_true, hc]
        obtain ⟨bytes, hbytes⟩ := hs.encodable a c hleft
        have hentry := (hdata (Naming.settingName a) bytes).2
          ⟨a, c, rfl, hnamed a c hleft, hleft, hbytes⟩
        obtain ⟨a', k, hk, hsetting, -⟩ := (hexact _ _).1 hentry
        rw [← Naming.settingName_injective hsetting, hexp] at hk
        cases hk
    · refine Bool.eq_false_iff.2 fun hskip => ?_
      have hempty : k.encoded = [] := by
        simp only [isSkipped, Bool.and_eq_true, List.isEmpty_iff] at hskip
        exact hskip.1.1
      have hentry := (hexact (Naming.settingName a) []).2 ⟨a, k, hk, rfl, by rw [hempty]; rfl⟩
      obtain ⟨a', c, hsetting, -, hc, -⟩ := (hdata _ _).1 hentry
      rw [← Naming.settingName_injective hsetting, (get?_of_expected h hk).2, if_pos hskip] at hc
      cases hc
  · intro hregular setting bytes
    rw [hdata]
    constructor
    · rintro ⟨a, c, hsetting, -, hc, hbytes⟩
      cases hexp : expectedFor expected a with
      | none =>
        rw [(get?_of_not_expected h hexp).2] at hc
        split at hc
        · cases hc
        · next hnot =>
          have hsome := hregular.orphans a c hc (Bool.eq_false_iff.2 hnot)
          rw [hexp] at hsome
          cases hsome
      | some k =>
        rw [(get?_of_expected h hexp).2, hregular.skips a k hexp, if_neg Bool.false_ne_true] at hc
        cases hc
        exact ⟨a, k, hexp, hsetting, hbytes⟩
    · rintro ⟨a, k, hk, hsetting, hbytes⟩
      have hc : r.index.keys.get? a = some k.encoded := by
        rw [(get?_of_expected h hk).2, hregular.skips a k hk, if_neg Bool.false_ne_true]
      exact ⟨a, k.encoded, hsetting, hnamed a _ hc, hc, hbytes⟩

section Running

variable {σ : Type} {h : (c : Store.Call) → σ → Store.Answer c × σ} {y : σ} {m : SecretStore}
  {cluster : Cluster} {attempts : Int} {id : Option Text} {Q : Except Raised Report → σ → Prop}
  (hget : (h (.get cluster.namespace (Naming.secretName cluster.name)) y).1 =
    m.get cluster.namespace (Naming.secretName cluster.name))

include hget

/-- A pass loads the index and saves its outcome. -/
theorem ensures_run_of_apply [Json.Nesting] (hx : m.indexOf cluster = .ok x)
    (happly : apply x expected = .ok r) (hsave : (r.index.save cluster attempts).run.Ensures h
      (h (.get cluster.namespace (Naming.secretName cluster.name)) y).2 fun o y' => match o with
        | .ok _ => Q (.ok r) y'
        | .error e => Q (.error e) y') :
    (run cluster expected attempts id).run.Ensures h y Q := by
  refine Action.ensures_underId id _ y ?_
  refine (Action.ensures_bind _ _ _ _).2 ((KeyIndex.ensures_load_of_get hget _).2 ?_)
  rw [hx]
  refine (Action.ensures_bind _ _ _ _).2 ((Action.ensures_ofExcept _ _ _).2 ?_)
  rw [happly]
  refine (Action.ensures_bind _ _ _ _).2 (Program.ensures_mono hsave ?_)
  rintro (e | u) y' hQ
  · exact hQ
  · exact (Action.ensures_bind _ _ _ _).2 ((Action.ensures_log _ _ _).2 hQ)

/-- A pass without an outcome fails after the load. -/
theorem ensures_run_of_no_outcome [Json.Nesting]
    (hnone : ∀ x r, m.indexOf cluster = .ok x → apply x expected ≠ .ok r)
    (hQ : ∀ e, Q (.error e) (h (.get cluster.namespace (Naming.secretName cluster.name)) y).2) :
    (run cluster expected attempts id).run.Ensures h y Q := by
  refine Action.ensures_underId id _ y ?_
  refine (Action.ensures_bind _ _ _ _).2 ((KeyIndex.ensures_load_of_get hget _).2 ?_)
  cases hx : m.indexOf cluster with
  | error e => exact hQ e
  | ok x =>
    refine (Action.ensures_bind _ _ _ _).2 ((Action.ensures_ofExcept _ _ _).2 ?_)
    cases happly : apply x expected with
    | error e => exact hQ _
    | ok r => exact absurd happly (hnone x r hx)

end Running

/-- A pass over an index that can be loaded ends with its outcome saved, or at an alias that cannot
be recorded or a credential without bytes. -/
theorem ensures_run [Json.Nesting] (cluster : Cluster) (expected : List IssuedKey) (attempts : Int)
    (id : Option Text) {m : SecretStore} (hm : m.IsKept) {x : KeyIndex}
    (hx : m.indexOf cluster = .ok x) :
    (run cluster expected attempts id).run.Ensures answer m fun o m' =>
      (∃ r, o = .ok r ∧ apply x expected = .ok r ∧ r.index.Saved cluster m m') ∨
      ((∃ e, o = .error e) ∧ ∀ r, apply x expected = .ok r → ¬ r.index.IsEncodable) := by
  cases happly : apply x expected with
  | error e =>
    refine ensures_run_of_no_outcome rfl (fun x' r hx' hr => ?_) fun e' => ?_
    · cases hx.symm.trans hx'
      cases happly.symm.trans hr
    · exact Or.inr ⟨⟨e', rfl⟩, fun r hr => nomatch hr⟩
  | ok r =>
    have hnamed := isNamed_of_apply happly (SecretStore.isNamed_of_indexOf hx)
    refine ensures_run_of_apply rfl hx happly
      (Program.ensures_mono (KeyIndex.ensures_save hnamed cluster attempts hm) ?_)
    rintro o m' (⟨rfl, hsaved⟩ | ⟨⟨e, rfl⟩, -, henc, -⟩)
    · exact Or.inl ⟨r, rfl, rfl, hsaved⟩
    · refine Or.inr ⟨⟨e, rfl⟩, fun r' hr' => ?_⟩
      cases hr'
      exact henc

/-- Every credential after a pass was there before or is expected. -/
theorem isEncodable_of_apply (h : apply x expected = .ok r) (hx : x.IsEncodable)
    (hexpected : ∀ k ∈ expected, ∃ bytes, Utf8.encode k.encoded = .ok bytes) :
    r.index.IsEncodable := by
  intro a c hc
  cases hexp : expectedFor expected a with
  | none =>
    rw [(get?_of_not_expected h hexp).2] at hc
    split at hc
    · cases hc
    · exact hx a c hc
  | some k =>
    rw [(get?_of_expected h hexp).2] at hc
    split at hc
    · cases hc
    · cases hc
      exact hexpected k (mem_of_expectedFor expected hexp)

/-- A pass over an index that can be loaded succeeds if its keys can be recorded and stored. -/
theorem ensures_run_ok [Json.Nesting] (cluster : Cluster) (attempts : Int) (id : Option Text)
    {m : SecretStore} (hm : m.IsKept) (hx : m.indexOf cluster = .ok x)
    (halias : ∀ k ∈ expected, Naming.isAlias k.remote = true)
    (henc : ∀ k ∈ expected, ∃ bytes, Utf8.encode k.encoded = .ok bytes) :
    (run cluster expected attempts id).run.Ensures answer m fun o m' =>
      ∃ r, o = .ok r ∧ apply x expected = .ok r ∧ r.index.Saved cluster m m' := by
  obtain ⟨r, happly⟩ := apply_ok x halias
  have hr := isEncodable_of_apply happly (SecretStore.isEncodable_of_indexOf hx) henc
  refine Program.ensures_mono (ensures_run cluster expected attempts id hm hx) ?_
  rintro o m' (⟨r', rfl, happly', hsaved⟩ | ⟨-, hnot⟩)
  · obtain rfl : r = r' := Except.ok.inj (happly.symm.trans happly')
    exact ⟨r, rfl, happly, hsaved⟩
  · exact absurd hr (hnot r happly)

/-- A credential without a key ID is still there after a pass that does not expect its alias. -/
theorem ensures_orphan [Json.Nesting] (cluster : Cluster) (attempts : Int) (id : Option Text)
    {m : SecretStore} (hm : m.IsKept) (hx : m.indexOf cluster = .ok x) (hexpected : expected ≠ [])
    (halias : ∀ k ∈ expected, Naming.isAlias k.remote = true)
    (henc : ∀ k ∈ expected, ∃ bytes, Utf8.encode k.encoded = .ok bytes) {a c : Text}
    (hc : x.keys.get? a = some c) (hnot : x.contains a = false)
    (ha : expectedFor expected a = none) {bytes : List UInt8} (hbytes : Utf8.encode c = .ok bytes) :
    (run cluster expected attempts id).run.Ensures answer m fun o m' =>
      (∃ r, o = .ok r) ∧ ∃ s, m'.secrets.get? cluster.secretKey = some s ∧
        s.data.get? (Naming.settingName a) = some bytes ∧ ¬ HoldsExactly expected s := by
  refine Program.ensures_mono (ensures_run_ok cluster attempts id hm hx halias henc) ?_
  rintro o m' ⟨r, rfl, happly, hsaved⟩
  have hnamed := SecretStore.isNamed_of_indexOf hx
  have hne := not_isEmpty_of_apply happly hexpected
  have hstands := hsaved.stands
  rw [KeyIndex.Stands, hne, if_neg Bool.false_ne_true] at hstands
  obtain ⟨s, hs, hholds⟩ := hstands
  have hleft : r.index.keys.get? a = some c := by
    rw [(get?_of_not_expected happly ha).2, hnot, if_neg Bool.false_ne_true, hc]
  refine ⟨⟨r, rfl⟩, s, hs, ?_, fun hexact => ?_⟩
  · rw [hholds.data, KeyIndex.bytesAt_eq_some]
    exact ⟨a, c, rfl, hnamed a c hc, hleft, hbytes⟩
  · have hregular := (holdsExactly_iff happly hnamed hholds).1 hexact
    have hsome := hregular.orphans a c hc hnot
    rw [ha] at hsome
    cases hsome

/-- After a pass over any stored Secret that can be loaded, the Secret exists, and it has exactly
one entry for each expected alias and no other entry if and only if the loaded index had no
credential without a key ID under an alias that is not expected, and no key ID without a credential
that was expected with an empty key. -/
theorem holdsExactly_after_run_iff [Json.Nesting] (uids : Nat → Text) (calls : List StoreCall)
    (cluster : Cluster)
    (expected : List IssuedKey) (hexpected : expected ≠ []) (attempts : Int) (id : Option Text)
    (w w' : Surroundings) {x : KeyIndex} {r : Report}
    (hload : (SecretStore.run (KeyIndex.load cluster).run w
      ((SecretStore.empty uids).after calls)).1 = .ok x)
    (hrun : (SecretStore.run (run cluster expected attempts id).run w'
      ((SecretStore.empty uids).after calls)).1 = .ok r) :
    ∃ s, (SecretStore.run (run cluster expected attempts id).run w'
        ((SecretStore.empty uids).after calls)).2.2.secrets.get? cluster.secretKey = some s ∧
      (HoldsExactly expected s ↔ IsRegular x expected) := by
  have hm := SecretStore.isKept_after uids calls
  generalize (SecretStore.empty uids).after calls = m at hm hload hrun ⊢
  have hx : m.indexOf cluster = .ok x := (KeyIndex.run_load cluster w m).symm.trans hload
  have hdone := SecretStore.run_of_ensures (ensures_run cluster expected attempts id hm hx) w'
  rcases hdone with ⟨r', -, happly, hsaved⟩ | ⟨⟨e, he⟩, -⟩
  · have hne := not_isEmpty_of_apply happly hexpected
    have hstands := hsaved.stands
    rw [KeyIndex.Stands, hne, if_neg Bool.false_ne_true] at hstands
    obtain ⟨s, hs, hholds⟩ := hstands
    exact ⟨s, hs, holdsExactly_iff happly (SecretStore.isNamed_of_indexOf hx) hholds⟩
  · rw [hrun] at he
    cases he

/-- A pass over the empty store leaves exactly what is expected. -/
theorem holdsExactly_after_run_on_empty :
    let expected : List IssuedKey := [⟨"prod", "k0", "b2xk"⟩, ⟨"prod", "k1", "a2V5"⟩]
    let cluster : Cluster := ⟨"es", "ns", "uid", [], "v1", "Elasticsearch"⟩
    let prior := (SecretStore.empty fun _ => "uid-1").after []
    let pass := SecretStore.run (run cluster expected 3 none).run .bare prior
    expected ≠ [] ∧ (SecretStore.run (KeyIndex.load cluster).run .bare prior).1 = .ok .empty ∧
      (∃ r, pass.1 = .ok r) ∧
      ∃ s, pass.2.2.secrets.get? cluster.secretKey = some s ∧
        (HoldsExactly expected s ↔ IsRegular .empty expected) := by
  intro expected cluster prior pass
  have hload := KeyIndex.run_load cluster .bare prior
  have halias : ∀ k ∈ expected, Naming.isAlias k.remote = true := by
    intro k hk
    simp only [expected, List.mem_cons, List.not_mem_nil, or_false] at hk
    rcases hk with rfl | rfl
    · decide
    · decide
  have henc : ∀ k ∈ expected, ∃ bytes, Utf8.encode k.encoded = .ok bytes := by
    intro k hk
    simp only [expected, List.mem_cons, List.not_mem_nil, or_false] at hk
    rcases hk with rfl | rfl
    · exact ⟨_, Utf8.encode_of_isWellFormed (by decide)⟩
    · exact ⟨_, Utf8.encode_of_isWellFormed (by decide)⟩
  have hkept := SecretStore.isKept_after (fun _ => "uid-1") []
  obtain ⟨r, hr, -⟩ := SecretStore.run_of_ensures
    (ensures_run_ok cluster 3 none hkept rfl halias henc) .bare
  exact ⟨List.cons_ne_nil _ _, hload, ⟨r, hr⟩,
    holdsExactly_after_run_iff _ [] cluster expected (List.cons_ne_nil _ _) 3 none .bare .bare hload
      hr⟩

section Orphans

/-- An index with a credential that has no key ID. -/
def orphaned : KeyIndex :=
  ⟨.ofList [("prod", "k1")], .ofList [("prod", "a2V5"), ("ghost", "b2xk")]⟩

/-- The Secret of a cluster `es` with this index. -/
def orphanedSecret : Secret where
  name := "es-es-remote-api-keys"
  «namespace» := "ns"
  labels := .empty
  annotations := Table.empty.insert Naming.aliasesKey (KeyIndex.aliasesText orphaned.aliases)
  data := .ofList [("cluster.remote.prod.credentials", [97, 50, 86, 53]),
    ("cluster.remote.ghost.credentials", [98, 50, 120, 107])]
  owners := []
  uid := []
  version := []

theorem keys_orphaned {a c : Text} (h : orphaned.keys.get? a = some c) :
    Naming.isAlias a = true ∧ c.isWellFormed = true := by
  have hmem := (Table.mem_entries_iff _ _ _).2 h
  change (a, c) ∈ [(("prod" : Text), ("a2V5" : Text)), ("ghost", "b2xk")] at hmem
  simp only [List.mem_cons, List.not_mem_nil, or_false, Prod.mk.injEq] at hmem
  rcases hmem with ⟨rfl, rfl⟩ | ⟨rfl, rfl⟩
  · exact ⟨by decide, by decide⟩
  · exact ⟨by decide, by decide⟩

theorem isLegible_orphaned : orphaned.IsLegible := by
  refine ⟨fun a c h => (keys_orphaned h).1, fun a k h => ?_, fun a c bytes h hb => ?_⟩
  · have hmem := (Table.mem_entries_iff _ _ _).2 h
    change (a, k) ∈ [(("prod" : Text), ("k1" : Text))] at hmem
    rw [List.mem_singleton] at hmem
    cases hmem
    exact ⟨by decide, by decide⟩
  · exact Utf8.decode_of_encode (keys_orphaned h).2 hb

theorem holds_orphanedSecret : orphaned.Holds orphanedSecret := by
  refine ⟨fun a c h => ?_, rfl, KeyIndex.get?_data isLegible_orphaned.named rfl⟩
  exact ⟨_, Utf8.encode_of_isWellFormed (keys_orphaned h).2⟩

theorem indexOf_orphanedSecret [Json.Nesting] :
    ∃ x, ((SecretStore.empty fun _ => "uid-1").after [.create orphanedSecret]).indexOf
      ⟨"es", "ns", "uid", [], "v1", "Elasticsearch"⟩ = .ok x ∧ x.Alike orphaned :=
  KeyIndex.ofSecret_of_holds isLegible_orphaned
    (s := (SecretStore.empty fun _ => "uid-1").newborn orphanedSecret)
    ⟨holds_orphanedSecret.encodable, holds_orphanedSecret.annotation, holds_orphanedSecret.data⟩

/-- A pass for `prod` alone leaves the credential of `ghost` where it was. -/
theorem orphan_survives_pass :
    let expected : List IssuedKey := [⟨"prod", "k1", "a2V5"⟩]
    let cluster : Cluster := ⟨"es", "ns", "uid", [], "v1", "Elasticsearch"⟩
    let prior := (SecretStore.empty fun _ => "uid-1").after [.create orphanedSecret]
    let pass := SecretStore.run (run cluster expected 3 none).run .bare prior
    (∃ x, (SecretStore.run (KeyIndex.load cluster).run .bare prior).1 = .ok x) ∧
      (∃ r, pass.1 = .ok r) ∧
      ∃ s, pass.2.2.secrets.get? cluster.secretKey = some s ∧
        s.data.get? "cluster.remote.ghost.credentials" = some [98, 50, 120, 107] ∧
        ¬ HoldsExactly expected s := by
  intro expected cluster prior pass
  have hkept := SecretStore.isKept_after (fun _ => "uid-1") [.create orphanedSecret]
  obtain ⟨x, hx, halike⟩ := indexOf_orphanedSecret
  have hload := (KeyIndex.run_load cluster .bare prior).trans hx
  have halias : ∀ k ∈ expected, Naming.isAlias k.remote = true := by
    intro k hk
    rw [List.mem_singleton.1 hk]
    decide
  have henc : ∀ k ∈ expected, ∃ bytes, Utf8.encode k.encoded = .ok bytes := by
    intro k hk
    rw [List.mem_singleton.1 hk]
    exact ⟨_, Utf8.encode_of_isWellFormed (by decide)⟩
  have hghost : x.keys.get? "ghost" = some "b2xk" := (halike.2 _).trans rfl
  have hnot : x.contains "ghost" = false := by
    rw [KeyIndex.contains, Table.contains, halike.1]
    rfl
  obtain ⟨hr, hs⟩ := SecretStore.run_of_ensures
    (ensures_orphan cluster 3 none hkept hx (List.cons_ne_nil _ _) halias henc hghost hnot
      (by decide) (Utf8.encode_of_isWellFormed (by decide))) .bare
  exact ⟨⟨x, hload⟩, hr, hs⟩

end Orphans

end Saving

end Pass
end CrossClusterKeys
