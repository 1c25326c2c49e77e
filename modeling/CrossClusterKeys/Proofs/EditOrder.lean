import CrossClusterKeys.Proofs.Edits
import CrossClusterKeys.Proofs.OwnerReferences
import CrossClusterKeys.Proofs.SharedStore

/-!
# What is saved does not depend on the order of edits

**Input.**  Two sequences of edits of the empty index.  One is a rearrangement of the other in
which the edits of each alias keep their order.

**Invariant.**  What an index has for an alias depends on the edits of that alias alone.

**Results.**
* `alike_of_rearranged`: both sequences result in the same index, up to the order of entries.
* `forall₂_moments_of_alike`: that order does not show in what is asked of a store.
* `aliasesText_injective`: the annotation determines the key IDs.
* `save_isCanonical`: what saving sends is the same after both sequences, and tells the key IDs.
-/

namespace CrossClusterKeys

namespace Edit

/-- The edits are the same ones, and those of each alias come in the same order. -/
structure Rearranged (es es' : List Edit) : Prop where
  perm : es.Perm es'
  order : ∀ a, es.filter (·.remote = a) = es'.filter (·.remote = a)

end Edit

/-- The indexes have the same for an alias. -/
def KeyIndex.AgreeAt (a : Text) (x y : KeyIndex) : Prop :=
  x.aliases.get? a = y.aliases.get? a ∧ x.keys.get? a = y.keys.get? a

namespace StoreCall

/-- The Secret that a call sends. -/
def sent? : StoreCall → Option Secret
  | .create s => some s
  | .update s => some s
  | _ => none

/-- The calls are the same, whatever the order of the entries and owners of a Secret sent. -/
inductive Alike : StoreCall → StoreCall → Prop
  | get («namespace» name : Text) : Alike (.get «namespace» name) (.get «namespace» name)
  | create {s s' : Secret} (h : s.Alike s') : Alike (.create s) (.create s')
  | update {s s' : Secret} (h : s.Alike s') : Alike (.update s) (.update s')
  | delete («namespace» name : Text) (uid : Option Text) :
      Alike (.delete «namespace» name uid) (.delete «namespace» name uid)
  | close : Alike .close .close

end StoreCall

/-- What an undisturbed attempt asks of a store. -/
def Convergence.calls (desired : Secret) (m : SecretStore) : List StoreCall :=
  .get desired.namespace desired.name ::
    match m.secrets.get? (SecretStore.keyOf desired) with
    | none => [.create desired]
    | some stored => if desired.outdated stored then [.update (desired.overlay stored)] else []

namespace KeyIndex

section Editing

variable {x y : KeyIndex} {a : Text}

theorem edit_update_of_isAlias {remote : Text} (h : Naming.isAlias remote = true)
    (keyId credential : Text) :
    x.edit (.update remote keyId credential) = x.put remote keyId credential := by
  rw [edit, Edit.apply, record_of_isAlias h]
  rfl

theorem edit_update_of_not_isAlias {remote : Text} (h : Naming.isAlias remote ≠ true)
    (keyId credential : Text) : x.edit (.update remote keyId credential) = x := by
  rw [edit, Edit.apply, record, aliasOf, if_neg h]
  rfl

/-- Indexes that have the same for an alias do so after an edit. -/
theorem AgreeAt.edit (h : AgreeAt a x y) (e : Edit) : AgreeAt a (x.edit e) (y.edit e) := by
  cases e with
  | update remote keyId credential =>
    by_cases ha : Naming.isAlias remote = true
    · rw [edit_update_of_isAlias ha, edit_update_of_isAlias ha]
      unfold AgreeAt
      rw [get?_aliases_put, get?_aliases_put, get?_keys_put, get?_keys_put, h.1, h.2]
      exact ⟨rfl, rfl⟩
    · rw [edit_update_of_not_isAlias ha, edit_update_of_not_isAlias ha]
      exact h
  | delete remote =>
    change AgreeAt a (x.forget remote) (y.forget remote)
    unfold AgreeAt
    rw [get?_aliases_forget, get?_aliases_forget, get?_keys_forget, get?_keys_forget, h.1, h.2]
    exact ⟨rfl, rfl⟩

/-- An edit of another alias makes no difference. -/
theorem agreeAt_edit_of_ne {e : Edit} (h : e.remote ≠ a) : AgreeAt a (x.edit e) x := by
  cases e with
  | update remote keyId credential =>
    have hne : ¬ remote = a := h
    by_cases ha : Naming.isAlias remote = true
    · rw [edit_update_of_isAlias ha]
      unfold AgreeAt
      rw [get?_aliases_put, get?_keys_put, if_neg hne, if_neg hne]
      exact ⟨rfl, rfl⟩
    · rw [edit_update_of_not_isAlias ha]
      exact ⟨rfl, rfl⟩
  | delete remote =>
    have hne : ¬ remote = a := h
    change AgreeAt a (x.forget remote) x
    unfold AgreeAt
    rw [get?_aliases_forget, get?_keys_forget, if_neg hne, if_neg hne]
    exact ⟨rfl, rfl⟩

/-- Only the edits of an alias decide on what there is for it. -/
theorem agreeAt_edited_filter (h : AgreeAt a x y) (es : List Edit) :
    AgreeAt a (x.edited es) (y.edited (es.filter (·.remote = a))) := by
  induction es generalizing x y with
  | nil => exact h
  | cons e es ih =>
    by_cases he : e.remote = a
    · rw [List.filter_cons_of_pos (by simpa using he)]
      exact ih (h.edit e)
    · rw [List.filter_cons_of_neg (by simpa using he)]
      have hsame : AgreeAt a (x.edit e) x := agreeAt_edit_of_ne he
      exact ih ⟨hsame.1.trans h.1, hsame.2.trans h.2⟩

/-- Rearranged edits result in the same index, up to the order of entries. -/
theorem alike_of_rearranged {es es' : List Edit} (h : Edit.Rearranged es es') (x : KeyIndex) :
    (x.edited es).Alike (x.edited es') := by
  have hagree : ∀ a, AgreeAt a (x.edited es) (x.edited es') := by
    intro a
    have hes := agreeAt_edited_filter (x := x) (y := x) (a := a) ⟨rfl, rfl⟩ es
    have hes' := agreeAt_edited_filter (x := x) (y := x) (a := a) ⟨rfl, rfl⟩ es'
    rw [h.order a] at hes
    exact ⟨hes.1.trans hes'.1.symm, hes.2.trans hes'.2.symm⟩
  exact ⟨fun a => (hagree a).1, fun a => (hagree a).2⟩

end Editing

end KeyIndex

theorem StoreCall.Alike.refl (c : StoreCall) : c.Alike c := by
  have hsame : ∀ s : Secret, s.Alike s := fun s =>
    ⟨rfl, rfl, fun _ => rfl, fun _ => rfl, fun _ => rfl, .refl _, rfl, rfl⟩
  cases c with
  | get n name => exact .get n name
  | create s => exact .create (hsame s)
  | update s => exact .update (hsame s)
  | delete n name uid => exact .delete n name uid
  | close => exact .close

theorem Secret.Reordered.alike {s s' : Secret} (h : s.Reordered s') : s.Alike s' := by
  obtain ⟨hdata⟩ := h
  exact ⟨rfl, rfl, fun _ => rfl, fun _ => rfl, hdata, .refl _, rfl, rfl⟩

namespace Convergence

/-- The order of the data entries does not show in what is asked of a store. -/
theorem forall₂_calls_of_reordered {s s' : Secret} (h : s.Reordered s') (m : SecretStore) :
    List.Forall₂ StoreCall.Alike (calls s m) (calls s' m) := by
  have hname : s'.name = s.name ∧ s'.namespace = s.namespace := by
    obtain ⟨-⟩ := h
    exact ⟨rfl, rfl⟩
  unfold calls SecretStore.keyOf
  rw [hname.1, hname.2]
  refine .cons (.get _ _) ?_
  cases m.secrets.get? (s.namespace, s.name) with
  | none => exact .cons (.create h.alike) .nil
  | some stored =>
    dsimp only
    rw [h.outdated_eq]
    split
    · exact .cons (.update (h.overlay stored).alike) .nil
    · exact .nil

/-- Whatever an attempt sends has the annotations of the desired Secret. -/
theorem annotations_of_mem_calls {desired s : Secret} {m : SecretStore} {c : StoreCall}
    (hc : c ∈ calls desired m) (hs : c.sent? = some s) {k v : Text}
    (hk : desired.annotations.get? k = some v) : s.annotations.get? k = some v := by
  rcases List.mem_cons.1 hc with rfl | hc
  · cases hs
  · split at hc
    · rw [List.mem_singleton.1 hc] at hs
      cases hs
      exact hk
    · next stored _ =>
      split at hc
      · rw [List.mem_singleton.1 hc] at hs
        cases hs
        exact (Secret.carries_overlay desired stored [] []).annotations k v hk
      · cases hc

/-- An undisturbed attempt succeeds. -/
theorem ensures_attempt_calls (desired : Secret) {x : SharedStore} (hx : x.store.IsKept)
    (hothers : x.others = []) :
    (attempt desired).run.Ensures SharedStore.answer x fun r x' =>
      ∃ s, r = .ok s ∧ x'.moments.map Moment.call =
        x.moments.map Moment.call ++ calls desired x.store := by
  obtain ⟨m, others, moments⟩ := x
  obtain rfl : others = [] := hothers
  cases hs : m.secrets.get? (SecretStore.keyOf desired) with
  | none =>
    obtain ⟨m', hcreate, -⟩ := SecretStore.create_eq hs
    refine (ensures_attempt_missing (SecretStore.get_of_none hs) rfl).2 ⟨m.newborn desired, ?_, ?_⟩
    · exact congrArg Prod.fst hcreate
    · simp [calls, hs, SharedStore.answer]
  | some stored =>
    cases hold : desired.outdated stored with
    | true =>
      obtain ⟨m', hupdate, -⟩ := Secret.update_overlay_eq hx hs
      refine (ensures_attempt_outdated (SecretStore.get_of_some hs) hold).2
        ⟨m.successor stored (desired.overlay stored), ?_, ?_⟩
      · exact congrArg Prod.fst hupdate
      · simp [calls, hs, hold, SharedStore.answer]
    | false =>
      refine (ensures_attempt_current (SecretStore.get_of_some hs) hold).2 ⟨stored, rfl, ?_⟩
      simp [calls, hs, hold, SharedStore.answer]

end Convergence

namespace KeyIndex

section Saving

variable {x y : KeyIndex}

/-- What is asked of a store that nobody else uses when an index with aliases is saved. -/
theorem calls_of_save (hne : x.isEmpty = false) (cluster : Cluster) (attempts : Int)
    (w : Surroundings) {m : SecretStore} (hm : m.IsKept) :
    (SharedStore.run (x.save cluster attempts).run w ⟨m, [], []⟩).2.2.moments.map Moment.call =
      match x.toSecret cluster with
      | .ok expected => Convergence.calls (expected.desired cluster.ownerReference?) m
      | .error _ => [] := by
  refine SharedStore.run_of_ensures (Q := fun _ y => y.moments.map Moment.call = _) ?_ w
  unfold save
  rw [hne, if_neg Bool.false_ne_true]
  refine (Action.ensures_bind _ _ _ _).2 ((Action.ensures_ofExcept _ _ _).2 ?_)
  cases x.toSecret cluster with
  | error e => rfl
  | ok expected =>
    refine (Action.ensures_bind _ _ _ _).2 ?_
    have hattempt := Convergence.ensures_attempt_calls
      (expected.desired cluster.ownerReference?) (x := ⟨m, [], []⟩) hm rfl
    refine Program.ensures_mono (Action.ensures_retrying hattempt _ _) ?_
    rintro r z ⟨s, rfl, hcalls⟩
    exact hcalls

/-- Saving sends Secrets with the annotation of the index only. -/
theorem annotation_of_sent (hne : x.isEmpty = false) {cluster : Cluster} {attempts : Int}
    {w : Surroundings} {m : SecretStore} (hm : m.IsKept) {t : Moment}
    (ht : t ∈ (SharedStore.run (x.save cluster attempts).run w ⟨m, [], []⟩).2.2.moments)
    {s : Secret} (hs : t.call.sent? = some s) :
    s.annotations.get? Naming.aliasesKey = some (aliasesText x.aliases) := by
  have hcall := List.mem_map_of_mem (f := Moment.call) ht
  rw [calls_of_save hne cluster attempts w hm] at hcall
  split at hcall
  · next expected hexpected =>
    obtain ⟨-, -, -, hannotations, -⟩ := parts_of_toSecret hexpected
    refine Convergence.annotations_of_mem_calls hcall hs ?_
    change expected.annotations.get? Naming.aliasesKey = _
    rw [hannotations, Table.get?_insert, if_pos rfl]
  · cases hcall

/-- The annotation tells the key IDs, as long as no text has a surrogate. -/
theorem aliasesText_injective {aliases aliases' : KeyMap Text}
    (h : ∀ a k, aliases.get? a = some k → a.isWellFormed = true ∧ k.isWellFormed = true)
    (h' : ∀ a k, aliases'.get? a = some k → a.isWellFormed = true ∧ k.isWellFormed = true)
    (heq : aliasesText aliases = aliasesText aliases') (a : Text) :
    aliases.get? a = aliases'.get? a := by
  have hunpaired : ∀ m : KeyMap Text,
      (∀ a k, m.get? a = some k → a.isWellFormed = true ∧ k.isWellFormed = true) →
      ∀ a k, m.get? a = some k → a.isUnpaired = true ∧ k.isUnpaired = true := by
    intro m hm a k hk
    exact (hm a k hk).imp Text.isUnpaired_of_isWellFormed Text.isUnpaired_of_isWellFormed
  obtain ⟨found, hread, hfound⟩ := readAliases_aliasesText none (hunpaired aliases h)
  obtain ⟨found', hread', hfound'⟩ := readAliases_aliasesText none (hunpaired aliases' h')
  rw [heq, hread'] at hread
  cases hread
  rw [← hfound, hfound']

/-- Indexes with the same look-ups are saved by the same calls. -/
theorem forall₂_moments_of_alike (h : x.Alike y) (hx : x.IsClean) (hy : y.IsClean)
    (cluster : Cluster) (attempts : Int) (w : Surroundings) {m : SecretStore} (hm : m.IsKept) :
    List.Forall₂ (fun t t' => t.call.Alike t'.call)
      (SharedStore.run (x.save cluster attempts).run w ⟨m, [], []⟩).2.2.moments
      (SharedStore.run (y.save cluster attempts).run w ⟨m, [], []⟩).2.2.moments := by
  cases hne : x.isEmpty with
  | true =>
    -- Without aliases there is nothing to send: the Secret is removed by the same program.
    have hsame : y.save cluster attempts = x.save cluster attempts := by
      unfold save
      rw [← h.isEmpty_eq, hne, if_pos rfl, if_pos rfl]
    rw [hsame]
    exact List.forall₂_same.2 fun t _ => StoreCall.Alike.refl t.call
  | false =>
    have hne' : y.isEmpty = false := h.isEmpty_eq ▸ hne
    obtain ⟨s, hs⟩ := (toSecret_eq_ok_iff x cluster).2 hx.isEncodable
    obtain ⟨s', hs'⟩ := (toSecret_eq_ok_iff y cluster).2 hy.isEncodable
    have hsecrets := reordered_toSecret h hx.named_keys hy.named_keys hs hs'
    have hcalls := Convergence.forall₂_calls_of_reordered
      (hsecrets.desired cluster.ownerReference?) m
    have hx' := calls_of_save hne cluster attempts w hm
    have hy' := calls_of_save hne' cluster attempts w hm
    simp only [hs] at hx'
    simp only [hs'] at hy'
    rw [← hx', ← hy'] at hcalls
    exact List.forall₂_map_right_iff.1 (List.forall₂_map_left_iff.1 hcalls)

end Saving

/-- After rearranged edits of the empty index, saving asks the same of a store, with the same
annotation and the same data in every Secret sent.  And two indexes whose Secrets are sent with the
same annotation have the same key IDs. -/
theorem save_isCanonical :
    (∀ (es es' : List Edit) (cluster : Cluster) (attempts : Int) (w : Surroundings)
        (m : SecretStore),
      Edit.Rearranged es es' → (∀ e ∈ es, e.IsWellFormed) → m.IsReachable →
      let out := SharedStore.run ((empty.edited es).save cluster attempts).run w ⟨m, [], []⟩
      let out' := SharedStore.run ((empty.edited es').save cluster attempts).run w ⟨m, [], []⟩
      out.1 = .ok () ∧ out'.1 = .ok () ∧
        List.Forall₂ (fun t t' => t.call.Alike t'.call) out.2.2.moments out'.2.2.moments) ∧
    ∀ (x y : KeyIndex) (cluster cluster' : Cluster) (attempts attempts' : Int)
        (w w' : Surroundings) (m m' : SecretStore),
      x.isEmpty = false → y.isEmpty = false →
      (∀ a k, x.aliases.get? a = some k → a.isWellFormed = true ∧ k.isWellFormed = true) →
      (∀ a k, y.aliases.get? a = some k → a.isWellFormed = true ∧ k.isWellFormed = true) →
      m.IsReachable → m'.IsReachable →
      let out := SharedStore.run (x.save cluster attempts).run w ⟨m, [], []⟩
      let out' := SharedStore.run (y.save cluster' attempts').run w' ⟨m', [], []⟩
      ∀ t ∈ out.2.2.moments, ∀ t' ∈ out'.2.2.moments, ∀ s s', t.call.sent? = some s →
        t'.call.sent? = some s' →
        s.annotations.get? Naming.aliasesKey = s'.annotations.get? Naming.aliasesKey →
        ∀ a, x.aliases.get? a = y.aliases.get? a := by
  constructor
  · intro es es' cluster attempts w m hes hwell hm out out'
    have hclean : (empty.edited es).IsClean := isClean_edited isClean_empty hwell
    have hclean' : (empty.edited es').IsClean :=
      isClean_edited isClean_empty fun e he => hwell e (hes.perm.mem_iff.2 he)
    have hsaved : ∀ x : KeyIndex, x.IsClean →
        (SharedStore.run (x.save cluster attempts).run w ⟨m, [], []⟩).1 = .ok () := by
      intro x hx
      rw [(SharedStore.run_alone _ w m []).1]
      exact (SecretStore.run_of_ensures (ensures_save_of_isEncodable hx.named_keys hx.isEncodable
        cluster attempts hm.isKept) w).1
    exact ⟨hsaved _ hclean, hsaved _ hclean', forall₂_moments_of_alike
      (alike_of_rearranged hes empty) hclean hclean' cluster attempts w hm.isKept⟩
  · intro x y cluster cluster' attempts attempts' w w' m m' hne hne' hx hy hm hm' out out' t ht t'
      ht' s s' hs hs' heq
    refine aliasesText_injective hx hy (Option.some.inj ?_)
    rw [← annotation_of_sent hne hm.isKept ht hs, heq, annotation_of_sent hne' hm'.isKept ht' hs']

/-- An alias is recorded, forgotten and recorded again, before another one and around it.  The
entries come in another order then, and an earlier Secret is updated to hold them. -/
theorem save_isCanonical_interleaved :
    let first : Edit := .update "eu" "k1" "x"
    let again : List Edit := [.delete "eu", .update "eu" "k\"3" "y"]
    let other : List Edit := [.update "prod" "k2" "z"]
    let x := empty.edited (first :: (other ++ again))
    let y := empty.edited (first :: (again ++ other))
    let stored : Secret := ⟨"es-es-remote-api-keys", "ns", Table.empty.insert "a" "b", .empty,
      Table.empty.insert "stray" [0xFF], [], [], []⟩
    let cluster : Cluster := ⟨"es", "ns", "uid", [], "v1", "Elasticsearch"⟩
    let m := (SecretStore.empty fun _ => "uid-1").after [.create stored]
    let out := SharedStore.run (x.save cluster 3).run .bare ⟨m, [], []⟩
    let out' := SharedStore.run (y.save cluster 3).run .bare ⟨m, [], []⟩
    Edit.Rearranged (first :: (other ++ again)) (first :: (again ++ other)) ∧
      x.keys.keys = [("prod" : Text), ("eu" : Text)] ∧
      y.keys.keys = [("eu" : Text), ("prod" : Text)] ∧
      out.2.2.moments.map (fun t => t.call.sent?.isSome) = [false, true] ∧
      out.1 = .ok () ∧ out'.1 = .ok () ∧
      List.Forall₂ (fun t t' => t.call.Alike t'.call) out.2.2.moments out'.2.2.moments ∧
      ∀ a, x.aliases.get? a = y.aliases.get? a := by
  intro first again other x y stored cluster m out out'
  have hperm : Edit.Rearranged (first :: (other ++ again)) (first :: (again ++ other)) := by
    refine ⟨.cons _ List.perm_append_comm, fun a => ?_⟩
    by_cases ha : ("prod" : Text) = a
    · subst ha
      rfl
    · have hother : other.filter (·.remote = a) = [] := by simp [other, Edit.remote, ha]
      rw [List.filter_cons, List.filter_cons, List.filter_append, List.filter_append, hother,
        List.append_nil, List.nil_append]
  have hwell : ∀ e ∈ first :: (other ++ again), e.IsWellFormed := by
    intro e he
    simp only [first, other, again, List.mem_cons, List.mem_append, List.not_mem_nil,
      or_false] at he
    rcases he with rfl | rfl | rfl | rfl
    · exact ⟨by decide, by decide⟩
    · exact ⟨by decide, by decide⟩
    · trivial
    · exact ⟨by decide, by decide⟩
  have hm : m.IsReachable := ⟨_, _, rfl⟩
  obtain ⟨hsame, hinjective⟩ := save_isCanonical
  obtain ⟨hok, hok', hcalls⟩ := hsame _ _ cluster 3 .bare m hperm hwell hm
  have hsent : out.2.2.moments.map (fun t => t.call.sent?.isSome) = [false, true] := by
    decide +kernel
  have hsent' : out'.2.2.moments.map (fun t => t.call.sent?.isSome) = [false, true] := by
    decide +kernel
  have hfound : ∀ ts : List Moment, ts.map (fun t => t.call.sent?.isSome) = [false, true] →
      ∃ t ∈ ts, ∃ s, t.call.sent? = some s := by
    intro ts hts
    obtain ⟨t, ht, hs⟩ := List.mem_map.1 (hts.symm ▸ List.mem_cons_of_mem _ List.mem_cons_self)
    exact ⟨t, ht, Option.isSome_iff_exists.1 hs⟩
  obtain ⟨t, ht, s, hs⟩ := hfound _ hsent
  obtain ⟨t', ht', s', hs'⟩ := hfound _ hsent'
  have hclean : x.IsClean := isClean_edited isClean_empty hwell
  have hclean' : y.IsClean :=
    isClean_edited isClean_empty fun e he => hwell e (hperm.perm.mem_iff.2 he)
  have hplain : ∀ z : KeyIndex, z.IsClean → ∀ a k, z.aliases.get? a = some k →
      a.isWellFormed = true ∧ k.isWellFormed = true :=
    fun z hz a k hk => ⟨isWellFormed_of_isAlias (hz.named a k hk), hz.keyIds a k hk⟩
  have htext : s.annotations.get? Naming.aliasesKey = s'.annotations.get? Naming.aliasesKey := by
    rw [annotation_of_sent rfl hm.isKept ht hs, annotation_of_sent rfl hm.isKept ht' hs']
    exact congrArg some (aliasesText_congr (alike_of_rearranged hperm empty).1)
  exact ⟨hperm, by decide, by decide, hsent, hok, hok', hcalls,
    hinjective x y cluster cluster 3 3 .bare .bare m m rfl rfl (hplain x hclean)
      (hplain y hclean') hm hm t ht t' ht' s s' hs hs' htext⟩

end KeyIndex
end CrossClusterKeys
