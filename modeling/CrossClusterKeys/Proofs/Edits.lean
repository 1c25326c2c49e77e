import CrossClusterKeys.Proofs.Persistence

/-!
# Edited indexes are kept by saving

An index is edited alias by alias.  Updates of an alias that is refused leave it as it is.

**Invariant.**  In an index that was edited from the empty one, the same aliases have a key ID and
a credential, all of them may be aliases, and all texts are without surrogates if those of the
edits are.  Such an index is legible.

**Results.**
* `isClean_edited`: the invariant holds after any sequence of edits.
* `isLegible_of_isClean`: every text of such an index reads back from its stored form.
* What is saved over any earlier Secret is what is loaded.
-/

namespace CrossClusterKeys

open SecretStore (answer)

/-- A change of one alias. -/
inductive Edit
  | update (remote keyId credential : Text)
  | delete (remote : Text)

namespace Edit

/-- The alias that is changed. -/
def remote : Edit → Text
  | .update remote _ _ => remote
  | .delete remote => remote

/-- The index after the change, unless the alias is refused. -/
def apply (x : KeyIndex) : Edit → Except IndexFailure KeyIndex
  | .update remote keyId credential => x.record remote keyId credential
  | .delete remote => .ok (x.forget remote)

/-- The key ID and the credential are without surrogates. -/
def IsWellFormed : Edit → Prop
  | .update _ keyId credential => keyId.isWellFormed = true ∧ credential.isWellFormed = true
  | .delete _ => True

/-- Whatever can be stored can still be stored after the change. -/
def IsStorable (e : Edit) : Prop :=
  ∀ x : KeyIndex, x.IsEncodable → ∃ y, e.apply x = .ok y ∧ y.IsEncodable

end Edit

namespace KeyIndex

/-- The index after a change, as it was if the change is refused. -/
def edit (x : KeyIndex) (e : Edit) : KeyIndex := (e.apply x).toOption.getD x

/-- The index after changes one after the other. -/
def edited (x : KeyIndex) (es : List Edit) : KeyIndex := es.foldl edit x

/-- The same aliases in both maps, with texts that have bytes of their own. -/
structure IsClean (x : KeyIndex) : Prop where
  together : ∀ a, (x.aliases.get? a).isSome = (x.keys.get? a).isSome
  named : ∀ a k, x.aliases.get? a = some k → Naming.isAlias a = true
  keyIds : ∀ a k, x.aliases.get? a = some k → k.isWellFormed = true
  credentials : ∀ a c, x.keys.get? a = some c → c.isWellFormed = true

section Look

variable (x : KeyIndex) (remote keyId credential a : Text)

theorem get?_aliases_put :
    (x.put remote keyId credential).aliases.get? a =
      if remote = a then some keyId else x.aliases.get? a :=
  Table.get?_insert _ _ _ _

theorem get?_keys_put :
    (x.put remote keyId credential).keys.get? a =
      if remote = a then some credential else x.keys.get? a :=
  Table.get?_insert _ _ _ _

theorem get?_aliases_forget :
    (x.forget remote).aliases.get? a = if remote = a then none else x.aliases.get? a :=
  Table.get?_erase _ _ _

theorem get?_keys_forget :
    (x.forget remote).keys.get? a = if remote = a then none else x.keys.get? a :=
  Table.get?_erase _ _ _

end Look

section Named

theorem record_of_isAlias {x : KeyIndex} {remote : Text} (ha : Naming.isAlias remote = true)
    (keyId credential : Text) :
    x.record remote keyId credential = .ok (x.put remote keyId credential) := by
  have halias : aliasOf (.text remote) = .ok remote := if_pos ha
  rw [record, halias]
  rfl

theorem isNamed_put {x : KeyIndex} (hx : x.IsNamed) {remote : Text}
    (ha : Naming.isAlias remote = true) (keyId credential : Text) :
    (x.put remote keyId credential).IsNamed := by
  intro a c hc
  rw [get?_keys_put] at hc
  split at hc
  · next heq => exact heq ▸ ha
  · exact hx a c hc

theorem isNamed_forget {x : KeyIndex} (hx : x.IsNamed) (remote : Text) :
    (x.forget remote).IsNamed := by
  intro a c hc
  rw [get?_keys_forget] at hc
  split at hc
  · cases hc
  · exact hx a c hc

/-- No edit records a credential under a name that is no alias. -/
theorem isNamed_of_edit {x y : KeyIndex} (hx : x.IsNamed) {e : Edit} (h : e.apply x = .ok y) :
    y.IsNamed := by
  cases e with
  | update remote keyId credential =>
    obtain ⟨ha, rfl⟩ := record_aliases h
    exact isNamed_put hx ha keyId credential
  | delete remote =>
    cases h
    exact isNamed_forget hx remote

theorem isStorable_delete (remote : Text) : (Edit.delete remote).IsStorable := by
  intro x hx
  refine ⟨x.forget remote, rfl, fun a c hc => ?_⟩
  rw [get?_keys_forget] at hc
  split at hc
  · cases hc
  · exact hx a c hc

theorem isStorable_update {remote credential : Text} (ha : Naming.isAlias remote = true)
    {bytes : List UInt8} (hb : Utf8.encode credential = .ok bytes) (keyId : Text) :
    (Edit.update remote keyId credential).IsStorable := by
  intro x hx
  refine ⟨x.put remote keyId credential, ?_, ?_⟩
  · exact record_of_isAlias ha keyId credential
  · exact isEncodable_put hx remote keyId ⟨bytes, hb⟩

end Named

section Clean

theorem isClean_empty : empty.IsClean := by
  refine ⟨fun _ => rfl, ?_, ?_, ?_⟩
  all_goals
    intro a t h
    cases h

theorem isClean_put {x : KeyIndex} (hx : x.IsClean) {remote keyId credential : Text}
    (ha : Naming.isAlias remote = true) (hk : keyId.isWellFormed = true)
    (hc : credential.isWellFormed = true) : (x.put remote keyId credential).IsClean := by
  constructor
  · intro a
    rw [get?_aliases_put, get?_keys_put]
    split
    · rfl
    · exact hx.together a
  · intro a k h
    rw [get?_aliases_put] at h
    split at h
    · next heq => exact heq ▸ ha
    · exact hx.named a k h
  · intro a k h
    rw [get?_aliases_put] at h
    split at h
    · cases h
      exact hk
    · exact hx.keyIds a k h
  · intro a c h
    rw [get?_keys_put] at h
    split at h
    · cases h
      exact hc
    · exact hx.credentials a c h

theorem isClean_forget {x : KeyIndex} (hx : x.IsClean) (remote : Text) :
    (x.forget remote).IsClean := by
  constructor
  · intro a
    rw [get?_aliases_forget, get?_keys_forget]
    split
    · rfl
    · exact hx.together a
  · intro a k h
    rw [get?_aliases_forget] at h
    split at h
    · cases h
    · exact hx.named a k h
  · intro a k h
    rw [get?_aliases_forget] at h
    split at h
    · cases h
    · exact hx.keyIds a k h
  · intro a c h
    rw [get?_keys_forget] at h
    split at h
    · cases h
    · exact hx.credentials a c h

theorem isClean_congr {x y : KeyIndex} (h : x.Alike y) (hx : x.IsClean) : y.IsClean := by
  constructor
  · intro a
    rw [← h.1, ← h.2]
    exact hx.together a
  · intro a k hk
    exact hx.named a k ((h.1 a).trans hk)
  · intro a k hk
    exact hx.keyIds a k ((h.1 a).trans hk)
  · intro a c hc
    exact hx.credentials a c ((h.2 a).trans hc)

/-- One change keeps the invariant. -/
theorem isClean_edit {x : KeyIndex} (hx : x.IsClean) {e : Edit} (he : e.IsWellFormed) :
    (x.edit e).IsClean := by
  unfold edit
  cases happly : e.apply x with
  | error f => exact hx
  | ok y =>
    cases e with
    | update remote keyId credential =>
      obtain ⟨ha, rfl⟩ := record_aliases happly
      exact isClean_put hx ha he.1 he.2
    | delete remote =>
      cases happly
      exact isClean_forget hx remote

/-- The invariant holds after any sequence of edits. -/
theorem isClean_edited {x : KeyIndex} (hx : x.IsClean) {es : List Edit}
    (hes : ∀ e ∈ es, e.IsWellFormed) : (x.edited es).IsClean := by
  induction es generalizing x with
  | nil => exact hx
  | cons e es ih =>
    have hstep : (x.edit e).IsClean := isClean_edit hx (hes e List.mem_cons_self)
    exact ih hstep fun e' he' => hes e' (List.mem_cons_of_mem _ he')

theorem isWellFormed_of_isAlias {a : Text} (h : Naming.isAlias a = true) :
    a.isWellFormed = true := by
  unfold Naming.isAlias at h
  rw [Bool.and_eq_true, List.all_eq_true] at h
  unfold Text.isWellFormed
  rw [List.all_eq_true]
  intro c hc
  have hlow := Naming.lt_of_isAliasPoint (h.2 c hc)
  simp only [CodePoint.isSurrogate, Bool.not_eq_true', Bool.and_eq_false_iff,
    decide_eq_false_iff_not]
  omega

theorem IsClean.named_keys {x : KeyIndex} (hx : x.IsClean) : x.IsNamed := by
  intro a c hc
  have hsome : (x.aliases.get? a).isSome = true := by
    rw [hx.together, hc]
    rfl
  obtain ⟨k, hk⟩ := Option.isSome_iff_exists.1 hsome
  exact hx.named a k hk

/-- Every text of such an index reads back from its stored form. -/
theorem isLegible_of_isClean {x : KeyIndex} (hx : x.IsClean) : x.IsLegible := by
  refine ⟨hx.named_keys, fun a k hk => ⟨?_, ?_⟩, fun a c bytes hc hb => ?_⟩
  · exact Text.isUnpaired_of_isWellFormed (isWellFormed_of_isAlias (hx.named a k hk))
  · exact Text.isUnpaired_of_isWellFormed (hx.keyIds a k hk)
  · exact Utf8.decode_of_encode (hx.credentials a c hc) hb

theorem IsClean.isEncodable {x : KeyIndex} (hx : x.IsClean) : x.IsEncodable := by
  intro a c hc
  obtain ⟨bytes, hb, -⟩ := Utf8.decode_encode (hx.credentials a c hc)
  exact ⟨bytes, hb⟩

/-- Without aliases there are no credentials either. -/
theorem alike_empty_of_isClean {x : KeyIndex} (hx : x.IsClean) (h : x.isEmpty = true) :
    empty.Alike x := by
  have hnone := (Table.isEmpty_iff x.aliases).1 h
  refine ⟨fun a => (hnone a).symm, fun a => ?_⟩
  have htogether := hx.together a
  rw [hnone] at htogether
  cases hk : x.keys.get? a with
  | none => rfl
  | some c =>
    rw [hk] at htogether
    cases htogether

/-- A clean index that stands in a store is loaded from it. -/
theorem indexOf_of_isClean [Json.Nesting] {x : KeyIndex} (hx : x.IsClean) {cluster : Cluster}
    {m : SecretStore} (h : x.Stands cluster m) : ∃ y, m.indexOf cluster = .ok y ∧ y.Alike x := by
  cases hne : x.isEmpty with
  | true => exact ⟨empty, indexOf_of_stands_empty h hne, alike_empty_of_isClean hx hne⟩
  | false => exact indexOf_of_stands (isLegible_of_isClean hx) h hne

end Clean

/-- After any edits of the empty index, saving it over whatever Secrets any calls have left
succeeds, and loading it afterwards results in the same key IDs and the same keys. -/
theorem load_save_edited [Json.Nesting] (uids : Nat → Text) (calls : List StoreCall)
    (edits : List Edit) (hedits : ∀ e ∈ edits, e.IsWellFormed) (cluster : Cluster) (attempts : Int)
    (w w' : Surroundings) :
    let saved := SecretStore.run ((empty.edited edits).save cluster attempts).run w
      ((SecretStore.empty uids).after calls)
    saved.1 = .ok () ∧
      ∃ y, (SecretStore.run (load cluster).run w' saved.2.2).1 = .ok y ∧
        y.Alike (empty.edited edits) := by
  have hclean : (empty.edited edits).IsClean := isClean_edited isClean_empty hedits
  intro saved
  obtain ⟨hok, hsaved⟩ := SecretStore.run_of_ensures
    (ensures_save_of_isEncodable hclean.named_keys hclean.isEncodable cluster attempts
      (SecretStore.isKept_after uids calls)) w
  refine ⟨hok, ?_⟩
  obtain ⟨y, hy, halike⟩ := indexOf_of_isClean hclean hsaved.stands
  exact ⟨y, (run_load cluster w' saved.2.2).trans hy, halike⟩

/-- A refused alias, a deleted one and two that are kept, over a Secret whose annotation cannot be
read. -/
theorem load_save_edited_over_malformed :
    let edits : List Edit := [.update "prod" "k1" "a2V5", .update "not an alias" "k2" "eA==",
      .update "eu-1" "k3" [.ofNat 0xE9, .ofNat 0x1F511], .delete "prod"]
    let stored : Secret := ⟨"es-es-remote-api-keys", "ns", .empty,
      Table.empty.insert Naming.aliasesKey "[1", Table.empty.insert "stray" [0xFF], [], [], []⟩
    let cluster : Cluster := ⟨"es", "ns", "uid", [], "v1", "Elasticsearch"⟩
    let saved := SecretStore.run ((empty.edited edits).save cluster 3).run .bare
      ((SecretStore.empty fun _ => "uid-1").after [.create stored])
    (∀ e ∈ edits, e.IsWellFormed) ∧ saved.1 = .ok () ∧
      ∃ y, (SecretStore.run (load cluster).run .bare saved.2.2).1 = .ok y ∧
        y.Alike (empty.edited edits) := by
  intro edits stored cluster saved
  have hedits : ∀ e ∈ edits, e.IsWellFormed := by
    intro e he
    simp only [edits, List.mem_cons, List.not_mem_nil, or_false] at he
    rcases he with rfl | rfl | rfl | rfl
    · exact ⟨by decide, by decide⟩
    · exact ⟨by decide, by decide⟩
    · exact ⟨by decide, by decide⟩
    · trivial
  exact ⟨hedits, load_save_edited _ [.create stored] edits hedits cluster 3 .bare .bare⟩

end KeyIndex
end CrossClusterKeys
