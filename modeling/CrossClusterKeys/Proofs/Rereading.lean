import CrossClusterKeys.Proofs.Edits

/-!
# What is left of edits in a stored index

An index that was saved and loaded again need not be the same: one without aliases is not stored at
all, and so loses every credential, of which none has a key ID.

**Input.**  Edits that are made one after the other, each of the index that is loaded after the one
before was saved.  The indexes that were saved are kept.

**Results.**
* `reread_of_stands`: what is loaded of a legible index that stands in a store.
* `shows_of_becomes`: edits of different aliases are all shown, and a credential that none of them
  is about is lost only if an index without aliases was saved.
-/

namespace CrossClusterKeys

/-- The texts of the edit read back from their stored form. -/
def Edit.IsLegible : Edit → Prop
  | .update _ keyId credential =>
    keyId.isUnpaired = true ∧
      ∀ bytes, Utf8.encode credential = .ok bytes → Utf8.decode bytes = credential
  | .delete _ => True

namespace KeyIndex

/-- What is loaded of an index that was saved: the same, or nothing if it had no aliases. -/
structure Reread (y z : KeyIndex) : Prop where
  aliases : ∀ a, z.aliases.get? a = y.aliases.get? a
  kept : y.isEmpty = false → ∀ a, z.keys.get? a = y.keys.get? a
  gone : y.isEmpty = true → ∀ a, z.keys.get? a = none

/-- What becomes of an index by edits, the latest one first.  Each edit is of what was loaded after
the one before, and results in one of the indexes that were saved. -/
inductive Becomes (x : KeyIndex) : List Edit → List KeyIndex → KeyIndex → Prop
  | start : Becomes x [] [] x
  | edit {edits saved z e y w} (h : Becomes x edits saved z) (hy : e.apply z = .ok y)
      (hw : y.Reread w) : Becomes x (e :: edits) (y :: saved) w

/-- The index `y` shows the effect of some edits of `x`, and else it is as `x`.  Only a credential
without a key ID can be lost, and only if one of the indexes that were saved has no aliases. -/
structure Shows (saved : List KeyIndex) (edits : List Edit) (x y : KeyIndex) : Prop where
  updated : ∀ a keyId credential, Edit.update a keyId credential ∈ edits →
    y.aliases.get? a = some keyId ∧ y.keys.get? a = some credential
  deleted : ∀ a, Edit.delete a ∈ edits → y.aliases.get? a = none ∧ y.keys.get? a = none
  others : ∀ a, (∀ e ∈ edits, e.remote ≠ a) →
    y.aliases.get? a = x.aliases.get? a ∧
      (y.keys.get? a = x.keys.get? a ∨
        (x.contains a = false ∧ y.keys.get? a = none ∧ ∃ s ∈ saved, s.isEmpty = true))

section Rereading

/-- An index that stands in a store is read again from it. -/
theorem reread_of_stands [Json.Nesting] {y : KeyIndex} (hy : y.IsLegible) {cluster : Cluster}
    {m : SecretStore} (h : y.Stands cluster m) :
    ∃ z, m.indexOf cluster = .ok z ∧ y.Reread z ∧ z.IsLegible := by
  cases hne : y.isEmpty with
  | true =>
    have hnone := (Table.isEmpty_iff _).1 hne
    refine ⟨empty, indexOf_of_stands_empty h hne, ⟨fun a => (hnone a).symm, fun h => ?_, ?_⟩,
      isLegible_of_isClean isClean_empty⟩
    · rw [hne] at h
      cases h
    · exact fun _ _ => rfl
  | false =>
    obtain ⟨z, hz, halike⟩ := indexOf_of_stands hy h hne
    refine ⟨z, hz, ⟨halike.1, fun _ => halike.2, fun h => ?_⟩, fun a c hc => ?_, fun a k hk => ?_,
      fun a c bytes hc => ?_⟩
    · rw [hne] at h
      cases h
    · exact hy.named a c ((halike.2 a).symm.trans hc)
    · exact hy.aliases a k ((halike.1 a).symm.trans hk)
    · exact hy.keys a c bytes ((halike.2 a).symm.trans hc)

/-- A credential that was loaded is what its bytes decode to. -/
theorem decode_of_indexOf [Json.Nesting] {m : SecretStore} {cluster : Cluster} {x : KeyIndex}
    (h : m.indexOf cluster = .ok x) {a c : Text} (hc : x.keys.get? a = some c)
    {bytes : List UInt8} (hb : Utf8.encode c = .ok bytes) : Utf8.decode bytes = c := by
  unfold SecretStore.indexOf at h
  split at h
  · obtain ⟨bytes', -, hb', hd⟩ := stable_of_ofSecret h hc
    rw [hb] at hb'
    cases hb'
    exact hd
  · cases h
    cases hc

/-- What was loaded is legible if its key IDs are unpaired. -/
theorem isLegible_of_indexOf [Json.Nesting] {m : SecretStore} {cluster : Cluster} {x : KeyIndex}
    (h : m.indexOf cluster = .ok x)
    (hx : ∀ a k, x.aliases.get? a = some k → a.isUnpaired = true ∧ k.isUnpaired = true) :
    x.IsLegible :=
  ⟨SecretStore.isNamed_of_indexOf h, hx, fun _ _ _ hc hb => decode_of_indexOf h hc hb⟩

theorem isLegible_of_edit {x y : KeyIndex} (hx : x.IsLegible) {e : Edit} (he : e.IsLegible)
    (h : e.apply x = .ok y) : y.IsLegible := by
  refine ⟨isNamed_of_edit hx.named h, fun a k hk => ?_, fun a c bytes hc => ?_⟩
  · cases e with
    | update remote keyId credential =>
      obtain ⟨ha, rfl⟩ := record_aliases h
      rw [get?_aliases_put] at hk
      split at hk
      · next heq =>
        cases hk
        exact ⟨heq ▸ Text.isUnpaired_of_isWellFormed (isWellFormed_of_isAlias ha), he.1⟩
      · exact hx.aliases a k hk
    | delete remote =>
      cases h
      rw [get?_aliases_forget] at hk
      split at hk
      · cases hk
      · exact hx.aliases a k hk
  · cases e with
    | update remote keyId credential =>
      obtain ⟨-, rfl⟩ := record_aliases h
      rw [get?_keys_put] at hc
      split at hc
      · cases hc
        exact he.2 bytes
      · exact hx.keys a c bytes hc
    | delete remote =>
      cases h
      rw [get?_keys_forget] at hc
      split at hc
      · cases hc
      · exact hx.keys a c bytes hc

end Rereading

section Showing

theorem shows_nil (x : KeyIndex) : x.Shows [] [] x := by
  refine ⟨fun a k c h => ?_, fun a h => ?_, fun a _ => ⟨rfl, Or.inl rfl⟩⟩
  · cases h
  · cases h

variable {saved : List KeyIndex} {edits : List Edit} {x y : KeyIndex}

theorem contains_eq_false_of_isEmpty (h : y.isEmpty = true) (a : Text) : y.contains a = false := by
  rw [contains, Table.contains, (Table.isEmpty_iff _).1 h]
  rfl

/-- Saving an index and loading it loses nothing of what it shows. -/
theorem shows_reread {z : KeyIndex} (h : x.Shows saved edits y) (hz : y.Reread z) :
    x.Shows (y :: saved) edits z := by
  have hkeys : ∀ a, z.keys.get? a = y.keys.get? a ∨ (y.isEmpty = true ∧ z.keys.get? a = none) := by
    intro a
    cases hempty : y.isEmpty with
    | true => exact Or.inr ⟨rfl, hz.gone hempty a⟩
    | false => exact Or.inl (hz.kept hempty a)
  refine ⟨fun a k c he => ?_, fun a he => ?_, fun a ha => ?_⟩
  · obtain ⟨hk, hc⟩ := h.updated a k c he
    refine ⟨(hz.aliases a).trans hk, ?_⟩
    rcases hkeys a with hsame | ⟨hempty, -⟩
    · exact hsame.trans hc
    · rw [(Table.isEmpty_iff _).1 hempty] at hk
      cases hk
  · obtain ⟨hk, hc⟩ := h.deleted a he
    refine ⟨(hz.aliases a).trans hk, ?_⟩
    rcases hkeys a with hsame | ⟨-, hnone⟩
    · exact hsame.trans hc
    · exact hnone
  · obtain ⟨hk, hc⟩ := h.others a ha
    refine ⟨(hz.aliases a).trans hk, ?_⟩
    rcases hkeys a with hsame | ⟨hempty, hnone⟩
    · rw [hsame]
      rcases hc with hc | ⟨hnot, hnone, s, hs, hempty⟩
      · exact Or.inl hc
      · exact Or.inr ⟨hnot, hnone, s, List.mem_cons_of_mem _ hs, hempty⟩
    · refine Or.inr ⟨?_, hnone, y, List.mem_cons_self, hempty⟩
      have hnot := contains_eq_false_of_isEmpty hempty a
      rw [contains, Table.contains, hk] at hnot
      exact hnot

/-- An edit leaves every alias but its own as it is. -/
theorem get?_of_edit {y y' : KeyIndex} {e : Edit} (h : e.apply y = .ok y') {a : Text}
    (ha : e.remote ≠ a) :
    y'.aliases.get? a = y.aliases.get? a ∧ y'.keys.get? a = y.keys.get? a := by
  cases e with
  | update remote keyId credential =>
    obtain ⟨-, rfl⟩ := record_aliases h
    have hne : ¬ remote = a := ha
    rw [get?_aliases_put, get?_keys_put, if_neg hne, if_neg hne]
    exact ⟨rfl, rfl⟩
  | delete remote =>
    cases h
    have hne : ¬ remote = a := ha
    rw [get?_aliases_forget, get?_keys_forget, if_neg hne, if_neg hne]
    exact ⟨rfl, rfl⟩

/-- One more edit, of another alias than the edits before. -/
theorem shows_edit {y' : KeyIndex} (h : x.Shows saved edits y) {e : Edit}
    (hy : e.apply y = .ok y') (hne : ∀ e' ∈ edits, e'.remote ≠ e.remote) :
    x.Shows saved (e :: edits) y' := by
  refine ⟨fun a k c he => ?_, fun a he => ?_, fun a ha => ?_⟩
  · rcases List.mem_cons.1 he with rfl | hmem
    · obtain ⟨-, rfl⟩ := record_aliases hy
      rw [get?_aliases_put, get?_keys_put, if_pos rfl, if_pos rfl]
      exact ⟨rfl, rfl⟩
    · obtain ⟨hk, hc⟩ := get?_of_edit (a := a) hy fun heq => hne _ hmem heq.symm
      rw [hk, hc]
      exact h.updated a k c hmem
  · rcases List.mem_cons.1 he with rfl | hmem
    · cases hy
      rw [get?_aliases_forget, get?_keys_forget, if_pos rfl, if_pos rfl]
      exact ⟨rfl, rfl⟩
    · obtain ⟨hk, hc⟩ := get?_of_edit (a := a) hy fun heq => hne _ hmem heq.symm
      rw [hk, hc]
      exact h.deleted a hmem
  · obtain ⟨hk, hc⟩ := get?_of_edit hy (ha e List.mem_cons_self)
    rw [hk, hc]
    exact h.others a fun e' he' => ha e' (List.mem_cons_of_mem _ he')

/-- Edits of different aliases, one after the other, are all shown. -/
theorem shows_of_becomes (h : x.Becomes edits saved y)
    (hne : edits.Pairwise fun e e' => e'.remote ≠ e.remote) : x.Shows saved edits y := by
  induction h with
  | start => exact shows_nil x
  | edit _ hy hw ih =>
    obtain ⟨hfirst, hrest⟩ := List.pairwise_cons.1 hne
    exact shows_reread (shows_edit (ih hrest) hy hfirst) hw

theorem shows_of_mem {edits' : List Edit} (h : x.Shows saved edits y)
    (hmem : ∀ e, e ∈ edits ↔ e ∈ edits') : x.Shows saved edits' y :=
  ⟨fun a k c he => h.updated a k c ((hmem _).2 he), fun a he => h.deleted a ((hmem _).2 he),
    fun a ha => h.others a fun e he => ha e ((hmem e).1 he)⟩

end Showing

end KeyIndex

end CrossClusterKeys
