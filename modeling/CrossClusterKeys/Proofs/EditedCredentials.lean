import CrossClusterKeys.Proofs.Edits
import CrossClusterKeys.Proofs.Versions

/-!
# Editing a stored index keeps all other credentials byte for byte

**Input.**  A Secret whose index can be loaded, with any bytes as data, and edits that are accepted
one after the other and leave at least one alias.

**Invariant.**  What an alias has for a credential is decided by its last edit; without one it is
what was loaded.

**Results.**
* `get?_keys_of_edits`: the invariant.
* `bytesAt_of_edits`: what is stored of the credentials then.
* `data_after_save_edited`: the data of the Secret after loading, editing and saving.
-/

namespace CrossClusterKeys

namespace Edit

/-- The last edit of an alias. -/
def lastOf (a : Text) (edits : List Edit) : Option Edit := edits.reverse.find? (·.remote = a)

theorem lastOf_cons (a : Text) (e : Edit) (edits : List Edit) :
    lastOf a (e :: edits) = (lastOf a edits).or (if e.remote = a then some e else none) := by
  simp [lastOf, List.find?_append, List.find?_singleton]

theorem mem_of_lastOf {a : Text} {e : Edit} {edits : List Edit} (h : lastOf a edits = some e) :
    e ∈ edits := List.mem_reverse.1 (List.mem_of_find?_eq_some h)

/-- The credential of the alias after the edit. -/
def credential? : Edit → Option Text
  | .update _ _ credential => some credential
  | .delete _ => none

/-- The index after edits one after the other, unless one of them is refused. -/
def applyAll (x : KeyIndex) (edits : List Edit) : Except IndexFailure KeyIndex :=
  edits.foldlM (fun x e => e.apply x) x

end Edit

/-- The data entry that edits leave of a Secret: no setting that holds no credential of an alias,
the new bytes for an alias that was updated last, none for one that was deleted last, and the old
bytes for an alias that was not edited. -/
def Secret.entryAfter (s : Secret) (edits : List Edit) (setting : Text) : Option (List UInt8) :=
  match Naming.aliasOf? setting with
  | none => none
  | some a =>
    match Edit.lastOf a edits with
    | none => s.data.get? setting
    | some (.update _ _ credential) => some (credential.flatMap Utf8.bytesOf)
    | some (.delete _) => none

namespace KeyIndex

section Edits

variable {x y : KeyIndex}

theorem get?_keys_of_edit {e : Edit} (h : e.apply x = .ok y) (a : Text) :
    y.keys.get? a = if e.remote = a then e.credential? else x.keys.get? a := by
  cases e with
  | update remote keyId credential =>
    obtain ⟨-, rfl⟩ := record_aliases h
    exact get?_keys_put _ _ _ _ _
  | delete remote =>
    cases h
    exact get?_keys_forget _ _ _

theorem applyAll_cons_eq_ok {e : Edit} {edits : List Edit}
    (h : Edit.applyAll x (e :: edits) = .ok y) :
    ∃ z, e.apply x = .ok z ∧ Edit.applyAll z edits = .ok y := by
  rw [Edit.applyAll, List.foldlM_cons] at h
  rcases he : e.apply x with f | z
  · rw [he] at h
    cases h
  · rw [he] at h
    exact ⟨z, rfl, h⟩

theorem isNamed_of_edits {edits : List Edit} (hx : x.IsNamed)
    (h : Edit.applyAll x edits = .ok y) : y.IsNamed := by
  induction edits generalizing x with
  | nil =>
    cases h
    exact hx
  | cons e edits ih =>
    obtain ⟨z, hz, hrest⟩ := applyAll_cons_eq_ok h
    exact ih (isNamed_of_edit hx hz) hrest

/-- The last edit of an alias decides on its credential. -/
theorem get?_keys_of_edits {edits : List Edit} (h : Edit.applyAll x edits = .ok y) (a : Text) :
    y.keys.get? a =
      match Edit.lastOf a edits with
      | none => x.keys.get? a
      | some e => e.credential? := by
  induction edits generalizing x with
  | nil =>
    cases h
    rfl
  | cons e edits ih =>
    obtain ⟨z, hz, hrest⟩ := applyAll_cons_eq_ok h
    rw [ih hrest, Edit.lastOf_cons]
    cases Edit.lastOf a edits with
    | some e' => rfl
    | none =>
      change z.keys.get? a = _
      rw [get?_keys_of_edit hz, Option.none_or]
      split
      · rfl
      · rfl

end Edits

section Bytes

variable [Json.Nesting] {s : Secret} {x y : KeyIndex} {edits : List Edit} (hx : ofSecret s = .ok x)
  (hy : Edit.applyAll x edits = .ok y) (hedits : ∀ e ∈ edits, e.IsWellFormed)

include hx hy hedits

theorem isEncodable_of_edits : y.IsEncodable := by
  intro a c hc
  rw [get?_keys_of_edits hy] at hc
  cases hlast : Edit.lastOf a edits with
  | none =>
    rw [hlast] at hc
    exact isEncodable_of_ofSecret hx a c hc
  | some e =>
    rw [hlast] at hc
    cases e with
    | update remote keyId credential =>
      cases hc
      exact ⟨_, Utf8.encode_of_isWellFormed (hedits _ (Edit.mem_of_lastOf hlast)).2⟩
    | delete remote => cases hc

/-- What is stored of the credentials after the edits. -/
theorem bytesAt_of_edits (setting : Text) : y.bytesAt setting = s.entryAfter edits setting := by
  unfold bytesAt Secret.entryAfter
  cases ha : Naming.aliasOf? setting with
  | none => rfl
  | some a =>
    obtain ⟨rfl, halias⟩ := Naming.aliasOf?_eq_some.1 ha
    change (y.keys.get? a).bind (fun c => (Utf8.encode c).toOption) = _
    rw [get?_keys_of_edits hy]
    dsimp only
    cases hlast : Edit.lastOf a edits with
    | none =>
      change (x.keys.get? a).bind _ = s.data.get? (Naming.settingName a)
      cases hb : s.data.get? (Naming.settingName a) with
      | none =>
        rw [Option.bind_eq_none_iff]
        intro c hc
        obtain ⟨-, bytes, hbytes, -⟩ := (keys_of_ofSecret hx a c).1 hc
        cases hb.symm.trans hbytes
      | some bytes =>
        rw [(keys_of_ofSecret hx a (Utf8.decode bytes)).2 ⟨halias, bytes, hb, rfl⟩]
        exact congrArg Except.toOption (Utf8.encode_decode bytes)
    | some e =>
      cases e with
      | update remote keyId credential =>
        have hwell := hedits _ (Edit.mem_of_lastOf hlast)
        exact congrArg Except.toOption (Utf8.encode_of_isWellFormed hwell.2)
      | delete remote => rfl

end Bytes

/-- Loading the index of a stored Secret, editing it and saving it again changes the credentials
that were edited and keeps all others byte for byte. -/
theorem data_after_save_edited [Json.Nesting] {m : SecretStore} (hm : m.IsReachable)
    {cluster : Cluster}
    {s : Secret} (hs : m.secrets.get? cluster.secretKey = some s) {w : Surroundings} {x : KeyIndex}
    (hx : (SecretStore.run (load cluster).run w m).1 = .ok x) {edits : List Edit} {y : KeyIndex}
    (hy : Edit.applyAll x edits = .ok y) (hedits : ∀ e ∈ edits, e.IsWellFormed)
    (hne : y.isEmpty = false) (attempts : Int) (w' : Surroundings) :
    let saved := SecretStore.run (y.save cluster attempts).run w'
      (SecretStore.run (load cluster).run w m).2.2
    saved.1 = .ok () ∧
      ∃ s', saved.2.2.secrets.get? cluster.secretKey = some s' ∧
        ∀ setting, s'.data.get? setting = s.entryAfter edits setting := by
  intro saved
  obtain ⟨hloaded, hsame⟩ := SecretStore.run_of_ensures
    ((ensures_load cluster m fun r m' => r = m.indexOf cluster ∧ m' = m).2 ⟨rfl, rfl⟩) w
  have hof : ofSecret s = .ok x := by
    rw [hx, SecretStore.indexOf, hs] at hloaded
    exact hloaded.symm
  have hkept : (SecretStore.run (load cluster).run w m).2.2.IsKept := by
    rw [hsame]
    exact hm.isKept
  obtain ⟨hok, hsaved⟩ := SecretStore.run_of_ensures
    (ensures_save_of_isEncodable (isNamed_of_edits (isNamed_of_ofSecret hof) hy)
      (isEncodable_of_edits hof hy hedits) cluster attempts hkept) w'
  have hstands := hsaved.stands
  rw [Stands, hne, if_neg Bool.false_ne_true] at hstands
  obtain ⟨s', hs', hholds⟩ := hstands
  refine ⟨hok, s', hs', fun setting => ?_⟩
  exact (hholds.data setting).trans (bytesAt_of_edits hof hy hedits setting)

/-- A credential that is no UTF-8, another one, and an entry that holds none. -/
def mixedSecret : Secret where
  name := "es-es-remote-api-keys"
  «namespace» := "ns"
  labels := .empty
  annotations := Table.empty.insert Naming.aliasesKey (aliasesText (.ofList [("kept", "k1")]))
  data := .ofList [("cluster.remote.kept.credentials", [0xED, 0xA0, 0x80, 0xC3]),
    ("cluster.remote.gone.credentials", [0x61]), ("stray", [0xFF])]
  owners := []
  uid := []
  version := []

theorem ofSecret_mixedSecret [Json.Nesting] (uid version : Text) :
    ∃ x, ofSecret { mixedSecret with uid := uid, version := version } = .ok x := by
  have hunpaired : ∀ a k, (Table.ofList [(("kept" : Text), ("k1" : Text))]).get? a = some k →
      a.isUnpaired = true ∧ k.isUnpaired = true := by
    intro a k h
    obtain ⟨rfl, rfl⟩ := Prod.mk.inj (List.mem_singleton.1 ((Table.mem_entries_iff _ a k).2 h))
    exact ⟨by decide, by decide⟩
  obtain ⟨found, hread, -⟩ := readAliases_aliasesText (some mixedSecret.namespacedName) hunpaired
  exact ⟨⟨found, credentials mixedSecret.data⟩,
    congrArg (Except.map fun aliases => KeyIndex.mk aliases (credentials mixedSecret.data)) hread⟩

/-- Bytes that are no UTF-8 are kept, an alias that is updated and then deleted is gone, and so is
an entry that holds no credential. -/
theorem data_after_save_edited_of_no_utf8 :
    let cluster : Cluster := ⟨"es", "ns", "uid", [], "v1", "Elasticsearch"⟩
    let m := (SecretStore.empty fun _ => "uid-1").after [.create mixedSecret]
    let loaded := SecretStore.run (load cluster).run .bare m
    let edits : List Edit := [.update "new" "k2" [.ofNat 0xE9], .update "gone" "k3" "eA==",
      .delete "gone"]
    ∃ s x y, m.IsReachable ∧ m.secrets.get? cluster.secretKey = some s ∧ loaded.1 = .ok x ∧
      Edit.applyAll x edits = .ok y ∧ (∀ e ∈ edits, e.IsWellFormed) ∧ y.isEmpty = false ∧
      (SecretStore.run (y.save cluster 3).run .bare loaded.2.2).1 = .ok () ∧
      ∃ s', (SecretStore.run (y.save cluster 3).run .bare loaded.2.2).2.2.secrets.get?
          cluster.secretKey = some s' ∧
        ∀ setting, s'.data.get? setting = s.entryAfter edits setting := by
  intro cluster m loaded edits
  have hm : m.IsReachable := ⟨_, _, rfl⟩
  obtain ⟨s, hs⟩ : ∃ s, m.secrets.get? cluster.secretKey = some s := ⟨_, rfl⟩
  obtain ⟨x, hx⟩ := ofSecret_mixedSecret "uid-1" "1"
  have hload : loaded.1 = .ok x := (run_load cluster .bare m).trans hx
  have hedits : ∀ e ∈ edits, e.IsWellFormed := by
    intro e he
    simp only [edits, List.mem_cons, List.not_mem_nil, or_false] at he
    rcases he with rfl | rfl | rfl
    · exact ⟨by decide, by decide⟩
    · exact ⟨by decide, by decide⟩
    · trivial
  obtain ⟨y, hy, hnew⟩ :
      ∃ y, Edit.applyAll x edits = .ok y ∧ y.aliases.get? "new" = some "k2" := by
    refine ⟨_, rfl, ?_⟩
    rw [get?_aliases_forget, get?_aliases_put, get?_aliases_put]
    rfl
  have hne : y.isEmpty = false := (Table.isEmpty_eq_false_iff _).2 ⟨_, _, hnew⟩
  exact ⟨s, x, y, hm, hs, hload, hy, hedits, hne,
    data_after_save_edited hm hs hload hy hedits hne 3 .bare⟩

end KeyIndex
end CrossClusterKeys
