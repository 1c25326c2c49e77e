import CrossClusterKeys.KeyIndex
import CrossClusterKeys.Proofs.JsonWriting
import CrossClusterKeys.Proofs.Merging
import CrossClusterKeys.Proofs.Utf8

/-!
# The stored form of an index

**Relation.**  A Secret holds an index when its aliases annotation is the text of the key IDs and
its data are exactly the credentials, one entry for each alias.  The relation speaks of indexes as
maps, so it does not tell indexes with the same look-ups apart.

**Results.**
* `holds_toSecret`: the Secret made of an index holds it.
* `ofSecret_of_holds`: an index whose texts are legible is read from any Secret that holds it.
* `stable_of_ofSecret`: what is read from a Secret can be stored again, byte for byte.
-/

namespace CrossClusterKeys

/-- The namespace and name under which the Secret of a cluster is stored. -/
def Cluster.secretKey (c : Cluster) : Text × Text := (c.namespace, Naming.secretName c.name)

namespace KeyIndex

/-- Two indexes with the same key IDs and keys. -/
def Alike (x y : KeyIndex) : Prop :=
  (∀ a, x.aliases.get? a = y.aliases.get? a) ∧ ∀ a, x.keys.get? a = y.keys.get? a

namespace Alike

theorem refl (x : KeyIndex) : x.Alike x := ⟨fun _ => rfl, fun _ => rfl⟩

theorem symm {x y : KeyIndex} (h : x.Alike y) : y.Alike x :=
  ⟨fun a => (h.1 a).symm, fun a => (h.2 a).symm⟩

theorem isEmpty_eq {x y : KeyIndex} (h : x.Alike y) : x.isEmpty = y.isEmpty := by
  have key : x.isEmpty = true ↔ y.isEmpty = true := by
    unfold KeyIndex.isEmpty
    rw [Table.isEmpty_iff, Table.isEmpty_iff]
    constructor
    · intro hx a
      rw [← h.1, hx]
    · intro hy a
      rw [h.1, hy]
  exact Bool.eq_iff_iff.2 key

end Alike

/-- Every credential belongs to an alias that names a data entry. -/
def IsNamed (x : KeyIndex) : Prop :=
  ∀ a c, x.keys.get? a = some c → Naming.isAlias a = true

/-- Every credential has bytes. -/
def IsEncodable (x : KeyIndex) : Prop :=
  ∀ a c, x.keys.get? a = some c → ∃ bytes, Utf8.encode c = .ok bytes

/-- Every text of the index reads back from its stored form. -/
structure IsLegible (x : KeyIndex) : Prop where
  named : x.IsNamed
  aliases : ∀ a k, x.aliases.get? a = some k → a.isUnpaired = true ∧ k.isUnpaired = true
  keys : ∀ a c bytes, x.keys.get? a = some c → Utf8.encode c = .ok bytes → Utf8.decode bytes = c

/-- The bytes that a data entry has for the index. -/
def bytesAt (x : KeyIndex) (setting : Text) : Option (List UInt8) := do
  let remote ← Naming.aliasOf? setting
  let credential ← x.keys.get? remote
  (Utf8.encode credential).toOption

/-- The Secret has the annotation and the data of the index. -/
structure Holds (x : KeyIndex) (s : Secret) : Prop where
  encodable : x.IsEncodable
  annotation : s.annotations.get? Naming.aliasesKey = some (aliasesText x.aliases)
  data : ∀ setting, s.data.get? setting = x.bytesAt setting

section Data

theorem bytesAt_eq_some {x : KeyIndex} {setting : Text} {bytes : List UInt8} :
    x.bytesAt setting = some bytes ↔
      ∃ a c, setting = Naming.settingName a ∧ Naming.isAlias a = true ∧ x.keys.get? a = some c ∧
        Utf8.encode c = .ok bytes := by
  unfold bytesAt
  simp only [Option.bind_eq_bind, Option.bind_eq_some_iff, Naming.aliasOf?_eq_some,
    toOption_eq_some_iff]
  constructor
  · rintro ⟨a, ⟨hs, ha⟩, c, hc, hb⟩
    exact ⟨a, c, hs, ha, hc, hb⟩
  · rintro ⟨a, c, hs, ha, hc, hb⟩
    exact ⟨a, ⟨hs, ha⟩, c, hc, hb⟩

theorem bytesAt_congr {x y : KeyIndex} (h : ∀ a, x.keys.get? a = y.keys.get? a) (setting : Text) :
    x.bytesAt setting = y.bytesAt setting := by
  unfold bytesAt
  simp only [h]

/-- The data entries of credentials with bytes. -/
theorem mem_of_dataOf {es : List (Text × Text)} {data : List (Text × List UInt8)}
    (h : dataOf es = .ok data) (setting : Text) (bytes : List UInt8) :
    (setting, bytes) ∈ data ↔
      ∃ a c, (a, c) ∈ es ∧ setting = Naming.settingName a ∧ Utf8.encode c = .ok bytes := by
  induction es generalizing data with
  | nil =>
    cases h
    simp
  | cons e es ih =>
    obtain ⟨a, c⟩ := e
    rw [dataOf] at h
    cases hc : Utf8.encode c with
    | error err => simp [hc] at h
    | ok bs =>
      cases hrest : dataOf es with
      | error err => simp [hc, hrest, Except.map] at h
      | ok rest =>
        simp only [hc, hrest, Except.map, Except.ok.injEq] at h
        subst h
        rw [List.mem_cons, ih hrest]
        constructor
        · rintro (he | ⟨a', c', hm, hs, hb⟩)
          · cases he
            exact ⟨a, c, List.mem_cons_self, rfl, hc⟩
          · exact ⟨a', c', List.mem_cons_of_mem _ hm, hs, hb⟩
        · rintro ⟨a', c', hm, hs, hb⟩
          rcases List.mem_cons.1 hm with he | hm
          · cases he
            rw [hc] at hb
            cases hb
            exact Or.inl (Prod.ext hs rfl)
          · exact Or.inr ⟨a', c', hm, hs, hb⟩

theorem map_fst_of_dataOf {es : List (Text × Text)} {data : List (Text × List UInt8)}
    (h : dataOf es = .ok data) :
    data.map Prod.fst = (es.map Prod.fst).map Naming.settingName := by
  induction es generalizing data with
  | nil =>
    cases h
    rfl
  | cons e es ih =>
    obtain ⟨a, c⟩ := e
    rw [dataOf] at h
    cases hc : Utf8.encode c with
    | error err => simp [hc] at h
    | ok bs =>
      cases hrest : dataOf es with
      | error err => simp [hc, hrest, Except.map] at h
      | ok rest =>
        simp only [hc, hrest, Except.map, Except.ok.injEq] at h
        subst h
        simp [ih hrest]

/-- Credentials make data entries exactly if every one of them has bytes. -/
theorem dataOf_eq_ok_iff (es : List (Text × Text)) :
    (∃ data, dataOf es = .ok data) ↔ ∀ a c, (a, c) ∈ es → ∃ bytes, Utf8.encode c = .ok bytes := by
  induction es with
  | nil => simp [dataOf]
  | cons e es ih =>
    obtain ⟨a, c⟩ := e
    rw [dataOf]
    cases hc : Utf8.encode c with
    | error err =>
      simp only [reduceCtorEq, exists_false, false_iff]
      intro h
      obtain ⟨bytes, hb⟩ := h a c List.mem_cons_self
      rw [hc] at hb
      cases hb
    | ok bs =>
      have hmap : (∃ data, (dataOf es).map ((Naming.settingName a, bs) :: ·) = .ok data) ↔
          ∃ data, dataOf es = .ok data := by
        cases dataOf es <;> simp [Except.map]
      rw [hmap, ih]
      constructor
      · intro h a' c' hm
        rcases List.mem_cons.1 hm with he | hm
        · cases he
          exact ⟨bs, hc⟩
        · exact h a' c' hm
      · intro h a' c' hm
        exact h a' c' (List.mem_cons_of_mem _ hm)

/-- The data made of an index are its credentials. -/
theorem get?_data {x : KeyIndex} (hx : x.IsNamed) {data : List (Text × List UInt8)}
    (h : dataOf x.keys.entries = .ok data) (setting : Text) :
    (Table.ofList data).get? setting = x.bytesAt setting := by
  have hnodup : (data.map Prod.fst).Nodup := by
    rw [map_fst_of_dataOf h]
    exact x.keys.nodup.map fun a b hab => Naming.settingName_injective hab
  refine Option.ext fun bytes => ?_
  rw [Table.get?_ofList_eq_some hnodup, mem_of_dataOf h, bytesAt_eq_some]
  constructor
  · rintro ⟨a, c, hm, hs, hb⟩
    have hc := (Table.mem_entries_iff _ _ _).1 hm
    exact ⟨a, c, hs, hx a c hc, hc, hb⟩
  · rintro ⟨a, c, hs, -, hc, hb⟩
    exact ⟨a, c, (Table.mem_entries_iff _ _ _).2 hc, hs, hb⟩

end Data

section Writing

theorem isEncodable_empty : empty.IsEncodable := fun _ _ h => nomatch h

theorem isEncodable_put {x : KeyIndex} (hx : x.IsEncodable) (remote keyId : Text) {c : Text}
    (hc : ∃ bytes, Utf8.encode c = .ok bytes) : (x.put remote keyId c).IsEncodable := by
  intro a c' hc'
  change (x.keys.insert remote c).get? a = some c' at hc'
  rw [Table.get?_insert] at hc'
  split at hc'
  · cases hc'
    exact hc
  · exact hx a c' hc'

theorem toSecret_eq_ok_iff (x : KeyIndex) (cluster : Cluster) :
    (∃ s, x.toSecret cluster = .ok s) ↔ x.IsEncodable := by
  have hmap : (∃ s, x.toSecret cluster = .ok s) ↔ ∃ data, dataOf x.keys.entries = .ok data := by
    unfold toSecret
    cases dataOf x.keys.entries <;> simp [Except.map]
  rw [hmap, dataOf_eq_ok_iff]
  simp only [Table.mem_entries_iff]
  exact Iff.rfl

/-- What the Secret made of an index consists of. -/
theorem parts_of_toSecret {x : KeyIndex} {cluster : Cluster} {s : Secret}
    (h : x.toSecret cluster = .ok s) :
    SecretStore.keyOf s = cluster.secretKey ∧ s.owners = [] ∧
      s.labels = Naming.withCredentialsLabel (Naming.clusterLabels cluster.name) ∧
      s.annotations = Table.empty.insert Naming.aliasesKey (aliasesText x.aliases) ∧
      ∃ data, dataOf x.keys.entries = .ok data ∧ s.data = .ofList data := by
  unfold toSecret at h
  cases hdata : dataOf x.keys.entries with
  | error e => simp [hdata, Except.map] at h
  | ok data =>
    simp only [hdata, Except.map, Except.ok.injEq] at h
    subst h
    exact ⟨rfl, rfl, rfl, rfl, data, rfl, rfl⟩

/-- The Secret made of an index is its cluster's and holds the index. -/
theorem holds_toSecret {x : KeyIndex} (hx : x.IsNamed) {cluster : Cluster} {s : Secret}
    (h : x.toSecret cluster = .ok s) :
    SecretStore.keyOf s = cluster.secretKey ∧ x.Holds s := by
  have henc := (toSecret_eq_ok_iff x cluster).1 ⟨s, h⟩
  obtain ⟨hkey, -, -, hannotations, data, hdata, hs⟩ := parts_of_toSecret h
  refine ⟨hkey, henc, ?_, fun setting => ?_⟩
  · rw [hannotations, Table.get?_insert, if_pos rfl]
  · rw [hs]
    exact get?_data hx hdata setting

theorem holds_of_carries {x : KeyIndex} {expected s : Secret} (h : x.Holds expected)
    (hs : expected.Carries s) : x.Holds s :=
  ⟨h.encodable, hs.annotations _ _ h.annotation,
    fun setting => (hs.data setting).trans (h.data setting)⟩

/-- A Secret holds every index of the same stored form. -/
theorem holds_of_form {x y : KeyIndex} (ht : aliasesText x.aliases = aliasesText y.aliases)
    (hb : ∀ setting, x.bytesAt setting = y.bytesAt setting) (henc : y.IsEncodable) {s : Secret}
    (hs : x.Holds s) : y.Holds s :=
  ⟨henc, ht ▸ hs.annotation, fun setting => (hs.data setting).trans (hb setting)⟩

/-- The annotation depends on the key IDs as a map alone. -/
theorem aliasesText_congr {aliases aliases' : KeyMap Text}
    (h : ∀ a, aliases.get? a = aliases'.get? a) : aliasesText aliases = aliasesText aliases' := by
  unfold aliasesText
  rw [KeyMap.sorted_congr h]

/-- Indexes with the same look-ups make the same Secret, up to the order of its data. -/
theorem reordered_toSecret {x y : KeyIndex} (h : x.Alike y) (hx : x.IsNamed) (hy : y.IsNamed)
    {cluster : Cluster} {s s' : Secret} (hs : x.toSecret cluster = .ok s)
    (hs' : y.toSecret cluster = .ok s') :
    s.Reordered s' := by
  unfold toSecret at hs hs'
  rcases hdata : dataOf x.keys.entries with e | data
  · rw [hdata] at hs
    cases hs
  rcases hdata' : dataOf y.keys.entries with e | data'
  · rw [hdata'] at hs'
    cases hs'
  rw [hdata] at hs
  rw [hdata'] at hs'
  cases hs
  cases hs'
  rw [← aliasesText_congr h.1]
  refine .intro (s := ⟨_, _, _, _, Table.ofList data, _, _, _⟩) fun setting => ?_
  rw [get?_data hx hdata, get?_data hy hdata', bytesAt_congr h.2]

theorem holds_congr {x y : KeyIndex} (h : x.Alike y) {s : Secret} (hs : x.Holds s) : y.Holds s :=
  holds_of_form (aliasesText_congr h.1) (bytesAt_congr h.2)
    (fun a c hc => hs.encodable a c ((h.2 a).trans hc)) hs

end Writing

section Reading

theorem keyIds_texts (resource : Option Text) (es : List (Text × Text)) :
    keyIds resource (es.map fun e => (e.1, Json.text e.2)) = .ok es := by
  induction es with
  | nil => rfl
  | cons e es ih =>
    obtain ⟨a, k⟩ := e
    rw [List.map_cons, keyIds, ih]
    rfl

theorem areLegibleMembers_texts (depth : Nat) {es : List (Text × Text)}
    (h : ∀ e ∈ es, e.1.isUnpaired = true ∧ e.2.isUnpaired = true) :
    Json.AreLegibleMembers depth (es.map fun e => (e.1, Json.text e.2)) := by
  induction es with
  | nil =>
    rw [List.map_nil, Json.AreLegibleMembers]
    trivial
  | cons e es ih =>
    obtain ⟨hk, ht⟩ := h e List.mem_cons_self
    rw [List.map_cons, Json.AreLegibleMembers]
    refine ⟨hk, ?_, ih fun e' he' => h e' (List.mem_cons_of_mem _ he')⟩
    rw [Json.IsLegible]
    exact ht

/-- Unpaired key IDs are read back from the annotation made of them. -/
theorem readAliases_aliasesText [Json.Nesting] (resource : Option Text) {aliases : KeyMap Text}
    (h : ∀ a k, aliases.get? a = some k → a.isUnpaired = true ∧ k.isUnpaired = true) :
    ∃ found, readAliases resource (aliasesText aliases) = .ok found ∧
      ∀ a, found.get? a = aliases.get? a := by
  have hmembers : ∀ e ∈ aliases.sorted, e.1.isUnpaired = true ∧ e.2.isUnpaired = true := by
    rintro ⟨a, k⟩ he
    exact h a k ((KeyMap.mem_sorted_iff aliases a k).1 he)
  have hkeys : ((aliases.sorted.map fun e => (e.1, Json.text e.2)).map Prod.fst).Nodup := by
    rw [List.map_map]
    exact KeyMap.nodup_sorted aliases
  have hlegible : Json.IsLegible Json.Nesting.levels
      (.object (aliases.sorted.map fun e => (e.1, Json.text e.2))) := by
    obtain ⟨depth, hdepth⟩ := Nat.exists_eq_add_one.2 Json.Nesting.positive
    rw [hdepth, Json.IsLegible]
    exact ⟨hkeys, areLegibleMembers_texts _ hmembers⟩
  have hread := Json.read_write Json.isReadable_compact hlegible
  refine ⟨Table.ofList aliases.sorted, ?_, fun a => ?_⟩
  · unfold readAliases aliasesText
    rw [hread]
    simp only [keyIds_texts, Except.map]
  · rw [Table.get?_ofList (KeyMap.nodup_sorted aliases), KeyMap.find_sorted]

theorem get?_credentials_eq_some (data : KeyMap (List UInt8)) (a c : Text) :
    (credentials data).get? a = some c ↔
      Naming.isAlias a = true ∧
        ∃ bytes, data.get? (Naming.settingName a) = some bytes ∧ c = Utf8.decode bytes := by
  have hnodup := Table.nodup_filterMap Naming.aliasOf? Utf8.decode Naming.settingName
    (fun _ _ h => (Naming.aliasOf?_eq_some.1 h).1) data.nodup
  unfold credentials
  rw [Table.get?_ofList_eq_some hnodup, List.mem_filterMap]
  constructor
  · rintro ⟨⟨setting, bytes⟩, hm, he⟩
    obtain ⟨a', ha, he⟩ := Option.map_eq_some_iff.1 he
    cases he
    obtain ⟨rfl, hname⟩ := Naming.aliasOf?_eq_some.1 ha
    exact ⟨hname, bytes, (Table.mem_entries_iff _ _ _).1 hm, rfl⟩
  · rintro ⟨hname, bytes, hb, rfl⟩
    refine ⟨(Naming.settingName a, bytes), (Table.mem_entries_iff _ _ _).2 hb, ?_⟩
    rw [Naming.aliasOf?_settingName hname]
    rfl

variable [Json.Nesting]

/-- What is read from a Secret: its credentials under their aliases. -/
theorem keys_of_ofSecret {s : Secret} {x : KeyIndex} (h : ofSecret s = .ok x) (a c : Text) :
    x.keys.get? a = some c ↔
      Naming.isAlias a = true ∧
        ∃ bytes, s.data.get? (Naming.settingName a) = some bytes ∧ c = Utf8.decode bytes := by
  have hkeys : x.keys = credentials s.data := by
    unfold ofSecret at h
    split at h
    · next raw _ =>
      cases hr : readAliases (some s.namespacedName) raw with
      | error e => simp [hr, Except.map] at h
      | ok aliases =>
        simp only [hr, Except.map, Except.ok.injEq] at h
        rw [← h]
    · simp only [Except.map, Except.ok.injEq] at h
      rw [← h]
  rw [hkeys, get?_credentials_eq_some]

theorem isNamed_of_ofSecret {s : Secret} {x : KeyIndex} (h : ofSecret s = .ok x) : x.IsNamed := by
  intro a c hc
  exact ((keys_of_ofSecret h a c).1 hc).1

/-- A credential that was read is stored again byte for byte. -/
theorem stable_of_ofSecret {s : Secret} {x : KeyIndex} (h : ofSecret s = .ok x) {a c : Text}
    (hc : x.keys.get? a = some c) :
    ∃ bytes, s.data.get? (Naming.settingName a) = some bytes ∧ Utf8.encode c = .ok bytes ∧
      Utf8.decode bytes = c := by
  obtain ⟨-, bytes, hb, rfl⟩ := (keys_of_ofSecret h a c).1 hc
  exact ⟨bytes, hb, Utf8.encode_decode bytes, rfl⟩

theorem isEncodable_of_ofSecret {s : Secret} {x : KeyIndex} (h : ofSecret s = .ok x) :
    x.IsEncodable := by
  intro a c hc
  obtain ⟨bytes, -, hb, -⟩ := stable_of_ofSecret h hc
  exact ⟨bytes, hb⟩

/-- An index whose texts are legible is read from any Secret that holds it. -/
theorem ofSecret_of_holds {x : KeyIndex} (hx : x.IsLegible) {s : Secret} (h : x.Holds s) :
    ∃ y, ofSecret s = .ok y ∧ y.Alike x := by
  obtain ⟨found, hread, hfound⟩ := readAliases_aliasesText (some s.namespacedName) hx.aliases
  have hof : ofSecret s = .ok ⟨found, credentials s.data⟩ := by
    unfold ofSecret
    rw [h.annotation]
    simp only [hread, Except.map]
  refine ⟨_, hof, hfound, fun a => Option.ext fun c => ?_⟩
  rw [keys_of_ofSecret hof a c]
  constructor
  · rintro ⟨hname, bytes, hb, rfl⟩
    rw [h.data, bytesAt_eq_some] at hb
    obtain ⟨a', c, hs, -, hc, hb⟩ := hb
    obtain rfl := Naming.settingName_injective hs
    rw [hx.keys _ _ _ hc hb]
    exact hc
  · intro hc
    obtain ⟨bytes, hb⟩ := h.encodable a c hc
    have hdata : s.data.get? (Naming.settingName a) = some bytes := by
      rw [h.data, bytesAt_eq_some]
      exact ⟨a, c, rfl, hx.named a c hc, hc, hb⟩
    exact ⟨hx.named a c hc, bytes, hdata, (hx.keys a c bytes hc hb).symm⟩

end Reading

end KeyIndex
end CrossClusterKeys
