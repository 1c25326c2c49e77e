import CrossClusterKeys.Proofs.Lockstep
import CrossClusterKeys.Proofs.PassOutcome

/-!
# Inputs that differ in credentials only

A renaming puts another text in place of every credential.  Secrets, indexes, expected keys and
stores correspond to each other if they are the same but for renamed credentials.

**Input.**  A renaming of texts without surrogates: different credentials stay different, and the
empty one stays empty.

**Shape.**  What decides anything is whether two credentials are equal, and a renaming does not
change that.  So each test on the one side comes out as on the other, and each result corresponds.

**Results.**
* `agree_ofSecret`, `agree_toSecret`: Secrets that correspond hold indexes that do, and back.
* `outdated_eq`: a Secret is outdated exactly if its counterpart is.
* `agree_apply`: a pass refuses both sides alike, or adds, rotates and removes the same aliases.
* `answers_step`: stores that correspond answer calls that do alike, and correspond afterwards.
-/

namespace CrossClusterKeys

/-- A renaming of credentials. -/
structure Renaming where
  map : Text → Text
  isWellFormed : ∀ t, t.isWellFormed = true → (map t).isWellFormed = true
  injective : ∀ t u, t.isWellFormed = true → u.isWellFormed = true → map t = map u → t = u
  empty : map [] = []

namespace Renaming

/-- The renaming that exchanges two credentials. -/
def exchange (t u : Text) (ht : t.isWellFormed = true ∧ t ≠ [])
    (hu : u.isWellFormed = true ∧ u ≠ []) : Renaming where
  map x := if x = t then u else if x = u then t else x
  isWellFormed x hx := by
    split
    · exact hu.1
    · split
      · exact ht.1
      · exact hx
  injective x y _ _ h := by
    grind
  empty := by
    rw [if_neg ht.2.symm, if_neg hu.2.symm]

variable (ρ : Renaming)

section Definitions

/-- The bytes of a data entry are the same, or those of a credential and of its image. -/
inductive Values (setting : Text) : List UInt8 → List UInt8 → Prop
  | other {v} (h : Naming.aliasOf? setting = none) : Values setting v v
  | credential {remote c v v'} (h : Naming.aliasOf? setting = some remote)
      (hc : c.isWellFormed = true) (hv : Utf8.encode c = .ok v)
      (hv' : Utf8.encode (ρ.map c) = .ok v') : Values setting v v'

/-- The entries have the same names in the same order. -/
def Entries (es es' : List (Text × List UInt8)) : Prop :=
  List.Forall₂ (fun e e' => e'.1 = e.1 ∧ ρ.Values e.1 e.2 e'.2) es es'

/-- The Secrets are the same but for the credentials in their data. -/
inductive Secrets : Secret → Secret → Prop
  | intro {s : Secret} {data : KeyMap (List UInt8)} (h : ρ.Entries s.data.entries data.entries) :
      Secrets s { s with data := data }

/-- The Secrets of a namespace and name are the same but for the credentials in their data. -/
def SecretsAt (key : Text × Text) (s s' : Secret) : Prop :=
  SecretStore.keyOf s = key ∧ ρ.Secrets s s'

/-- The stores differ at most in the credentials of the Secret of a namespace and name, and in
other Secrets. -/
structure Stores (key : Text × Text) (m m' : SecretStore) : Prop where
  stored : Option.Rel (ρ.SecretsAt key) (m.secrets.get? key) (m'.secrets.get? key)
  versions : m'.versions = m.versions
  uids : m'.uids = m.uids
  drawn : m'.drawn = m.drawn

/-- The index with its credentials renamed. -/
def index (x : KeyIndex) : KeyIndex := ⟨x.aliases, x.keys.map ρ.map⟩

/-- The indexes are the same but for the credentials, which are texts without surrogates. -/
structure Indexes (x x' : KeyIndex) : Prop where
  eq : x' = ρ.index x
  named : x.IsNamed
  isWellFormed : ∀ a c, x.keys.get? a = some c → c.isWellFormed = true

/-- The key with its secret part renamed. -/
def key (k : IssuedKey) : IssuedKey := { k with encoded := ρ.map k.encoded }

/-- The reports are the same but for the credentials in the index. -/
structure Reports (r r' : Pass.Report) : Prop where
  index : ρ.Indexes r.index r'.index
  added : r'.added = r.added
  rotated : r'.rotated = r.rotated
  removed : r'.removed = r.removed

end Definitions

section Values

variable {ρ} {setting : Text} {v v' w w' : List UInt8}

theorem map_eq_iff {t u : Text} (ht : t.isWellFormed = true) (hu : u.isWellFormed = true) :
    ρ.map t = ρ.map u ↔ t = u :=
  ⟨ρ.injective t u ht hu, congrArg ρ.map⟩

theorem encode_eq_iff {t u : Text} (ht : t.isWellFormed = true) (hu : u.isWellFormed = true)
    (hv : Utf8.encode t = .ok v) (hw : Utf8.encode u = .ok w) : v = w ↔ t = u := by
  constructor
  · rintro rfl
    rw [← Utf8.decode_of_encode ht hv, Utf8.decode_of_encode hu hw]
  · rintro rfl
    rw [hv] at hw
    exact Except.ok.inj hw

/-- A renaming keeps which entries are equal. -/
theorem Values.eq_iff (h : ρ.Values setting v v') (h' : ρ.Values setting w w') :
    v = w ↔ v' = w' := by
  cases h with
  | other hnone =>
    cases h' with
    | other => exact Iff.rfl
    | credential hsome => simp [hnone] at hsome
  | @credential _ t _ _ hsome ht hv hv' =>
    cases h' with
    | other hnone => simp [hnone] at hsome
    | @credential _ u _ _ _ hu hw hw' =>
      rw [encode_eq_iff ht hu hv hw, ← map_eq_iff ht hu]
      exact (encode_eq_iff (ρ.isWellFormed t ht) (ρ.isWellFormed u hu) hv' hw').symm

variable {es es' ds ds' : List (Text × List UInt8)}

theorem Entries.keys (h : ρ.Entries es es') : es'.map Prod.fst = es.map Prod.fst := by
  induction h with
  | nil => rfl
  | cons he _ ih => rw [List.map_cons, List.map_cons, he.1, ih]

theorem Entries.find (h : ρ.Entries es es') (setting : Text) :
    Option.Rel (ρ.Values setting) (Table.find setting es) (Table.find setting es') := by
  induction h with
  | nil => exact .none
  | @cons e e' _ _ he _ ih =>
    obtain ⟨k, v⟩ := e
    obtain ⟨k', v'⟩ := e'
    obtain ⟨rfl, hv⟩ := he
    by_cases hk : k' = setting
    · subst hk
      simp only [Table.find, if_true]
      exact .some hv
    · simp only [Table.find, if_neg hk]
      exact ih

theorem eq_iff_of_rel {a a' b b' : Option (List UInt8)} (h : Option.Rel (ρ.Values setting) a a')
    (h' : Option.Rel (ρ.Values setting) b b') : a = b ↔ a' = b' := by
  cases h with
  | none => cases h' <;> simp
  | some hv =>
    cases h' with
    | none => simp
    | some hw => simp [hv.eq_iff hw]

end Values

section Secrets

variable {ρ} {s s' t t' : Secret} {secretKey : Text × Text}

theorem SecretsAt.uid_eq (h : ρ.SecretsAt secretKey s s') : s'.uid = s.uid := by
  obtain ⟨-, ⟨-⟩⟩ := h
  rfl

theorem SecretsAt.version_eq (h : ρ.SecretsAt secretKey s s') : s'.version = s.version := by
  obtain ⟨-, ⟨-⟩⟩ := h
  rfl

theorem SecretsAt.keyOf_eq (h : ρ.SecretsAt secretKey s s') :
    SecretStore.keyOf s = secretKey ∧ SecretStore.keyOf s' = secretKey := by
  obtain ⟨hkey, ⟨-⟩⟩ := h
  exact ⟨hkey, hkey⟩

theorem SecretsAt.namespacedName_eq (h : ρ.SecretsAt secretKey s s') :
    s'.namespacedName = s.namespacedName := by
  obtain ⟨-, ⟨-⟩⟩ := h
  rfl

/-- A Secret is outdated exactly if its counterpart is. -/
theorem outdated_eq (hs : ρ.Secrets s s') (ht : ρ.Secrets t t') :
    s'.outdated t' = s.outdated t := by
  obtain ⟨hs⟩ := hs
  obtain ⟨ht⟩ := ht
  have hdata : ∀ d e : KeyMap (List UInt8), ρ.Entries s.data.entries d.entries →
      ρ.Entries t.data.entries e.entries → d.sameAs e = s.data.sameAs t.data := by
    intro d e hd he
    rw [Bool.eq_iff_iff, Table.sameAs_iff, Table.sameAs_iff]
    exact forall_congr' fun setting => (eq_iff_of_rel (hd.find setting) (he.find setting)).symm
  unfold Secret.outdated
  rw [hdata _ _ hs ht]

theorem SecretsAt.overlay (hs : ρ.SecretsAt secretKey s s') (ht : ρ.SecretsAt secretKey t t') :
    ρ.SecretsAt secretKey (s.overlay t) (s'.overlay t') := by
  obtain ⟨-, ⟨hs⟩⟩ := hs
  obtain ⟨hkey, ⟨-⟩⟩ := ht
  exact ⟨hkey, .intro (s := s.overlay t) hs⟩

theorem SecretsAt.desired (hs : ρ.SecretsAt secretKey s s') (owner : Option OwnerReference) :
    ρ.SecretsAt secretKey (s.desired owner) (s'.desired owner) := by
  obtain ⟨hkey, ⟨hs⟩⟩ := hs
  exact ⟨hkey, .intro (s := s.desired owner) hs⟩

end Secrets

section Indexes

variable {ρ} {x x' : KeyIndex}

theorem filterMap_entries {es es' : List (Text × List UInt8)} (h : ρ.Entries es es') :
    (es'.filterMap fun e => (Naming.aliasOf? e.1).map fun remote => (remote, Utf8.decode e.2)) =
      (es.filterMap fun e => (Naming.aliasOf? e.1).map fun remote =>
        (remote, Utf8.decode e.2)).map fun e => (e.1, ρ.map e.2) := by
  induction h with
  | nil => rfl
  | @cons e e' es es' he _ ih =>
    obtain ⟨setting, v⟩ := e
    obtain ⟨setting', v'⟩ := e'
    obtain ⟨rfl, hv⟩ := he
    cases hv with
    | other hnone =>
      simp only [List.filterMap_cons, hnone, Option.map_none]
      exact ih
    | @credential remote c _ _ hsome hc hv hv' =>
      simp only [List.filterMap_cons, hsome, Option.map_some, List.map_cons, ih]
      rw [Utf8.decode_of_encode hc hv, Utf8.decode_of_encode (ρ.isWellFormed c hc) hv']

theorem credentials_eq {data data' : KeyMap (List UInt8)}
    (h : ρ.Entries data.entries data'.entries) :
    KeyIndex.credentials data' = (KeyIndex.credentials data).map ρ.map := by
  unfold KeyIndex.credentials
  rw [Table.map_ofList, filterMap_entries h]

theorem isWellFormed_credentials {data data' : KeyMap (List UInt8)}
    (h : ρ.Entries data.entries data'.entries) {a c : Text}
    (hc : (KeyIndex.credentials data).get? a = some c) : c.isWellFormed = true := by
  obtain ⟨ha, bytes, hbytes, rfl⟩ := (KeyIndex.get?_credentials_eq_some data a c).1 hc
  have halias := Naming.aliasOf?_eq_some.2 ⟨rfl, ha⟩
  have hrel := h.find (Naming.settingName a)
  rw [show Table.find (Naming.settingName a) data.entries = some bytes from hbytes] at hrel
  generalize Table.find (Naming.settingName a) data'.entries = found at hrel
  cases hrel with
  | some hvalue =>
    cases hvalue with
    | other hnone => simp [hnone] at halias
    | credential _ ht hv _ =>
      rw [Utf8.decode_of_encode ht hv]
      exact ht

/-- Secrets that correspond hold indexes that do, or are refused alike. -/
theorem agree_ofSecret [Json.Nesting] {s s' : Secret} (h : ρ.Secrets s s') :
    Agree ρ.Indexes (KeyIndex.ofSecret s) (KeyIndex.ofSecret s') := by
  obtain ⟨h⟩ := h
  refine Agree.map (Agree.refl _) fun aliases aliases' haliases => ?_
  subst haliases
  refine ⟨congrArg (KeyIndex.mk aliases) (credentials_eq h), ?_, fun a c hc => ?_⟩
  · exact fun a c hc => ((KeyIndex.get?_credentials_eq_some _ a c).1 hc).1
  · exact isWellFormed_credentials h hc

theorem indexes_empty : ρ.Indexes .empty .empty where
  eq := rfl
  named _ _ hc := nomatch hc
  isWellFormed _ _ hc := nomatch hc

theorem entries_dataOf {es : List (Text × Text)}
    (h : ∀ e ∈ es, Naming.isAlias e.1 = true ∧ e.2.isWellFormed = true) :
    ∃ data data', KeyIndex.dataOf es = .ok data ∧
      KeyIndex.dataOf (es.map fun e => (e.1, ρ.map e.2)) = .ok data' ∧ ρ.Entries data data' := by
  induction es with
  | nil => exact ⟨[], [], rfl, rfl, .nil⟩
  | cons e es ih =>
    obtain ⟨a, c⟩ := e
    obtain ⟨⟨ha, hc⟩, hrest⟩ := List.forall_mem_cons.1 h
    obtain ⟨data, data', hdata, hdata', hentries⟩ := ih hrest
    have hv := Utf8.encode_of_isWellFormed hc
    have hv' := Utf8.encode_of_isWellFormed (ρ.isWellFormed c hc)
    have halias := Naming.aliasOf?_eq_some.2 ⟨rfl, ha⟩
    refine ⟨(Naming.settingName a, c.flatMap Utf8.bytesOf) :: data,
      (Naming.settingName a, (ρ.map c).flatMap Utf8.bytesOf) :: data', ?_, ?_,
      .cons ⟨rfl, .credential halias hc hv hv'⟩ hentries⟩
    · rw [KeyIndex.dataOf, hv, hdata]
      rfl
    · rw [List.map_cons, KeyIndex.dataOf, hv', hdata']
      rfl

/-- Indexes that correspond are stored as Secrets that do. -/
theorem agree_toSecret (h : ρ.Indexes x x') (cluster : Cluster) :
    Agree (ρ.SecretsAt cluster.secretKey) (x.toSecret cluster) (x'.toSecret cluster) := by
  have hes : ∀ e ∈ x.keys.entries, Naming.isAlias e.1 = true ∧ e.2.isWellFormed = true := by
    rintro ⟨a, c⟩ he
    have hc := (Table.mem_entries_iff x.keys a c).1 he
    exact ⟨h.named a c hc, h.isWellFormed a c hc⟩
  obtain ⟨data, data', hdata, hdata', hentries⟩ := entries_dataOf (ρ := ρ) hes
  have hnodup : (data.map Prod.fst).Nodup := by
    rw [KeyIndex.map_fst_of_dataOf hdata]
    exact x.keys.nodup.map fun a b hab => Naming.settingName_injective hab
  have hnodup' : (data'.map Prod.fst).Nodup := by
    rw [hentries.keys]
    exact hnodup
  have htables : ρ.Entries (Table.ofList data).entries (Table.ofList data').entries := by
    rw [Table.entries_ofList hnodup, Table.entries_ofList hnodup']
    exact hentries
  rw [h.eq]
  unfold KeyIndex.toSecret
  rw [hdata, show KeyIndex.dataOf (ρ.index x).keys.entries = .ok data' from hdata']
  exact .ok ⟨rfl, .intro htables⟩

section Edits

variable (h : ρ.Indexes x x')

include h

theorem Indexes.aliases_eq : x'.aliases = x.aliases := by
  rw [h.eq]
  rfl

theorem Indexes.credentialFor (a : Text) :
    x'.credentialFor a = ρ.map (x.credentialFor a) ∧ (x.credentialFor a).isWellFormed = true := by
  rw [h.eq]
  unfold KeyIndex.credentialFor
  rw [show (ρ.index x).keys.get? a = _ from Table.get?_map ρ.map x.keys a]
  cases hc : x.keys.get? a with
  | none => exact ⟨ρ.empty.symm, rfl⟩
  | some c => exact ⟨rfl, h.isWellFormed a c hc⟩

theorem Indexes.put {a : Text} (keyId : Text) {c : Text} (ha : Naming.isAlias a = true)
    (hc : c.isWellFormed = true) :
    ρ.Indexes (x.put a keyId c) (x'.put a keyId (ρ.map c)) := by
  refine Indexes.mk ?_ (KeyIndex.isNamed_put h.named ha keyId c) fun b d hd => ?_
  · rw [h.eq]
    exact congrArg (KeyIndex.mk _) (Table.map_insert ρ.map x.keys a c).symm
  · rw [KeyIndex.get?_keys_put] at hd
    split at hd
    · cases hd
      exact hc
    · exact h.isWellFormed b d hd

theorem Indexes.forget (a : Text) : ρ.Indexes (x.forget a) (x'.forget a) := by
  refine Indexes.mk ?_ (KeyIndex.isNamed_forget h.named a) fun b d hd => ?_
  · rw [h.eq]
    exact congrArg (KeyIndex.mk _) (Table.map_erase ρ.map x.keys a).symm
  · rw [KeyIndex.get?_keys_forget] at hd
    split at hd
    · cases hd
    · exact h.isWellFormed b d hd

theorem agree_record (a keyId : Text) {c : Text} (hc : c.isWellFormed = true) :
    Agree ρ.Indexes (x.record a keyId c) (x'.record a keyId (ρ.map c)) := by
  unfold KeyIndex.record KeyIndex.aliasOf
  by_cases ha : Naming.isAlias a = true
  · simp only [ha, if_true]
    exact .ok (h.put keyId ha hc)
  · simp only [if_neg ha]
    exact .error _

end Edits

end Indexes

section Passes

variable {ρ} {x x' : KeyIndex} {r r' : Pass.Report}

/-- A key differs from what is recorded exactly if its counterpart does. -/
theorem isStale_eq (h : ρ.Indexes x x') {k : IssuedKey} (hk : k.encoded.isWellFormed = true) :
    Pass.isStale x' (ρ.key k) = Pass.isStale x k := by
  obtain ⟨hcredential, hwell⟩ := h.credentialFor k.remote
  have hiff := map_eq_iff (ρ := ρ) hwell hk
  unfold Pass.isStale KeyIndex.keyIdFor
  rw [h.aliases_eq, show x'.credentialFor (ρ.key k).remote = _ from hcredential]
  exact congrArg (_ || ·) (decide_eq_decide.2 (not_congr hiff))

theorem agree_recordAll {ks : List IssuedKey} (h : ρ.Reports r r')
    (hks : ∀ k ∈ ks, k.encoded.isWellFormed = true) :
    Agree ρ.Reports (Pass.recordAll r ks) (Pass.recordAll r' (ks.map ρ.key)) := by
  induction ks generalizing r r' with
  | nil => exact .ok h
  | cons k ks ih =>
    obtain ⟨hk, hrest⟩ := List.forall_mem_cons.1 hks
    have hcontains : r'.index.contains (ρ.key k).remote = r.index.contains k.remote := by
      unfold KeyIndex.contains
      rw [h.index.aliases_eq]
      rfl
    have hrecord := agree_record h.index k.remote k.keyId hk
    rw [List.map_cons, Pass.recordAll, Pass.recordAll, hcontains, isStale_eq h.index hk]
    split
    · refine Agree.bind hrecord fun y y' hy => ih ?_ hrest
      exact ⟨hy, congrArg (· ++ _) h.added, h.rotated, h.removed⟩
    · split
      · refine Agree.bind hrecord fun y y' hy => ih ?_ hrest
        exact ⟨hy, h.added, congrArg (· ++ _) h.rotated, h.removed⟩
      · exact ih h hrest

theorem wanted_map (expected : List IssuedKey) :
    Pass.wanted (expected.map ρ.key) = (Pass.wanted expected).map ρ.key := by
  unfold Pass.wanted
  rw [Table.map_ofList, List.map_map, List.map_map]
  rfl

theorem indexes_forgetAll (h : ρ.Indexes x x') (aliases : List Text) :
    ρ.Indexes (Pass.forgetAll x aliases) (Pass.forgetAll x' aliases) := by
  unfold Pass.forgetAll
  induction aliases generalizing x x' with
  | nil => exact h
  | cons a aliases ih => exact ih (h.forget a)

/-- A pass refuses both sides alike, or adds, rotates and removes the same aliases. -/
theorem agree_apply (h : ρ.Indexes x x') {expected : List IssuedKey}
    (hexpected : ∀ k ∈ expected, k.encoded.isWellFormed = true) :
    Agree ρ.Reports (Pass.apply x expected) (Pass.apply x' (expected.map ρ.key)) := by
  have hunwanted : Pass.unwanted x' (Pass.wanted (expected.map ρ.key)) =
      Pass.unwanted x (Pass.wanted expected) := by
    unfold Pass.unwanted
    rw [h.aliases_eq, wanted_map]
    simp only [Table.contains_map]
  have hkeys : (Pass.wanted (expected.map ρ.key)).sorted.map Prod.snd =
      ((Pass.wanted expected).sorted.map Prod.snd).map ρ.key := by
    rw [wanted_map, KeyMap.sorted_map, List.map_map, List.map_map]
    rfl
  dsimp only [Pass.apply]
  rw [hunwanted, hkeys]
  refine agree_recordAll ⟨indexes_forgetAll h _, rfl, rfl, rfl⟩ fun k hk => ?_
  exact hexpected k (Pass.mem_of_expectedFor expected ((Pass.mem_sorted_wanted expected k).1 hk))

end Passes

section Answers

/-- Which calls for the Secret of a namespace and name correspond to each other. -/
inductive Calls (secretKey : Text × Text) : StoreCall → StoreCall → Prop
  | get : Calls secretKey (.get secretKey.1 secretKey.2) (.get secretKey.1 secretKey.2)
  | create {s s'} (h : ρ.SecretsAt secretKey s s') : Calls secretKey (.create s) (.create s')
  | update {s s'} (h : ρ.SecretsAt secretKey s s') : Calls secretKey (.update s) (.update s')
  | delete (uid : Option Text) :
      Calls secretKey (.delete secretKey.1 secretKey.2 uid) (.delete secretKey.1 secretKey.2 uid)
  | close : Calls secretKey .close .close

/-- Which answers correspond to each other. -/
def Answers (secretKey : Text × Text) : (c c' : StoreCall) → c.Answer → c'.Answer → Prop
  | .get .., .get .., a, a' => Agree (ε := Raised) (ρ.SecretsAt secretKey) a a'
  | .create _, .create _, a, a' => Agree (ε := Raised) (ρ.SecretsAt secretKey) a a'
  | .update _, .update _, a, a' => Agree (ε := Raised) (ρ.SecretsAt secretKey) a a'
  | .delete .., .delete .., a, a' => Agree (ε := Raised) (α := Unit) Eq a a'
  | .close, .close, a, a' => Agree (ε := Raised) (α := Unit) Eq a a'
  | _, _, _, _ => False

/-- Calls and answers for the Secret of a namespace and name. -/
def coupling (secretKey : Text × Text) : Coupling Store where
  calls := ρ.Calls secretKey
  answers {c c'} := ρ.Answers secretKey c c'

variable {ρ} {secretKey : Text × Text} {m m' : SecretStore} (h : ρ.Stores secretKey m m')

include h

theorem Stores.cases :
    (m.secrets.get? secretKey = none ∧ m'.secrets.get? secretKey = none) ∨
      ∃ s s', m.secrets.get? secretKey = some s ∧ m'.secrets.get? secretKey = some s' ∧
        ρ.SecretsAt secretKey s s' := by
  have hstored := h.stored
  generalize m.secrets.get? secretKey = found at hstored
  generalize m'.secrets.get? secretKey = found' at hstored
  cases hstored with
  | none => exact Or.inl ⟨rfl, rfl⟩
  | some hs => exact Or.inr ⟨_, _, rfl, rfl, hs⟩

/-- Putting Secrets that correspond in their place keeps the correspondence. -/
theorem Stores.insert {s s' : Secret} (hs : ρ.SecretsAt secretKey s s') (versions drawn : Nat) :
    ρ.Stores secretKey ⟨m.secrets.insert secretKey s, versions, m.uids, drawn⟩
      ⟨m'.secrets.insert secretKey s', versions, m'.uids, drawn⟩ := by
  refine ⟨?_, rfl, h.uids, rfl⟩
  rw [Table.get?_insert, Table.get?_insert, if_pos rfl, if_pos rfl]
  exact .some hs

theorem Stores.nextVersion : m'.nextVersion = m.nextVersion := by
  unfold SecretStore.nextVersion
  rw [h.versions]

theorem Stores.nextUid : m'.nextUid = m.nextUid := by
  unfold SecretStore.nextUid
  rw [h.uids, h.drawn]

theorem answers_get :
    Agree (ρ.SecretsAt secretKey) (m.get secretKey.1 secretKey.2)
      (m'.get secretKey.1 secretKey.2) := by
  obtain ⟨ns, name⟩ := secretKey
  unfold SecretStore.get
  rcases h.cases with ⟨hs, hs'⟩ | ⟨s, s', hs, hs', hrel⟩
  · rw [hs, hs']
    exact .error _
  · rw [hs, hs']
    exact .ok hrel

theorem answers_create {s s' : Secret} (hs : ρ.SecretsAt secretKey s s') :
    Agree (ρ.SecretsAt secretKey) (m.create s).1 (m'.create s').1 ∧
      ρ.Stores secretKey (m.create s).2 (m'.create s').2 := by
  have hborn : ρ.SecretsAt secretKey (m.newborn s) (m'.newborn s') := by
    unfold SecretStore.newborn
    rw [h.nextUid, h.nextVersion]
    obtain ⟨hkey, ⟨hs⟩⟩ := hs
    exact ⟨hkey, .intro (s := m.newborn s) hs⟩
  unfold SecretStore.create
  rw [hs.keyOf_eq.1, hs.keyOf_eq.2, hs.namespacedName_eq]
  rcases h.cases with ⟨hfound, hfound'⟩ | ⟨t, t', hfound, hfound', -⟩
  · rw [hfound, hfound', h.versions, h.drawn]
    exact ⟨.ok hborn, h.insert hborn _ _⟩
  · rw [hfound, hfound']
    exact ⟨.error _, h⟩

theorem answers_update {s s' : Secret} (hs : ρ.SecretsAt secretKey s s') :
    Agree (ρ.SecretsAt secretKey) (m.update s).1 (m'.update s').1 ∧
      ρ.Stores secretKey (m.update s).2 (m'.update s').2 := by
  unfold SecretStore.update
  rw [hs.keyOf_eq.1, hs.keyOf_eq.2, hs.namespacedName_eq]
  rcases h.cases with ⟨hfound, hfound'⟩ | ⟨t, t', hfound, hfound', ht⟩
  · rw [hfound, hfound']
    exact ⟨.error _, h⟩
  · have hnext : ρ.SecretsAt secretKey (m.successor t s) (m'.successor t' s') := by
      unfold SecretStore.successor
      rw [ht.uid_eq, h.nextVersion]
      obtain ⟨hkey, ⟨hs⟩⟩ := hs
      exact ⟨hkey, .intro (s := m.successor t s) hs⟩
    have hcurrent : SecretStore.isCurrent t' s' = SecretStore.isCurrent t s := by
      unfold SecretStore.isCurrent
      rw [ht.version_eq, hs.version_eq]
    rw [hfound, hfound']
    dsimp only
    rw [hcurrent, hs.version_eq, ht.version_eq, h.versions, h.drawn]
    split
    · exact ⟨.ok hnext, h.insert hnext _ _⟩
    · exact ⟨.error _, h⟩

theorem answers_delete (uid : Option Text) :
    Agree Eq (m.delete secretKey.1 secretKey.2 uid).1 (m'.delete secretKey.1 secretKey.2 uid).1 ∧
      ρ.Stores secretKey (m.delete secretKey.1 secretKey.2 uid).2
        (m'.delete secretKey.1 secretKey.2 uid).2 := by
  obtain ⟨ns, name⟩ := secretKey
  have herase : ρ.Stores (ns, name) { m with secrets := m.secrets.erase (ns, name) }
      { m' with secrets := m'.secrets.erase (ns, name) } := by
    refine ⟨?_, h.versions, h.uids, h.drawn⟩
    rw [Table.get?_erase, Table.get?_erase, if_pos rfl, if_pos rfl]
    exact .none
  unfold SecretStore.delete
  rcases h.cases with ⟨hfound, hfound'⟩ | ⟨t, t', hfound, hfound', ht⟩
  · rw [hfound, hfound']
    exact ⟨.error _, h⟩
  · rw [hfound, hfound']
    cases uid with
    | none => exact ⟨.ok rfl, herase⟩
    | some u =>
      dsimp only
      rw [ht.uid_eq]
      split
      · exact ⟨.ok rfl, herase⟩
      · exact ⟨.error _, h⟩

/-- Stores that correspond answer calls that do alike, and correspond afterwards. -/
theorem answers_step {c c' : StoreCall} (hc : ρ.Calls secretKey c c') :
    ρ.Answers secretKey c c' (SecretStore.answer c m).1 (SecretStore.answer c' m').1 ∧
      ρ.Stores secretKey (SecretStore.answer c m).2 (SecretStore.answer c' m').2 := by
  cases hc with
  | get => exact ⟨answers_get h, h⟩
  | create hs => exact answers_create h hs
  | update hs => exact answers_update h hs
  | delete uid => exact answers_delete h uid
  | close => exact ⟨.ok rfl, h⟩

end Answers

end Renaming
end CrossClusterKeys
