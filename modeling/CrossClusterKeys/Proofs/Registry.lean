import CrossClusterKeys.Proofs.Edits
import CrossClusterKeys.Proofs.JsonIndenting
import CrossClusterKeys.Proofs.SettingPattern
import CrossClusterKeys.Proofs.SuppliedKeys

/-!
# The command line as a registry of grants

A registry is what the commands are about once Secrets are forgotten: every cluster has a finite
map from aliases to the ID of a key and the key itself.

**Input.**  Runs of the command line whose arguments are known and are texts without surrogates,
one after the other over one store.  A run that records a key has been given that key, or none, by
what stands at the path in its arguments.

**Answers.**  What a run prints is said by its lines, and for the listing by the document that the
grammar finds in it, which is the one that it is read as (`Json.read_eq_ok_iff`).

**Invariant.**  The Secret of every cluster holds the index made of the cluster's grants, and there
is none for a cluster without grants.

**Results.**
* `exists_isGiven`: every command can be given, whatever stands at its path.
* `alike_index_insert`, `alike_index_erase`: recording and forgetting an alias are what they are to
  the grants.
* `prints_listing`: the listing of an index is a document with the grants of its aliases.
-/

namespace CrossClusterKeys

/-- What is granted to one alias. -/
structure Grant where
  keyId : Text
  credential : Text
  deriving DecidableEq

/-- The grants of every cluster, by its namespace and name. -/
abbrev Registry := Text × Text → KeyMap Grant

/-- A command whose arguments are texts.  The one that records a key has the path of the key and the
key that is there, none if there is none. -/
inductive Order
  | show
  | set (remote keyId path : Text) (key? : Option Text)
  | delete (remote : Text)
  | keystore

namespace Order

/-- The command of the command line. -/
def command : Order → Cli.Command
  | .show => .show
  | .set remote keyId path _ => .set (.text remote) keyId path
  | .delete remote => .delete (.text remote)
  | .keystore => .keystore

/-- The place supplies the key that is to be recorded, and its ID is without surrogates. -/
def IsGiven (p : Cli.Place) : Order → Prop
  | .set _ keyId path key? => keyId.isWellFormed = true ∧ Cli.Supplies p path key?
  | _ => True

/-- A command is refused only if it is to record a key for what is no alias, or none at all. -/
def IsAccepted : Order → Prop
  | .set remote _ _ key? => Naming.aliasPattern.FullMatch remote [] ∧ key?.isSome = true
  | _ => True

/-- Every command with key IDs that have no surrogates can be given. -/
theorem exists_isGiven (p : Cli.Place) (remote path : Text) {keyId : Text}
    (h : keyId.isWellFormed = true) : ∃ key?, (set remote keyId path key?).IsGiven p := by
  obtain ⟨key?, hkey⟩ := Cli.exists_supplies p path
  exact ⟨key?, h, hkey⟩

end Order

/-- A run of the command line whose arguments and settings are known. -/
structure Entry where
  place : Cli.Place
  settings : Settings
  backend : Option Text
  logLevel : Option Text
  «namespace» : Text
  name : Text
  uid : Option Text
  order : Order
  given : order.IsGiven place
  named : name.isWellFormed = true
  /-- The standard input is without surrogates; files are, since they are read strictly. -/
  input : place.input.isWellFormed = true

namespace Entry

/-- The run as the command line has it. -/
def ready (e : Entry) : Cli.Ready where
  place := e.place
  invocation := ⟨e.backend, e.logLevel, e.namespace, e.name, e.uid, e.order.command⟩
  settings := e.settings

/-- The cluster that the run is about. -/
def cluster (e : Entry) : Cluster := e.ready.invocation.cluster

/-- The namespace and the name of the cluster. -/
def subject (e : Entry) : Text × Text := (e.namespace, e.name)

end Entry

namespace Registry

/-- The registry without grants. -/
def empty : Registry := fun _ => .empty

/-- The grants of the cluster after a command. -/
def change (g : KeyMap Grant) : Order → KeyMap Grant
  | .show => g
  | .set remote keyId _ key? =>
    match key? with
    | some key =>
      if Naming.aliasPattern.FullMatch remote [] then g.insert remote ⟨keyId, key⟩ else g
    | none => g
  | .delete remote => g.erase remote
  | .keystore => g

/-- The entries are the aliases of the grants with their key IDs, in the order of the aliases. -/
structure Lists (g : KeyMap Grant) (entries : List (Text × Text)) : Prop where
  ordered : entries.Pairwise fun a b => Text.le a.1 b.1 = true ∧ a.1 ≠ b.1
  mem : ∀ a keyId, (a, keyId) ∈ entries ↔ ∃ grant, g.get? a = some grant ∧ grant.keyId = keyId

/-- What an accepted command prints for a cluster with these grants. -/
def Prints (name : Text) (g : KeyMap Grant) (output : Text) : Order → Prop
  | .show => ∃ body entries,
    let secret : Text × Json := ("secret", .text (name ++ "-es-remote-api-keys"))
    let aliases : Text × Json := ("aliases", .object (entries.map fun e => (e.1, .text e.2)))
    output = body ++ "\n" ∧ Lists g entries ∧
      Json.IsDocumentWithin Json.digitLimit 2 body (.object [secret, aliases])
  | .set remote keyId _ _ =>
    output = "Stored API key " ++ keyId ++ " for alias " ++ remote ++ "\n"
  | .delete remote =>
    output = if g.contains remote then "Removed alias " ++ remote ++ "\n"
      else "Alias " ++ remote ++ " not found, nothing to do" ++ "\n"
  | .keystore => output = (if g.isEmpty then [] else name ++ "-es-remote-api-keys" ++ "\n" : Text)

/-- How a run with a command ends for a cluster with these grants. -/
inductive Answers (name : Text) (g : KeyMap Grant) (o : Order) : Cli.Ending → Prop
  | accepted {output} (h : o.IsAccepted) (hprints : Prints name g output o) :
      Answers name g o (.ok ⟨0, output, []⟩)
  | refused {message : Text} (h : ¬ o.IsAccepted) :
      Answers name g o (.ok ⟨1, [], "error: " ++ message ++ "\n"⟩)

/-- The registry after a run. -/
def step (reg : Registry) (e : Entry) : Registry := fun subject =>
  if subject = e.subject then change (reg subject) e.order else reg subject

/-- The registry after runs one after the other. -/
def after (history : List Entry) : Registry := history.foldl step empty

/-- A Secret, or its absence, is what the grants of a cluster call for. -/
structure Backs (g : KeyMap Grant) (found : Option Secret) : Prop where
  presence : found.isSome = !g.isEmpty
  data : ∀ s, found = some s → ∀ setting bytes,
    s.data.get? setting = some bytes ↔
      ∃ a grant, g.get? a = some grant ∧ setting = "cluster.remote." ++ a ++ ".credentials" ∧
        Utf8.encode grant.credential = .ok bytes

/-- Grants have one listing. -/
theorem Lists.unique {g : KeyMap Grant} {entries entries' : List (Text × Text)}
    (h : Lists g entries) (h' : Lists g entries') : entries = entries' := by
  have hnodup : ∀ {es : List (Text × Text)}, Lists g es → es.Nodup := fun hes =>
    hes.ordered.imp fun hab heq => hab.2 (congrArg Prod.fst heq)
  have hmem : ∀ e, e ∈ entries ↔ e ∈ entries' := by
    rintro ⟨a, keyId⟩
    rw [h.mem, h'.mem]
  have hperm := (List.perm_ext_iff_of_nodup (hnodup h) (hnodup h')).2 hmem
  refine hperm.eq_of_pairwise (fun a b _ _ hab hba => ?_) h.ordered h'.ordered
  exact absurd (Text.le_antisymm hab.1 hba.1) hab.2

theorem Answers.of_isAccepted {name : Text} {g : KeyMap Grant} {o : Order} {ending : Cli.Ending}
    (h : Answers name g o ending) (ho : o.IsAccepted) :
    ∃ output, ending = .ok ⟨0, output, []⟩ ∧ Prints name g output o := by
  cases h with
  | accepted _ hprints => exact ⟨_, rfl, hprints⟩
  | refused hnot => exact absurd ho hnot

theorem change_of_not_isAccepted {o : Order} (h : ¬ o.IsAccepted) (g : KeyMap Grant) :
    change g o = g := by
  cases o with
  | set remote keyId path key? =>
    cases key? with
    | none => rfl
    | some key => exact if_neg fun hmatch => h ⟨hmatch, rfl⟩
  | «show» => rfl
  | delete remote => exact absurd trivial h
  | keystore => rfl

/-- The index made of grants. -/
def index (g : KeyMap Grant) : KeyIndex := ⟨g.map Grant.keyId, g.map Grant.credential⟩

/-- The index of every cluster's grants is clean and stands in the store. -/
structure Mirrors (reg : Registry) (m : SecretStore) : Prop where
  kept : m.IsKept
  clean : ∀ subject, (index (reg subject)).IsClean
  stands : ∀ c : Cluster, (index (reg (c.namespace, c.name))).Stands c m

section Index

variable (g : KeyMap Grant)

theorem get?_aliases_index (a : Text) :
    (index g).aliases.get? a = (g.get? a).map Grant.keyId :=
  Table.get?_map _ _ _

theorem get?_keys_index (a : Text) :
    (index g).keys.get? a = (g.get? a).map Grant.credential :=
  Table.get?_map _ _ _

theorem isEmpty_index : (index g).isEmpty = g.isEmpty := by
  refine Bool.eq_iff_iff.2 ?_
  rw [KeyIndex.isEmpty, Table.isEmpty_iff, Table.isEmpty_iff]
  constructor
  · intro h a
    have ha := h a
    rw [get?_aliases_index, Option.map_eq_none_iff] at ha
    exact ha
  · intro h a
    rw [get?_aliases_index, h, Option.map_none]

theorem alike_index_insert {y : KeyIndex} (h : y.Alike (index g)) (remote keyId key : Text) :
    (y.put remote keyId key).Alike (index (g.insert remote ⟨keyId, key⟩)) := by
  constructor
  · intro a
    rw [KeyIndex.get?_aliases_put, get?_aliases_index, Table.get?_insert, h.1, get?_aliases_index]
    split
    · rfl
    · rfl
  · intro a
    rw [KeyIndex.get?_keys_put, get?_keys_index, Table.get?_insert, h.2, get?_keys_index]
    split
    · rfl
    · rfl

theorem alike_index_erase {y : KeyIndex} (h : y.Alike (index g)) (remote : Text) :
    (y.forget remote).Alike (index (g.erase remote)) := by
  constructor
  · intro a
    rw [KeyIndex.get?_aliases_forget, get?_aliases_index, Table.get?_erase, h.1,
      get?_aliases_index]
    split
    · rfl
    · rfl
  · intro a
    rw [KeyIndex.get?_keys_forget, get?_keys_index, Table.get?_erase, h.2, get?_keys_index]
    split
    · rfl
    · rfl

/-- Erasing an alias without a grant leaves the grants as they are. -/
theorem alike_index_erase_self {remote : Text} (h : g.contains remote = false) :
    (index g).Alike (index (g.erase remote)) := by
  have hnone : g.get? remote = none := by
    rw [Table.contains, Option.isSome_eq_false_iff, Option.isNone_iff_eq_none] at h
    exact h
  have hsame : ∀ a, (g.erase remote).get? a = g.get? a := by
    intro a
    rw [Table.get?_erase]
    split
    · next heq => rw [← heq, hnone]
    · rfl
  constructor
  · intro a
    rw [get?_aliases_index, get?_aliases_index, hsame]
  · intro a
    rw [get?_keys_index, get?_keys_index, hsame]

theorem contains_of_alike {y : KeyIndex} (h : y.Alike (index g)) (a : Text) :
    y.contains a = g.contains a := by
  rw [KeyIndex.contains, Table.contains, Table.contains, h.1, get?_aliases_index,
    Option.isSome_map]

/-- The sorted aliases of the index made of grants list these grants. -/
theorem lists_sorted {y : KeyIndex} (h : y.Alike (index g)) : Lists g y.aliases.sorted := by
  refine ⟨?_, fun a keyId => ?_⟩
  · exact (KeyMap.pairwise_sorted y.aliases).and
      (List.pairwise_map.1 (KeyMap.nodup_sorted y.aliases))
  · rw [KeyMap.mem_sorted_iff, h.1, get?_aliases_index, Option.map_eq_some_iff]

/-- The listing of a clean index is a document of two levels. -/
theorem isLegible_listing {y : KeyIndex} (hy : y.IsClean) (c : Cluster)
    (hname : c.name.isWellFormed = true) : Json.IsLegible 2 (Cli.listing c y) := by
  have hend : Text.isWellFormed Naming.secretEnding = true := by decide
  have hsecret : (Naming.secretName c.name).isUnpaired = true := by
    refine Text.isUnpaired_of_isWellFormed ?_
    unfold Text.isWellFormed at hname hend ⊢
    rw [Naming.secretName, List.all_append, hname, hend]
    rfl
  have haliases : ∀ e ∈ y.aliases.sorted, e.1.isUnpaired = true ∧ e.2.isUnpaired = true := by
    rintro ⟨a, k⟩ he
    have hk := (KeyMap.mem_sorted_iff y.aliases a k).1 he
    exact (KeyIndex.isLegible_of_isClean hy).aliases a k hk
  have hkeys : ((y.aliases.sorted.map fun e => (e.1, Json.text e.2)).map Prod.fst).Nodup := by
    rw [List.map_map]
    exact KeyMap.nodup_sorted y.aliases
  have hnames : [Text.ofString "secret", Text.ofString "aliases"].Nodup := by decide
  simp only [Cli.listing, Json.IsLegible, Json.AreLegibleMembers]
  exact ⟨hnames, by decide, hsecret, by decide,
    ⟨hkeys, KeyIndex.areLegibleMembers_texts _ haliases⟩, trivial⟩

/-- What is printed of the index made of grants is a document with these grants. -/
theorem prints_listing {y : KeyIndex} (h : y.Alike (index g)) (hy : y.IsClean) (c : Cluster)
    (hname : c.name.isWellFormed = true) :
    Prints c.name g (Cli.line ((Cli.listing c y).indented 0)) .show :=
  ⟨_, _, rfl, lists_sorted g h, Json.isDocumentWithin_indented 0 (isLegible_listing hy c hname)⟩

end Index

end Registry
end CrossClusterKeys
