import CrossClusterKeys.Secret

/-!
# Clusters and the names they give

A cluster owns the Secret with its remote cluster API keys.  The Secret's name and labels are made
from the cluster's name, and the names of its data entries from the aliases of remote clusters.

**Rules.**
* The Secret of the cluster `c` is named `c-es-remote-api-keys`.
* The credential of an alias is the entry `cluster.remote.<alias>.credentials`; an alias is one or
  more ASCII letters, digits, `_` and `-`.
* A cluster without a UID owns nothing: its Secret has no controller.

**Results.**
* `secretName_injective`: two clusters never share the name of their Secret.
-/

namespace CrossClusterKeys

/-- An entry of a source Secret with the name it gets in the keystore. -/
structure KeyToPath where
  key : Text
  path : Option Text
  deriving DecidableEq

/-- A Secret whose entries are loaded into the keystore. -/
structure SecretSource where
  secretName : Text
  /-- The entries to load; none for all of them. -/
  entries : Option (List KeyToPath)
  deriving DecidableEq

/-- A cluster, the owner of a Secret with remote cluster API keys. -/
structure Cluster where
  name : Text
  «namespace» : Text
  uid : Text
  /-- The sources of secure settings that users declared. -/
  secureSettings : List SecretSource
  apiVersion : Text
  kind : Text
  deriving DecidableEq

namespace KeyToPath

/-- The entry as it is shown. -/
def shown (k : KeyToPath) : Text :=
  Value.shownRecord "KeyToPath"
    [("key", Quoted.text k.key), ("path", (Value.ofText k.path).shown)]

end KeyToPath

namespace SecretSource

/-- The source as it is shown. -/
def shown (s : SecretSource) : Text :=
  let entries : Text := match s.entries with
    | some es => Value.shownTuple (es.map KeyToPath.shown)
    | none => "None"
  Value.shownRecord "SecretSource" [("secret_name", Quoted.text s.secretName), ("entries", entries)]

end SecretSource

namespace Cluster

/-- The API version of a cluster whose own is not given. -/
def defaultApiVersion : Text := "elasticsearch.k8s.elastic.co/v1"

/-- The kind of a cluster whose own is not given. -/
def defaultKind : Text := "Elasticsearch"

/-- The cluster's name with its namespace in front. -/
def namespacedName (c : Cluster) : Text := namespaced c.namespace c.name

/-- The reference that makes the cluster the controller of a Secret. -/
def ownerReference? (c : Cluster) : Option OwnerReference :=
  if c.uid.isEmpty then none else some ⟨c.apiVersion, c.kind, c.name, c.uid, true, true⟩

/-- The cluster as it is shown. -/
def shown (c : Cluster) : Text :=
  Value.shownRecord "Elasticsearch"
    [("name", Quoted.text c.name), ("namespace", Quoted.text c.namespace),
      ("uid", Quoted.text c.uid),
      ("secure_settings", Value.shownList (c.secureSettings.map SecretSource.shown)),
      ("api_version", Quoted.text c.apiVersion), ("kind", Quoted.text c.kind)]

end Cluster

namespace Naming

/-- The ending of every Secret with remote cluster API keys. -/
def secretEnding : Text := "-es-remote-api-keys"

/-- The name of the Secret with the remote cluster API keys of a cluster. -/
def secretName (clusterName : Text) : Text := clusterName ++ secretEnding

theorem secretName_injective {a b : Text} (h : secretName a = secretName b) : a = b :=
  List.append_cancel_right h

/-- The label with the cluster's name. -/
def clusterNameLabel : Text := "elasticsearch.k8s.elastic.co/cluster-name"

/-- The label with the kind of object. -/
def typeLabel : Text := "common.k8s.elastic.co/type"

/-- The label of objects that hold credentials. -/
def credentialsLabel : Text := "eck.k8s.elastic.co/credentials"

/-- The labels of objects that belong to a cluster. -/
def clusterLabels (clusterName : Text) : KeyMap Text :=
  (Table.empty.insert clusterNameLabel clusterName).insert typeLabel "elasticsearch"

/-- The labels with the one of objects that hold credentials. -/
def withCredentialsLabel (labels : KeyMap Text) : KeyMap Text :=
  labels.insert credentialsLabel "true"

/-- The annotation with the key IDs of the aliases. -/
def aliasesKey : Text := "elasticsearch.k8s.elastic.co/remote-clusters-keys"

/-- What stands before the alias in the name of a credential. -/
def settingStart : Text := "cluster.remote."

/-- What stands behind the alias in the name of a credential. -/
def settingEnd : Text := ".credentials"

/-- The name of the data entry with the credential of an alias. -/
def settingName (remote : Text) : Text := settingStart ++ remote ++ settingEnd

/-- The code points that an alias may have. -/
def isAliasPoint (c : CodePoint) : Bool :=
  (48 ≤ c.val && c.val ≤ 57) || (65 ≤ c.val && c.val ≤ 90) || (97 ≤ c.val && c.val ≤ 122) ||
    c = '_' || c = '-'

/-- Whether a text may be an alias. -/
def isAlias (remote : Text) : Bool := !remote.isEmpty && remote.all isAliasPoint

/-- The alias whose credential a data entry holds, none for any other entry. -/
def aliasOf? (setting : Text) : Option Text := do
  let rest ← Text.after? settingStart setting
  let remote ← Text.before? settingEnd rest
  if isAlias remote then some remote else none

end Naming
end CrossClusterKeys
