import CrossClusterKeys.KeyIndex.Persistence

/-!
# The keystore of a cluster

The keystore of a cluster is built from the Secrets that its users declared.  If the cluster has
remote cluster API keys, their Secret is one more source, behind the declared ones.
-/

namespace CrossClusterKeys

/-- A cluster with the sources its keystore is built from. -/
structure Keystore where
  owner : Cluster
  sources : List SecretSource

namespace Keystore

/-- The logger of this module. -/
def logger : Text := "libs.remote_cluster.keystore"

/-- The sources of a keystore, none if there is no keystore. -/
def sourcesOf (k : Option Keystore) : List SecretSource :=
  match k with
  | some k => k.sources
  | none => []

/-- The sources with the Secret of the remote cluster API keys. -/
def extended (cluster : Cluster) : Keystore :=
  ⟨cluster, cluster.secureSettings ++ [⟨Naming.secretName cluster.name, none⟩]⟩

/-- What is logged when the Secret is among the sources. -/
def extensionEvent (cluster : Cluster) : Log.Event :=
  let name : Text × Value := ("secret_name", .text (Naming.secretName cluster.name))
  .plain logger Level.debug "Adding remote cluster API keys to keystore sources"
    (KeyIndex.clusterFields cluster ++ [name])

/-- The keystore of a cluster, with its remote cluster API keys if there are any. -/
def ofCluster (cluster : Cluster) : Action Store Keystore := ExceptT.mk do
  let name := Naming.secretName cluster.name
  match ← (Store.getSecret cluster.namespace name).run with
  | .ok _ => do
    Program.log (extensionEvent cluster)
    return .ok (extended cluster)
  | .error e =>
    return if e.isNotFound then .ok ⟨cluster, cluster.secureSettings⟩ else .error e

end Keystore
end CrossClusterKeys
