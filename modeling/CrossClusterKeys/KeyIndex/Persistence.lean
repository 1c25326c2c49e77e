import CrossClusterKeys.Convergence
import CrossClusterKeys.KeyIndex

/-!
# Loading and saving the index

**Rules.**
* A missing Secret is the empty index.
* Saving an index with aliases makes the Secret hold it, the cluster being the controller.
* Saving an index without aliases removes the Secret that is found, and no other one: the removal
  names the UID that was read.  A Secret that is already gone is no failure.
-/

namespace CrossClusterKeys
namespace KeyIndex

/-- The logger of this module. -/
def logger : Text := "libs.remote_cluster.api_key_store"

/-- The fields that name a cluster in the log. -/
def clusterFields (cluster : Cluster) : List (Text × Value) :=
  [("namespace", .text cluster.namespace), ("es_name", .text cluster.name)]

/-- What is logged about a data entry that is no credential. -/
def unknownSettingEvent (cluster : Cluster) (setting : Text) : Log.Event :=
  { Log.Event.plain logger Level.debug "Unknown remote cluster credential setting: %s"
      (clusterFields cluster) with arguments := [.text setting] }

/-- Writes several events to the log. -/
def logAll : List Log.Event → Program Store Unit
  | [] => pure ()
  | e :: es => do
    Program.log e
    logAll es

/-- The index of a cluster as it is stored. -/
def load [Json.Nesting] (cluster : Cluster) : Action Store KeyIndex := ExceptT.mk do
  match ← (Store.getSecret cluster.namespace (Naming.secretName cluster.name)).run with
  | .ok s =>
    match ofSecret s with
    | .ok x => do
      logAll ((unknownSettings s.data).map (unknownSettingEvent cluster))
      return .ok x
    | .error e => return .error e
  | .error e =>
    if e.isNotFound then do
      Program.log (.plain logger Level.debug "No remote cluster API keys secret found"
        (clusterFields cluster))
      return .ok empty
    else return .error e

/-- Removes the Secret of a cluster that is found. -/
def discard (cluster : Cluster) : Action Store Unit := ExceptT.mk do
  let name := Naming.secretName cluster.name
  match ← (Store.getSecret cluster.namespace name).run with
  | .error e => return if e.isNotFound then .ok () else .error e
  | .ok current =>
    match ← (Store.deleteSecret cluster.namespace name (some current.uid)).run with
    | .error e => return if e.isNotFound then .ok () else .error e
    | .ok _ => do
      Program.log (.plain logger Level.info "Deleted empty remote cluster API keys secret"
        (clusterFields cluster))
      return .ok ()

/-- Makes the Secret of a cluster hold the index. -/
def store (x : KeyIndex) (cluster : Cluster) (attempts : Int) : Action Store Unit := do
  let expected ← Action.ofExcept (x.toSecret cluster)
  let _ ← converge expected cluster.ownerReference? attempts

/-- Saves the index of a cluster. -/
def save (x : KeyIndex) (cluster : Cluster) (attempts : Int) : Action Store Unit :=
  if x.isEmpty then discard cluster else x.store cluster attempts

end KeyIndex
end CrossClusterKeys
