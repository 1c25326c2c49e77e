import CrossClusterKeys.Value

/-!
# Secrets

A Secret is a named object in a namespace with labels, annotations, data and owners.  Its UID and
its resource version are given by the store that keeps it and are empty before that.

**Rules.**
* `adopt`: an owner that becomes the controller replaces every other controller and every
  reference with its own UID, and stands last.
* `outdated`: a stored Secret has to be written when it lacks a label, an annotation or an owner of
  the expected one, or when its data differ.
* `overlay`: what is written keeps the labels and annotations that nobody expects and takes the
  data as a whole.

**Results.**
* `mem_adopt_iff`: the owners after an adoption.
* `overlay_name`, `overlay_uid`, `overlay_version`: an overlay keeps identity and version.
-/

namespace CrossClusterKeys

/-- A reference from a Secret to an object that owns it. -/
structure OwnerReference where
  apiVersion : Text
  kind : Text
  name : Text
  uid : Text
  /-- Whether the owner is the managing controller. -/
  controller : Bool
  /-- Whether the owner's deletion waits for the Secret. -/
  blockOwnerDeletion : Bool
  deriving DecidableEq

/-- A Secret as callers and stores see it. -/
structure Secret where
  name : Text
  «namespace» : Text
  labels : KeyMap Text
  annotations : KeyMap Text
  data : KeyMap (List UInt8)
  owners : List OwnerReference
  /-- The identity given by the store, empty before. -/
  uid : Text
  /-- The version given by the store, empty before. -/
  version : Text
  deriving DecidableEq

/-- The name of an object with its namespace in front. -/
def namespaced («namespace» name : Text) : Text := «namespace» ++ "/" ++ name

theorem namespaced_ne_nil («namespace» name : Text) : namespaced «namespace» name ≠ [] := by
  unfold namespaced
  rw [List.append_assoc]
  exact List.append_ne_nil_of_right_ne_nil _ (List.cons_ne_nil _ _)

namespace OwnerReference

/-- The references after `owner` has become the controller. -/
def adopt (owner : OwnerReference) (references : List OwnerReference) : List OwnerReference :=
  references.filter (fun r => r.uid ≠ owner.uid && !r.controller) ++ [owner]

theorem mem_adopt_iff (owner r : OwnerReference) (references : List OwnerReference) :
    r ∈ owner.adopt references ↔
      r = owner ∨ (r ∈ references ∧ r.uid ≠ owner.uid ∧ r.controller = false) := by
  simp [adopt, or_comm]

/-- The reference as it is shown. -/
def shown (r : OwnerReference) : Text :=
  Value.shownRecord "OwnerReference"
    [("api_version", Quoted.text r.apiVersion), ("kind", Quoted.text r.kind),
      ("name", Quoted.text r.name), ("uid", Quoted.text r.uid),
      ("controller", Value.shownBool r.controller),
      ("block_owner_deletion", Value.shownBool r.blockOwnerDeletion)]

end OwnerReference

namespace Secret

/-- The name of the Secret with its namespace in front. -/
def namespacedName (s : Secret) : Text := namespaced s.namespace s.name

/-- Whether `stored` has to be written to agree with `expected`. -/
def outdated (expected stored : Secret) : Bool :=
  !expected.labels.isSubmapOf stored.labels ||
    !expected.annotations.isSubmapOf stored.annotations ||
    !expected.data.sameAs stored.data ||
    !expected.owners.all fun r => stored.owners.contains r

/-- What is written over `stored` to make it agree with `expected`. -/
def overlay (expected stored : Secret) : Secret :=
  { stored with
    labels := stored.labels.overlay expected.labels
    annotations := stored.annotations.overlay expected.annotations
    data := expected.data
    owners := expected.owners.foldl (fun refs r => r.adopt refs) stored.owners }

/-- The Secret as a new one, with `owner` as its controller if there is one. -/
def desired (expected : Secret) (owner : Option OwnerReference) : Secret :=
  { expected with
    uid := []
    version := []
    owners := match owner with
      | some o => o.adopt expected.owners
      | none => expected.owners }

/-- The Secret as it is shown, without its data. -/
def shown (s : Secret) : Text :=
  Value.shownRecord "Secret"
    [("name", Quoted.text s.name), ("namespace", Quoted.text s.namespace),
      ("labels", s.labels.shown), ("annotations", s.annotations.shown),
      ("owner_references", Value.shownList (s.owners.map OwnerReference.shown)),
      ("uid", Quoted.text s.uid), ("resource_version", Quoted.text s.version)]

theorem overlay_name (expected stored : Secret) :
    (expected.overlay stored).namespace = stored.namespace ∧
      (expected.overlay stored).name = stored.name := ⟨rfl, rfl⟩

theorem overlay_uid (expected stored : Secret) : (expected.overlay stored).uid = stored.uid := rfl

theorem overlay_version (expected stored : Secret) :
    (expected.overlay stored).version = stored.version := rfl

end Secret
end CrossClusterKeys
