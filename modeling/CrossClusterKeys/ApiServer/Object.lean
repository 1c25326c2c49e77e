import CrossClusterKeys.Failure
import CrossClusterKeys.Secret

/-!
# Secrets as objects of the API server

The API server exchanges Secrets as objects whose parts may be missing, and whose data are Base64
texts.

**Rules.**
* An empty map, list or version is sent as a missing one; the data are always sent, and the UID
  never is.
* A missing part is read as an empty one, and a missing flag as a false one.

**Results.**
* `toSecret_error_iff`: an object is refused exactly if its data are no Base64.
-/

namespace CrossClusterKeys
namespace ApiServer

/-- An owner of an object, as it is exchanged. -/
structure Owner where
  apiVersion : Text
  kind : Text
  name : Text
  uid : Text
  controller : Option Bool
  blockOwnerDeletion : Option Bool
  deriving DecidableEq

/-- A Secret as it is exchanged. -/
structure Object where
  name : Text
  «namespace» : Text
  uid : Option Text
  version : Option Text
  labels : Option (KeyMap Text)
  annotations : Option (KeyMap Text)
  /-- The data in Base64. -/
  data : Option (KeyMap Text)
  owners : Option (List Owner)
  deriving DecidableEq

namespace Owner

/-- A reference as it is sent. -/
def ofReference (r : OwnerReference) : Owner :=
  ⟨r.apiVersion, r.kind, r.name, r.uid, some r.controller, some r.blockOwnerDeletion⟩

/-- The reference that was received. -/
def toReference (o : Owner) : OwnerReference :=
  ⟨o.apiVersion, o.kind, o.name, o.uid, o.controller.getD false, o.blockOwnerDeletion.getD false⟩

/-- A member of an object, left out if it is missing. -/
def member (name : Text) : Option Json → List (Text × Json)
  | some j => [(name, j)]
  | none => []

/-- The owner as a JSON document. -/
def toJson (o : Owner) : Json :=
  let known : List (Text × Json) :=
    [("apiVersion", .text o.apiVersion), ("kind", .text o.kind), ("name", .text o.name),
      ("uid", .text o.uid)]
  .object (known ++ member "controller" (o.controller.map .bool) ++
    member "blockOwnerDeletion" (o.blockOwnerDeletion.map .bool))

end Owner

namespace Object

/-- A list, missing if it is empty. -/
def orMissing {α : Type} (items : List α) : Option (List α) :=
  if items.isEmpty then none else some items

/-- A map, missing if it is empty. -/
def mapOrMissing (m : KeyMap Text) : Option (KeyMap Text) := if m.isEmpty then none else some m

/-- The Secret as it is sent. -/
def ofSecret (s : Secret) : Object where
  name := s.name
  «namespace» := s.namespace
  uid := none
  version := orMissing s.version
  labels := mapOrMissing s.labels
  annotations := mapOrMissing s.annotations
  data := some (s.data.map Base64.encode)
  owners := orMissing (s.owners.map Owner.ofReference)

/-- The data that Base64 texts stand for, refused at the first that is none. -/
def decodeData : List (Text × Text) → Except Base64.Flaw (List (Text × List UInt8))
  | [] => .ok []
  | (key, value) :: rest =>
    match Base64.decode value with
    | .error flaw => .error flaw
    | .ok bytes => (decodeData rest).map ((key, bytes) :: ·)

/-- The Secret that was received. -/
def toSecret (o : Object) : Except Raised Secret :=
  match decodeData (o.data.getD .empty).entries with
  | .error flaw => .error ⟨.base64 flaw, []⟩
  | .ok data =>
    .ok {
      name := o.name
      «namespace» := o.namespace
      labels := o.labels.getD .empty
      annotations := o.annotations.getD .empty
      data := .ofList data
      owners := (o.owners.getD []).map Owner.toReference
      uid := o.uid.getD []
      version := o.version.getD [] }

/-- A map of texts as a JSON object. -/
def mapJson (m : KeyMap Text) : Json := .object (m.entries.map fun e => (e.1, .text e.2))

/-- The object as a JSON document, without the parts that are missing. -/
def toJson (o : Object) : Json :=
  let identity : List (Text × Json) :=
    [("name", .text o.name), ("namespace", .text o.namespace)]
  let metadata := identity ++
    Owner.member "uid" (o.uid.map .text) ++
    Owner.member "resourceVersion" (o.version.map .text) ++
    Owner.member "labels" (o.labels.map mapJson) ++
    Owner.member "annotations" (o.annotations.map mapJson) ++
    Owner.member "ownerReferences" (o.owners.map fun os => .list (os.map Owner.toJson))
  let head : List (Text × Json) :=
    [("apiVersion", .text "v1"), ("kind", .text "Secret"), ("type", .text "Opaque"),
      ("metadata", .object metadata)]
  .object (head ++ Owner.member "data" (o.data.map mapJson))

theorem toSecret_error_iff (o : Object) :
    (∃ e, o.toSecret = .error e) ↔ ∃ f, decodeData (o.data.getD .empty).entries = .error f := by
  unfold toSecret
  cases decodeData (o.data.getD .empty).entries <;> simp

end Object
end ApiServer
end CrossClusterKeys
