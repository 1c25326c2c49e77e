import CrossClusterKeys.Cluster
import CrossClusterKeys.Failure

/-!
# The index of remote cluster API keys

The index of a cluster maps the aliases of remote clusters to the IDs of the API keys issued for
them, and to the encoded keys themselves.

**Stored form.**  The index is kept in one Secret.  The key IDs are the aliases annotation, a JSON
object with sorted members and no blanks; the credential of an alias is a data entry named after
it.  Credentials are UTF-8, and bytes that are not are kept as they are.

**Rules.**
* An alias that cannot name a data entry is never recorded.
* The aliases annotation is an object of texts or `null`; a missing one is no alias at all.
* Data entries that are no credentials are passed over.

**Results.**
* `record_aliases`, `forget_aliases`: what the two edits do to the map of key IDs.
-/

namespace CrossClusterKeys

/-- The key IDs and the encoded keys of a cluster, by alias. -/
structure KeyIndex where
  /-- The ID of the key expected for an alias. -/
  aliases : KeyMap Text
  /-- The encoded key of an alias. -/
  keys : KeyMap Text
  deriving DecidableEq

namespace KeyIndex

/-- The index without aliases. -/
def empty : KeyIndex := ⟨.empty, .empty⟩

instance : Inhabited KeyIndex := ⟨empty⟩

/-- The key ID of an alias, empty for an unknown one. -/
def keyIdFor (x : KeyIndex) (remote : Text) : Text := (x.aliases.get? remote).getD []

/-- The encoded key of an alias, empty for an unknown one. -/
def credentialFor (x : KeyIndex) (remote : Text) : Text := (x.keys.get? remote).getD []

/-- Whether the alias has a key ID. -/
def contains (x : KeyIndex) (remote : Text) : Bool := x.aliases.contains remote

/-- Whether no alias has a key ID. -/
def isEmpty (x : KeyIndex) : Bool := x.aliases.isEmpty

/-- The number of aliases with a key ID. -/
def size (x : KeyIndex) : Nat := x.aliases.size

/-- A value as an alias, refused unless it is a text that may be one. -/
def aliasOf (v : Value) : Except IndexFailure Text :=
  match v with
  | .text t => if Naming.isAlias t then .ok t else .error (.invalidAlias v)
  | _ => .error (.invalidAlias v)

/-- A value as the alias to look up: only a text can be known, and only values that cannot change
may be asked for. -/
def lookupAlias (v : Value) : Except Failure (Option Text) :=
  match v with
  | .text t => .ok (some t)
  | .list _ => .error (.ofArgument "unhashable type: 'list'")
  | .map _ => .error (.ofArgument "unhashable type: 'dict'")
  | _ => .ok none

/-- The index with the key of an alias recorded or replaced. -/
def put (x : KeyIndex) (remote keyId credential : Text) : KeyIndex :=
  ⟨x.aliases.insert remote keyId, x.keys.insert remote credential⟩

/-- The index with the key of an alias recorded or replaced, unless the alias is refused. -/
def record (x : KeyIndex) (remote keyId credential : Text) : Except IndexFailure KeyIndex :=
  (aliasOf (.text remote)).map fun a => x.put a keyId credential

/-- The index without an alias. -/
def forget (x : KeyIndex) (remote : Text) : KeyIndex :=
  ⟨x.aliases.erase remote, x.keys.erase remote⟩

/-- The index without the alias that a value is.  Nothing is looked up in an index without aliases
and keys, so no value is refused there. -/
def forgetValue (x : KeyIndex) (v : Value) : Except Failure KeyIndex :=
  if x.aliases.isEmpty && x.keys.isEmpty then .ok x
  else (lookupAlias v).map fun remote => (remote.map x.forget).getD x

/-- Whether two indexes have the same key IDs and keys, in whatever order. -/
def sameAs (x y : KeyIndex) : Bool := x.aliases.sameAs y.aliases && x.keys.sameAs y.keys

/-- The index as it is shown, without its keys. -/
def shown (x : KeyIndex) : Text := Value.shownRecord "APIKeyStore" [("aliases", x.aliases.shown)]

theorem record_aliases {x y : KeyIndex} {remote keyId credential : Text}
    (h : x.record remote keyId credential = .ok y) :
    Naming.isAlias remote = true ∧ y = x.put remote keyId credential := by
  unfold record aliasOf at h
  by_cases ha : Naming.isAlias remote = true
  · simp [ha, Except.map] at h
    exact ⟨ha, h.symm⟩
  · simp [ha, Except.map] at h

theorem forget_aliases (x : KeyIndex) (remote k : Text) :
    (x.forget remote).aliases.get? k = if remote = k then none else x.aliases.get? k :=
  Table.get?_erase x.aliases remote k

section Stored

/-- The aliases annotation. -/
def aliasesText (aliases : KeyMap Text) : Text :=
  (Json.object (aliases.sorted.map fun e => (e.1, .text e.2))).write Json.compact

/-- The members of an annotation as key IDs, refused at the first that is no text. -/
def keyIds (resource : Option Text) : List (Text × Json) → Except Raised (List (Text × Text))
  | [] => .ok []
  | (remote, .text keyId) :: rest => (keyIds resource rest).map ((remote, keyId) :: ·)
  | (remote, _) :: _ =>
    .error (.ofIndex (.malformedAliases resource
      ("key ID of alias '" ++ remote ++ "' is not a string")))

/-- The key IDs of an aliases annotation; `resource` names the Secret in errors. -/
def readAliases [Json.Nesting] (resource : Option Text) (raw : Text) :
    Except Raised (KeyMap Text) :=
  match Json.read raw with
  | .error (.malformed flaw) =>
    .error ⟨.index (.malformedAliases resource flaw.message), [.json (.malformed flaw)]⟩
  | .error refusal => .error ⟨.json refusal, []⟩
  | .ok .null => .ok .empty
  | .ok (.object members) => (keyIds resource members).map .ofList
  | .ok j =>
    .error (.ofIndex (.malformedAliases resource ("expected a JSON object, got " ++ j.kind)))

/-- The data entries of credentials, refused at the first one without bytes. -/
def dataOf : List (Text × Text) → Except Raised (List (Text × List UInt8))
  | [] => .ok []
  | (remote, credential) :: rest =>
    match Utf8.encode credential with
    | .error e => .error ⟨.unencodable e, []⟩
    | .ok bytes => (dataOf rest).map ((Naming.settingName remote, bytes) :: ·)

/-- The Secret that holds the index of a cluster. -/
def toSecret (x : KeyIndex) (cluster : Cluster) : Except Raised Secret :=
  (dataOf x.keys.entries).map fun data =>
    { name := Naming.secretName cluster.name
      «namespace» := cluster.namespace
      labels := Naming.withCredentialsLabel (Naming.clusterLabels cluster.name)
      annotations := Table.empty.insert Naming.aliasesKey (aliasesText x.aliases)
      data := .ofList data
      owners := []
      uid := []
      version := [] }

/-- The data entries that are no credentials. -/
def unknownSettings (data : KeyMap (List UInt8)) : List Text :=
  data.keys.filter fun setting => (Naming.aliasOf? setting).isNone

/-- The credentials among data entries, by alias. -/
def credentials (data : KeyMap (List UInt8)) : KeyMap Text :=
  .ofList (data.entries.filterMap fun e =>
    (Naming.aliasOf? e.1).map fun remote => (remote, Utf8.decode e.2))

/-- The index that a Secret holds. -/
def ofSecret [Json.Nesting] (s : Secret) : Except Raised KeyIndex :=
  let aliases := match s.annotations.get? Naming.aliasesKey with
    | some raw => readAliases (some s.namespacedName) raw
    | none => .ok .empty
  aliases.map fun aliases => ⟨aliases, credentials s.data⟩

end Stored

end KeyIndex
end CrossClusterKeys
