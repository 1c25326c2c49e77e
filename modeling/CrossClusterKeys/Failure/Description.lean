import CrossClusterKeys.Failure

/-!
# Failures told by name

A failure can be told by the name of its cause and the values it is raised with, in order or by
name.

**Rules.**
* A cause of the store or the index takes certain values, some of which may be left out; every
  other cause takes any number of values, none by name.
* A missing, denied or conflicting object has to be told by texts that are not empty, and so has
  the reason of a malformed annotation.

**Results.**
* `checkedText_eq_ok_iff`: what is accepted as such a text.
-/

namespace CrossClusterKeys
namespace Failure

/-- The values that a cause takes. -/
structure Signature where
  needed : List Text
  optional : List Text

/-- A failure told by name. -/
structure Description where
  kind : Text
  arguments : List Value
  named : List (Text × Value)

/-- A text that is not empty; `part` names it in the failure. -/
def checkedText (part : Text) (v : Value) : Except Failure Text :=
  let refusal : Failure := .ofArgument (part ++ " must be a non-empty string")
  match v with
  | .text t => if t.isEmpty then .error refusal else .ok t
  | _ => .error refusal

theorem checkedText_eq_ok_iff (part : Text) (v : Value) (t : Text) :
    checkedText part v = .ok t ↔ v = .text t ∧ t ≠ [] := by
  unfold checkedText
  cases v <;> simp
  next u => cases u <;> simp +contextual [eq_comm]

/-- A text, or nothing. -/
def optionalText : Value → Option Text
  | .null => none
  | v => some v.message

namespace Signature

/-- All values that the cause takes, in order. -/
def names (s : Signature) : List Text := s.needed ++ s.optional

/-- The values of the causes that do not take any. -/
def ofKind? (kind : Text) : Option Signature :=
  let table : List (Text × Signature) :=
    [("ResourceStoreError", ⟨["message"], ["resource", "backend"]⟩),
      ("ResourceNotFoundError", ⟨["resource", "backend"], ["additional_context"]⟩),
      ("ResourceConflictError", ⟨["resource", "backend", "reason"], []⟩),
      ("ResourceAccessError", ⟨["resource", "backend", "reason"], []⟩),
      ("RemoteClusterKeysError", ⟨["message"], ["resource"]⟩),
      ("MalformedAnnotationError", ⟨["resource", "reason"], []⟩),
      ("InvalidAliasError", ⟨["alias"], []⟩)]
  table.lookup kind

end Signature

/-- Names in quotes, as they are listed in a sentence. -/
def listed : List Text → Text
  | [] => []
  | [a] => Quoted.text a
  | [a, b] => Quoted.text a ++ " and " ++ Quoted.text b
  | ts => Text.join ", " (ts.dropLast.map Quoted.text) ++ ", and " ++
      Quoted.text (ts.getLastD [])

namespace Description

/-- What builds the failure, as it is named in refusals. -/
def builder (d : Description) : Text := d.kind ++ ".__init__()"

/-- The first value by name that does not fit: an unknown one, or one that was given before. -/
def misnamed? (d : Description) (names : List Text) : Option Failure :=
  let given := names.take d.arguments.length
  d.named.findSome? fun e =>
    if !names.contains e.1 then
      some (.ofArgument (d.builder ++ " got an unexpected keyword argument " ++ Quoted.text e.1))
    else if given.contains e.1 then
      some (.ofArgument (d.builder ++ " got multiple values for argument " ++ Quoted.text e.1))
    else none

/-- The refusal of too many values, the failure itself being counted as one. -/
def surplus (d : Description) (s : Signature) : Failure :=
  let most := Digits.ofNat (s.names.length + 1)
  let range : Text :=
    if s.optional.isEmpty then most
    else "from " ++ Digits.ofNat (s.needed.length + 1) ++ " to " ++ most
  .ofArgument (d.builder ++ " takes " ++ range ++ " positional arguments but " ++
    Digits.ofNat (d.arguments.length + 1) ++ " were given")

/-- The refusal of a description without needed values. -/
def shortage (d : Description) (missing : List Text) : Failure :=
  let plural : Text := if missing.length = 1 then "" else "s"
  .ofArgument (d.builder ++ " missing " ++ Digits.ofNat missing.length ++
    " required positional argument" ++ plural ++ ": " ++ listed missing)

/-- The values by name, `null` for those that are left out. -/
def values (d : Description) (s : Signature) : Except Failure (Text → Value) :=
  let given := s.names.zip d.arguments ++ d.named
  let missing := s.needed.filter fun name => (given.lookup name).isNone
  match d.misnamed? s.names with
  | some refusal => .error refusal
  | none =>
    if s.names.length < d.arguments.length then .error (d.surplus s)
    else if missing.isEmpty then .ok fun name => (given.lookup name).getD .null
    else .error (d.shortage missing)

/-- The failure of the store with checked parts. -/
def checkedStore (make : Text → Text → Text → StoreFailure) (reason : Except Failure Text)
    (value : Text → Value) : Except Failure Failure := do
  let resource ← checkedText "resource" (value "resource")
  let backend ← checkedText "backend" (value "backend")
  return .store (make resource backend (← reason))

/-- The failure that values by name make up. -/
def build (kind : Text) (value : Text → Value) : Except Failure Failure :=
  let reason := checkedText "reason" (value "reason")
  let message := (value "message").message
  if kind = "ResourceNotFoundError" then
    let detail := value "additional_context"
    checkedStore .notFound (.ok (if detail.isVoid then [] else detail.message)) value
  else if kind = "ResourceConflictError" then checkedStore .conflict reason value
  else if kind = "ResourceAccessError" then checkedStore .access reason value
  else if kind = "ResourceStoreError" then
    .ok (.store ⟨.general, message, optionalText (value "resource"),
      optionalText (value "backend")⟩)
  else if kind = "MalformedAnnotationError" then
    reason.map fun t => .index (.malformedAliases (optionalText (value "resource")) t)
  else if kind = "InvalidAliasError" then .ok (.index (.invalidAlias (value "alias")))
  else .ok (.index ⟨.general, message, optionalText (value "resource")⟩)

/-- The basic failures by their names. -/
def basic? (kind : Text) : Option Basic :=
  let table : List (Text × Basic) :=
    [("ValueError", .value), ("KeyError", .key), ("RuntimeError", .run)]
  table.lookup kind

/-- The failure that is described. -/
def failure (d : Description) : Except Failure Failure :=
  match Signature.ofKind? d.kind with
  | some s => do build d.kind (← d.values s)
  | none =>
    match basic? d.kind with
    | some b =>
      if d.named.isEmpty then .ok (.basic b d.arguments)
      else .error (.ofArgument (d.kind ++ "() takes no keyword arguments"))
    | none => .error (.ofArgument ("unknown failure " ++ Quoted.text d.kind))

end Description
end Failure
end CrossClusterKeys
