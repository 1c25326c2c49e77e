import CrossClusterKeys.Base64
import CrossClusterKeys.Json.Reader
import CrossClusterKeys.Text.Casing
import CrossClusterKeys.Text.Utf8
import CrossClusterKeys.Value

/-!
# Failures

Everything that can go wrong is a `Failure`: a cause with its data.  `Failure.message` is the one
place where a cause becomes a text, `Failure.kind` the one where it gets its name, and
`Failure.classes` the one where it gets its place among the others.

**Families.**
* `StoreFailure`: a resource store could not answer.  A Secret is missing, a precondition did not
  hold, access was denied, or something else happened.
* `IndexFailure`: the credential index is unreadable or an alias cannot be used.
* The rest belongs to a rule (UTF-8, JSON, Base64, files, settings, the cluster's API) or is a
  `Basic` failure that carries the values it was raised with.

**Results.**
* `isReported_eq`: an operator is told of the failures of certain classes, and of no others.
* `Raised.isNotFound_iff`, `Raised.isConflict_iff`: the two store failures that callers act on.
-/

namespace CrossClusterKeys

/-- What kept a resource store from answering. -/
inductive StoreCause
  | general
  | notFound
  | conflict
  | access
  deriving DecidableEq, Repr

/-- A failure of a resource store. -/
structure StoreFailure where
  cause : StoreCause
  message : Text
  /-- The namespaced name of the object. -/
  resource : Option Text
  /-- The store that failed. -/
  backend : Option Text
  deriving DecidableEq, Repr

namespace StoreFailure

/-- The object does not exist. -/
def notFound (resource backend : Text) (detail : Text) : StoreFailure :=
  let base := "Resource '" ++ resource ++ "' not found in " ++ backend.upper
  ⟨.notFound, if detail.isEmpty then base else base ++ ". " ++ detail, some resource, some backend⟩

/-- A precondition or a version did not hold. -/
def conflict (resource backend reason : Text) : StoreFailure :=
  ⟨.conflict, "Conflict: " ++ reason, some resource, some backend⟩

/-- The store denied the call or could not be reached. -/
def access (resource backend reason : Text) : StoreFailure :=
  ⟨.access, "Access failed: " ++ reason, some resource, some backend⟩

/-- The parts of a message's context that are known. -/
def context (f : StoreFailure) : List Text :=
  let part (label : Text) : Option Text → List Text
    | some t => if t.isEmpty then [] else [label ++ t]
    | none => []
  part "resource: " f.resource ++ part "backend: " f.backend

/-- The message with its context. -/
def text (f : StoreFailure) : Text :=
  if f.context.isEmpty then f.message
  else f.message ++ " (" ++ Text.join ", " f.context ++ ")"

end StoreFailure

/-- What is wrong with a credential index. -/
inductive IndexCause
  | general
  | malformedAliases
  | invalidAlias
  deriving DecidableEq, Repr

/-- A failure of the credential index. -/
structure IndexFailure where
  cause : IndexCause
  message : Text
  /-- The namespaced name of the Secret behind the index. -/
  resource : Option Text
  deriving DecidableEq, Repr

namespace IndexFailure

/-- The aliases annotation cannot be read. -/
def malformedAliases (resource : Option Text) (reason : Text) : IndexFailure :=
  ⟨.malformedAliases, "Invalid remote cluster keys annotation: " ++ reason, resource⟩

/-- The alias cannot be part of a setting's name. -/
def invalidAlias (remote : Value) : IndexFailure :=
  ⟨.invalidAlias, "Invalid remote cluster alias " ++ remote.shown ++
    ": expected letters, digits, '_' or '-'", none⟩

/-- The message with its context. -/
def text (f : IndexFailure) : Text :=
  match f.resource with
  | some r => if r.isEmpty then f.message else f.message ++ " (resource: " ++ r ++ ")"
  | none => f.message

end IndexFailure

/-- Why a file cannot be read. -/
inductive FileCause
  | missing
  | directory
  | notDirectory
  /-- The path, or a name in it, is too long. -/
  | tooLong
  deriving DecidableEq, Repr

/-- A failure of the cluster's API. -/
inductive ApiFailure
  /-- The server answered with a status other than success. -/
  | rejected (status : Option Int) (reason : Option Text)
  /-- There was no answer; `broken` if the connection broke off. -/
  | transport (broken : Bool) (message : Text)
  deriving DecidableEq, Repr

/-- A setting that was refused. -/
structure Rejection where
  /-- The kind of the refusal. -/
  kind : Text
  setting : Text
  message : Text
  /-- The text that was refused. -/
  input : Text
  deriving DecidableEq, Repr

/-- Failures that no rule of their own belongs to. -/
inductive Basic
  | value
  | key
  | argument
  | member
  | overflow
  | system
  | run
  deriving DecidableEq, Repr

/-- A cause of failure. -/
inductive Failure
  | store (f : StoreFailure)
  | index (f : IndexFailure)
  | json (r : Json.Refusal)
  | base64 (f : Base64.Flaw)
  | unencodable (f : Utf8.Unencodable)
  | undecodable (f : Utf8.Undecodable)
  | file (cause : FileCause) (path : Text)
  | settings (rs : List Rejection)
  | api (f : ApiFailure)
  | configuration (message : Text)
  | basic (b : Basic) (arguments : List Value)

namespace Failure

instance : Inhabited Failure := ⟨.basic .run []⟩

/-- A text or value that does not fit. -/
def ofValue (message : Text) : Failure := .basic .value [.text message]

/-- An argument that does not fit. -/
def ofArgument (message : Text) : Failure := .basic .argument [.text message]

/-- An attribute that does not exist. -/
def ofAttribute (message : Text) : Failure := .basic .member [.text message]

/-- The name of a cause. -/
def kind : Failure → Text
  | .store f => match f.cause with
    | .general => "ResourceStoreError"
    | .notFound => "ResourceNotFoundError"
    | .conflict => "ResourceConflictError"
    | .access => "ResourceAccessError"
  | .index f => match f.cause with
    | .general => "RemoteClusterKeysError"
    | .malformedAliases => "MalformedAnnotationError"
    | .invalidAlias => "InvalidAliasError"
  | .json r => match r with
    | .malformed _ => "JSONDecodeError"
    | .tooDeep _ => "RecursionError"
    | .tooLong _ => "ValueError"
  | .base64 f => match f with
    | .notAscii => "ValueError"
    | _ => "Error"
  | .unencodable _ => "UnicodeEncodeError"
  | .undecodable _ => "UnicodeDecodeError"
  | .file cause _ => match cause with
    | .missing => "FileNotFoundError"
    | .directory => "IsADirectoryError"
    | .notDirectory => "NotADirectoryError"
    | .tooLong => "OSError"
  | .settings _ => "ValidationError"
  | .api f => match f with
    | .rejected .. => "ApiException"
    | .transport broken _ => if broken then "ProtocolError" else "HTTPError"
  | .configuration _ => "ConfigException"
  | .basic b _ => match b with
    | .value => "ValueError"
    | .key => "KeyError"
    | .argument => "TypeError"
    | .member => "AttributeError"
    | .overflow => "OverflowError"
    | .system => "OSError"
    | .run => "RuntimeError"

/-- The classes between a failure's own one and that of all failures, the nearest one first. -/
def ancestors : Failure → List Text
  | .store f => if f.cause = .general then [] else ["ResourceStoreError"]
  | .index f => if f.cause = .general then [] else ["RemoteClusterKeysError", "ValueError"]
  | .json r => match r with
    | .malformed _ => ["ValueError"]
    | .tooDeep _ => ["RuntimeError"]
    | .tooLong _ => []
  | .base64 f => match f with
    | .notAscii => []
    | _ => ["ValueError"]
  | .unencodable _ => ["UnicodeError", "ValueError"]
  | .undecodable _ => ["UnicodeError", "ValueError"]
  | .file cause _ => match cause with
    | .tooLong => []
    | _ => ["OSError"]
  | .settings _ => ["ValueError"]
  | .api f => match f with
    | .rejected .. => ["OpenApiException"]
    | .transport broken _ => if broken then ["HTTPError"] else []
  | .configuration _ => []
  | .basic b _ => match b with
    | .key => ["LookupError"]
    | .overflow => ["ArithmeticError"]
    | _ => []

/-- The classes that a failure belongs to, its own one first. -/
def classes (f : Failure) : List Text :=
  f.kind :: (f.ancestors ++ [Text.ofString "Exception", "BaseException"])

/-- The family a name belongs to, in front of it where a trace shows it. -/
def family : Failure → Text
  | .store _ => "libs.k8s.exceptions."
  | .index _ => "libs.remote_cluster.exceptions."
  | .json (.malformed _) => "json.decoder."
  | .base64 .notAscii => []
  | .base64 _ => "binascii."
  | _ => []

/-- Bytes or code points from `start` to before `stop`, one of them by its own text. -/
def range (what one : Text) (start stop : Nat) : Text :=
  if stop = start + 1 then one ++ " in position " ++ Digits.ofNat start
  else what ++ "s in position " ++ Digits.ofNat start ++ "-" ++ Digits.ofNat (stop - 1)

/-- The text of bytes that are no UTF-8. -/
def undecodableText (f : Utf8.Undecodable) : Text :=
  let flaw : Text := match f.flaw with
    | .startByte => "invalid start byte"
    | .continuationByte => "invalid continuation byte"
    | .truncated => "unexpected end of data"
  "'utf-8' codec can't decode " ++
    range "byte" ("byte 0x" ++ Digits.hex 2 f.first.toNat) f.start f.stop ++ ": " ++ flaw

/-- The text of surrogates that have no bytes. -/
def unencodableText (f : Utf8.Unencodable) : Text :=
  "'utf-8' codec can't encode " ++
    range "character" ("character '" ++ Quoted.escape f.first.val ++ "'") f.start f.stop ++
    ": surrogates not allowed"

/-- The longest head of a text that has at most `room` bytes. -/
def headWithin (room : Nat) : Text → Text
  | [] => []
  | c :: t =>
    let size := (Utf8.bytesOf c).length
    if size ≤ room then c :: headWithin (room - size) t else []

/-- A refused text as it is shown: one of more than 50 bytes by its two ends. -/
def shownInput (t : Text) : Text :=
  let q := Quoted.text t
  if (q.flatMap Utf8.bytesOf).length ≤ 50 then q
  else headWithin 25 q ++ "..." ++ (headWithin 24 q.reverse).reverse

/-- The text of one refused setting, in two lines. -/
def rejectionText (r : Rejection) : Text :=
  "\n" ++ r.setting ++ "\n  " ++ r.message ++ " [type=" ++ r.kind ++ ", input_value=" ++
    shownInput r.input ++ ", input_type=str]"

/-- The text of refused settings, two lines for each. -/
def settingsText (rs : List Rejection) : Text :=
  let plural : Text := if rs.length = 1 then "" else "s"
  Digits.ofNat rs.length ++ " validation error" ++ plural ++ " for Settings" ++
    rs.flatMap rejectionText

/-- The text of a cause. -/
def message : Failure → Text
  | .store f => f.text
  | .index f => f.text
  | .json (.malformed flaw) => flaw.message
  | .json (.tooDeep nest) =>
    let what : Text := match nest with
      | .list => "array"
      | .object => "object"
    "maximum recursion depth exceeded while decoding a JSON " ++ what ++ " from a unicode string"
  | .json (.tooLong digits) =>
    "Exceeds the limit (4300 digits) for integer string conversion: value has " ++
      Digits.ofNat digits ++ " digits; use sys.set_int_max_str_digits() to increase the limit"
  | .base64 f => f.message
  | .unencodable f => unencodableText f
  | .undecodable f => undecodableText f
  | .file cause path =>
    let reason : Text := match cause with
      | .missing => "[Errno 2] No such file or directory: "
      | .directory => "[Errno 21] Is a directory: "
      | .notDirectory => "[Errno 20] Not a directory: "
      | .tooLong => "[Errno 36] File name too long: "
    reason ++ Quoted.text path
  | .settings rs => settingsText rs
  | .api (.rejected status reason) =>
    let shownStatus := match status with
      | some n => Digits.ofInt n
      | none => "None"
    "(" ++ shownStatus ++ ")\nReason: " ++ reason.getD "None" ++ "\n"
  | .api (.transport _ message) => message
  | .configuration message => message
  | .basic b arguments => match arguments with
    | [] => []
    | [v] => if b = .key then v.shown else v.message
    | vs => (Value.tuple vs).shown

/-- A cause as it is shown among other values. -/
def shown : Failure → Text
  | .basic b arguments => match arguments with
    | [v] => (Failure.basic b []).kind ++ "(" ++ v.shown ++ ")"
    | vs => (Failure.basic b []).kind ++ (Value.tuple vs).shown
  | .store f => (Failure.store f).kind ++ "(" ++ Quoted.text f.message ++ ")"
  | .index f => (Failure.index f).kind ++ "(" ++ Quoted.text f.message ++ ")"
  | f => f.kind ++ "(" ++ Quoted.text f.message ++ ")"

/-- Whether an operator is told of the failure in one line, all others being faults of the
program: failures of the store and of the index, texts that do not fit, and files. -/
def isReported : Failure → Bool
  | .store _ => true
  | .index _ => true
  | .json (.tooDeep _) => false
  | .json _ => true
  | .base64 _ => true
  | .unencodable _ => true
  | .undecodable _ => true
  | .file .. => true
  | .settings _ => true
  | .api _ => false
  | .configuration _ => false
  | .basic b _ => b = .value || b = .system

/-- The classes of the failures that an operator is told of in one line. -/
def reportedClasses : List Text :=
  ["ResourceStoreError", "RemoteClusterKeysError", "ValueError", "OSError"]

/-- A failure is reported exactly if it belongs to one of these classes. -/
theorem isReported_eq (f : Failure) :
    f.isReported = reportedClasses.any fun c => f.classes.contains c := by
  cases f with
  | store f =>
    obtain ⟨cause, message, resource, backend⟩ := f
    cases cause <;> rfl
  | index f =>
    obtain ⟨cause, message, resource⟩ := f
    cases cause <;> rfl
  | json r => cases r <;> rfl
  | base64 f => cases f <;> rfl
  | unencodable f => rfl
  | undecodable f => rfl
  | file cause path => cases cause <;> rfl
  | settings rs => rfl
  | api f =>
    cases f with
    | rejected status reason => rfl
    | transport broken message => cases broken <;> rfl
  | configuration message => rfl
  | basic b arguments => cases b <;> rfl

end Failure

/-- A failure with the causes that led to it, the nearest one first. -/
structure Raised where
  failure : Failure
  causes : List Failure

namespace Raised

instance : Coe Failure Raised := ⟨fun f => ⟨f, []⟩⟩

/-- A failure of the store without a further cause. -/
def ofStore (f : StoreFailure) : Raised := ⟨.store f, []⟩

/-- A failure of the index without a further cause. -/
def ofIndex (f : IndexFailure) : Raised := ⟨.index f, []⟩

/-- The store's reason, if it is a failure of the store. -/
def storeCause? (r : Raised) : Option StoreCause :=
  match r.failure with
  | .store f => some f.cause
  | _ => none

/-- Whether the object does not exist. -/
def isNotFound (r : Raised) : Bool := r.storeCause? = some .notFound

/-- Whether a precondition or a version did not hold. -/
def isConflict (r : Raised) : Bool := r.storeCause? = some .conflict

theorem isNotFound_iff (r : Raised) :
    r.isNotFound = true ↔ ∃ f : StoreFailure, r.failure = .store f ∧ f.cause = .notFound := by
  unfold isNotFound storeCause?
  split <;> simp_all

theorem isConflict_iff (r : Raised) :
    r.isConflict = true ↔ ∃ f : StoreFailure, r.failure = .store f ∧ f.cause = .conflict := by
  unfold isConflict storeCause?
  split <;> simp_all

/-- One line of a trace. -/
def traceLine (f : Failure) : Text :=
  let name := f.family ++ f.kind
  (if f.message.isEmpty then name else name ++ ": " ++ f.message) ++ "\n"

/-- The trace of a failure: the causes first, the failure last. -/
def trace (r : Raised) : Text :=
  Text.join "\nThe above exception was the direct cause of the following exception:\n\n"
    ((r.causes.reverse ++ [r.failure]).map traceLine)

end Raised

section Outcomes

variable {ε ε' α : Type}

theorem mapError_error (f : ε → ε') (e : ε) :
    (Except.error e : Except ε α).mapError f = .error (f e) := rfl

theorem mapError_ok (f : ε → ε') (a : α) : (Except.ok a).mapError f = .ok a := rfl

theorem mapError_eq_ok_iff {o : Except ε α} {f : ε → ε'} {a : α} :
    o.mapError f = .ok a ↔ o = .ok a := by
  cases o with
  | error e =>
    constructor
    · intro h
      cases h
    · intro h
      cases h
  | ok b =>
    constructor
    · intro h
      exact congrArg Except.ok (Except.ok.inj h)
    · intro h
      exact congrArg Except.ok (Except.ok.inj h)

theorem exists_of_bind_eq_ok {β : Type} {o : Except ε α} {g : α → Except ε β} {b : β}
    (h : o >>= g = .ok b) : ∃ a, o = .ok a ∧ g a = .ok b := by
  cases o with
  | error e => cases h
  | ok a => exact ⟨a, rfl, h⟩

theorem toOption_eq_some_iff {o : Except ε α} {a : α} : o.toOption = some a ↔ o = .ok a := by
  cases o with
  | error e =>
    constructor
    · intro h
      cases h
    · intro h
      cases h
  | ok b =>
    constructor
    · intro h
      exact congrArg Except.ok (Option.some.inj h)
    · intro h
      exact congrArg some (Except.ok.inj h)

theorem exists_ok_of_isOk {o : Except ε α} (h : o.isOk = true) : ∃ a, o = .ok a := by
  cases o with
  | error e => cases h
  | ok a => exact ⟨a, rfl⟩

end Outcomes

end CrossClusterKeys
