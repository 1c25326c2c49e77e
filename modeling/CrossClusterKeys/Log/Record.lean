import CrossClusterKeys.Log.Level
import CrossClusterKeys.Log.Template
import CrossClusterKeys.Log.Timestamp

/-!
# Log records

An event says what happened; a record is an event with all that its line shows.  The line is one
JSON document.

**Members of a line.**  `timestamp`, `level`, `service`, `logger`, `reconcile_id`, `message`,
`context` if there is any, `exception` if there was one, and `source`, in this order.

**Rules.**
* The context is the field `context` if that is a map with entries, and otherwise the map of the
  record's extra fields.
* A field named like an attribute that every record has takes the place of that attribute.  Only
  attributes that the line shows are kept, so a field of that kind never reaches the context.
* An event must not name an attribute that records have from the start; `reconcile_id`, `context`
  and `taskName` are not among those.
-/

namespace CrossClusterKeys
namespace Log

/-- What a record says about an exception. -/
inductive Occurrence
  | raised (r : Raised)
  /-- An exception was looked for and there was none. -/
  | missing
  /-- A value that stands where an exception belongs. -/
  | value (v : Value)

/-- Something that is logged. -/
structure Event where
  logger : Text
  level : Int
  template : Text
  arguments : List Value
  /-- The fields of the event in order. -/
  fields : List (Text × Value)
  exception : Option Occurrence

/-- An event with all that its line shows. -/
structure Record where
  created : Value
  level : Value
  logger : Value
  reconcileId : Value
  template : Value
  arguments : Value
  context : Value
  extras : KeyMap Value
  exception : Option Occurrence
  file : Value
  line : Value
  function : Value

/-- What a handler adds to every line. -/
structure Format where
  service : Text
  includeContext : Bool

/-- Attributes that a record has and no line shows. -/
def hiddenAttributes : List Text :=
  ["filename", "levelno", "module", "msecs", "process", "processName", "relativeCreated", "thread",
    "threadName", "taskName", "exc_text", "message", "asctime", "stack_info"]

/-- Attributes that an event must not name. -/
def fixedAttributes : List Text :=
  ["name", "msg", "args", "levelname", "levelno", "pathname", "filename", "module", "exc_info",
    "exc_text", "stack_info", "lineno", "funcName", "created", "msecs", "relativeCreated", "thread",
    "threadName", "processName", "process", "message", "asctime"]

namespace Record

/-- The record with an attribute or an extra field set. -/
def set (r : Record) (field : Text) (v : Value) : Record :=
  if field = "name" then { r with logger := v }
  else if field = "levelname" then { r with level := v }
  else if field = "reconcile_id" then { r with reconcileId := v }
  else if field = "pathname" then { r with file := v }
  else if field = "lineno" then { r with line := v }
  else if field = "funcName" then { r with function := v }
  else if field = "msg" then { r with template := v }
  else if field = "args" then { r with arguments := v }
  else if field = "created" then { r with created := v }
  else if field = "context" then { r with context := v }
  else if field = "exc_info" then { r with exception := some (.value v) }
  else if hiddenAttributes.contains field then r
  else { r with extras := r.extras.insert field v }

/-- The arguments of a template: the values in turn, or the values of a single map by name. -/
def argumentsOf : List Value → Value
  | [.map (e :: es)] => .map (e :: es)
  | vs => .tuple vs

/-- The message: the template, with its places filled if there are arguments. -/
def message (r : Record) : Except Failure Text :=
  if r.arguments.isVoid then .ok r.template.message
  else Template.format r.template.message r.arguments

/-- The entries of the context. -/
def contextEntries (r : Record) : List (Text × Value) :=
  match r.context with
  | .map (e :: es) => e :: es
  | _ => r.extras.entries

/-- The member `context`, if there is any context. -/
def contextMember (f : Format) (r : Record) : List (Text × Json) :=
  if f.includeContext && !r.contextEntries.isEmpty then
    [("context", .object (Value.toJsonEntries r.contextEntries))]
  else []

/-- The first part of a value that is not empty, refused if it has no parts in order. -/
def first (v : Value) : Except Failure Value :=
  match v with
  | .text (c :: _) => .ok (.text [c])
  | .bytes (b :: _) => .ok (.int b.toNat)
  | .list (item :: _) => .ok item
  | .tuple (item :: _) => .ok item
  | .map _ => .error (.basic .key [.int 0])
  | v => .error (.ofArgument ("'" ++ v.kind ++ "' object is not subscriptable"))

/-- The member `exception`, if there was one. -/
def exceptionMember (r : Record) : Except Failure (List (Text × Json)) :=
  let member (kind message : Json) (trace : Text) : List (Text × Json) :=
    [("exception", .object [("type", kind), ("message", message), ("traceback", .text trace)])]
  match r.exception with
  | none => .ok []
  | some .missing => .ok (member .null .null "NoneType: None\n")
  | some (.raised e) =>
    .ok (member (.text e.failure.kind) (.text e.failure.message) e.trace)
  | some (.value v) =>
    if v.isVoid then .ok []
    else do
      let kind ← first v
      if kind.isVoid then return member .null .null "NoneType: None\n"
      else throw (.ofAttribute ("'" ++ kind.kind ++ "' object has no attribute '__name__'"))

/-- The line of a record as a document. -/
def toJson (f : Format) (r : Record) : Except Failure Json := do
  let timestamp ← Timestamp.ofValue r.created
  let message ← r.message
  let exception ← r.exceptionMember
  let head : List (Text × Json) :=
    [("timestamp", .text timestamp), ("level", r.level.toJson), ("service", .text f.service),
      ("logger", r.logger.toJson), ("reconcile_id", r.reconcileId.toJson),
      ("message", .text message)]
  let source : Text × Json :=
    ("source", .object
      [("file", r.file.toJson), ("line", r.line.toJson), ("function", r.function.toJson)])
  return .object (head ++ r.contextMember f ++ exception ++ [source])

/-- The line of a record. -/
def text (f : Format) (r : Record) : Except Failure Text :=
  (r.toJson f).map (Json.write Json.spaced)

end Record

namespace Event

/-- An event with flat fields. -/
def plain (logger : Text) (level : Int) (template : Text) (fields : List (Text × Value)) : Event :=
  ⟨logger, level, template, [], fields, none⟩

/-- An event whose fields make up its context. -/
def withContext (logger : Text) (level : Int) (template : Text) (fields : List (Text × Value)) :
    Event :=
  ⟨logger, level, template, [], [("context", .map fields)], none⟩

/-- The first field that an event must not have. -/
def clash? (e : Event) : Option Text :=
  (e.fields.map Prod.fst).find? fixedAttributes.contains

/-- The failure of an event with a field that it must not have. -/
def clashFailure (field : Text) : Failure :=
  .basic .key [.text ("Attempt to overwrite " ++ Quoted.text field ++ " in LogRecord")]

/-- The record of an event at the moment `created`, under the current reconcile ID. -/
def toRecord (e : Event) (created : Value) (reconcileId : Option Text) : Record :=
  let base : Record :=
    { created := created
      level := .text (Level.name e.level)
      logger := .text e.logger
      reconcileId := .null
      template := .text e.template
      arguments := Record.argumentsOf e.arguments
      context := .null
      extras := .empty
      exception := e.exception
      file := .null
      line := .null
      function := .null }
  (e.fields.foldl (fun r f => r.set f.1 f.2) base).set "reconcile_id" (.ofText reconcileId)

end Event
end Log
end CrossClusterKeys
