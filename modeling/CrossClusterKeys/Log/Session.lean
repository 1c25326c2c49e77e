import CrossClusterKeys.Log.Record

/-!
# Logging sessions

A session is the set-up of the log with all that was written so far.  Every event passes two
levels, the one of its logger and the one of the handler, and is then written once by each handler.

**Rules.**
* Configuring the log replaces all handlers by one.  An unknown level changes nothing.
* The loggers of the API client never let an event below `INFO` pass, because the client's details
  include the data of Secrets.
* The current reconcile ID is stamped on each record.  It is never empty.

**Results.**
* `configure_handlers`: after an accepted configuration there is exactly one handler.
* `setId_eq_error_iff`: an ID is refused exactly if it is empty.
-/

namespace CrossClusterKeys
namespace Log

/-- A handler with its own level; without a format its lines are dropped. -/
structure Handler where
  level : Int
  format : Option Format

/-- The set-up of the log, the current reconcile ID and the lines written so far. -/
structure Session where
  rootLevel : Int
  /-- The level of the API client's loggers, zero if they have none of their own. -/
  clientLevel : Int
  handlers : List Handler
  reconcileId : Option Text
  /-- The reconcile IDs that can be drawn. -/
  ids : Nat → Text
  /-- The number of IDs drawn so far. -/
  drawn : Nat
  /-- The moment stamped on records. -/
  clock : Value
  /-- The lines written so far, as documents. -/
  written : List Json

namespace Session

/-- The session before any set-up: only critical events pass, and nothing is written. -/
def initial (ids : Nat → Text) : Session :=
  ⟨Level.critical, 0, [⟨Level.critical, none⟩], none, ids, 0, .int 0, []⟩

/-- Whether a logger belongs to the API client. -/
def isClient (logger : Text) : Bool :=
  logger = "kubernetes" || (Text.after? "kubernetes." logger).isSome

/-- The level that events of a logger have to reach. -/
def levelOf (s : Session) (logger : Text) : Int :=
  if isClient logger && s.clientLevel ≠ 0 then s.clientLevel else s.rootLevel

/-- Whether an event passes the level of its logger. -/
def passes (s : Session) (e : Event) : Bool := 0 < e.level && s.levelOf e.logger ≤ e.level

/-- The document that a handler writes for an event, if it writes one. -/
def documentOf? (s : Session) (e : Event) (h : Handler) : Option Json :=
  match h.format with
  | some f =>
    if h.level ≤ e.level then ((e.toRecord s.clock s.reconcileId).toJson f).toOption else none
  | none => none

/-- The session after an event. -/
def emit (s : Session) (e : Event) : Session :=
  if s.passes e then { s with written := s.written ++ s.handlers.filterMap (s.documentOf? e) }
  else s

/-- The session after an event whose fields are not known to be allowed. -/
def emitChecked (s : Session) (e : Event) : Except Failure Session :=
  match e.clash? with
  | some field => if s.passes e then .error (Event.clashFailure field) else .ok s
  | none => .ok (s.emit e)

/-- The level of the API client's loggers for a level of the log. -/
def clientFloor (level : Int) : Int := max level Level.info

/-- The session with one handler, at the level with a name. -/
def configure (s : Session) (levelName : Text) (format : Format) : Except Failure Session :=
  match Level.ofName? levelName with
  | none => .error (.ofValue ("Invalid log level: " ++ levelName))
  | some level =>
    .ok { s with
      rootLevel := level
      clientLevel := clientFloor level
      handlers := [⟨level, some format⟩] }

/-- The session with another reconcile ID. -/
def setId (s : Session) (id : Text) : Except Failure Session :=
  if id.isEmpty then .error (.ofValue "Reconcile ID cannot be empty")
  else .ok { s with reconcileId := some id }

/-- The session without a reconcile ID. -/
def clearId (s : Session) : Session := { s with reconcileId := none }

/-- A new reconcile ID. -/
def drawId (s : Session) : Text × Session := (s.ids (s.drawn + 1), { s with drawn := s.drawn + 1 })

theorem configure_handlers {s t : Session} {levelName : Text} {f : Format}
    (h : s.configure levelName f = .ok t) : ∃ level, t.handlers = [⟨level, some f⟩] := by
  unfold configure at h
  split at h
  · simp at h
  · next level _ =>
    simp only [Except.ok.injEq] at h
    exact ⟨level, by rw [← h]⟩

theorem setId_eq_error_iff (s : Session) (id : Text) :
    (∃ e, s.setId id = .error e) ↔ id = [] := by
  unfold setId
  cases id <;> simp

end Session

section Methods

/-- The methods of a logger that write an event, with their levels. -/
def methods : List (Text × Int) :=
  [("debug", 10), ("info", 20), ("warning", 30), ("warn", 30), ("error", 40), ("exception", 40),
    ("critical", 50), ("fatal", 50)]

/-- The attributes of a logger that are no methods, by the kind of their value. -/
def otherAttributes : List (Text × Text) :=
  [("name", "str"), ("level", "int"), ("propagate", "bool"), ("disabled", "bool"),
    ("handlers", "list"), ("filters", "list"), ("manager", "Manager"), ("root", "RootLogger"),
    ("_cache", "dict")]

/-- The methods of a logger that take something else than an event, with their refusals. -/
def otherMethods : List (Text × Text) :=
  [("log", "Logger.log() missing 1 required positional argument: 'msg'"),
    ("_log", "Logger._log() missing 2 required positional arguments: 'msg' and 'args'"),
    ("handle", "Logger.handle() got an unexpected keyword argument 'extra'"),
    ("filter", "Filterer.filter() got an unexpected keyword argument 'extra'")]

/-- The arguments that say what is logged; no field has one of their names. -/
def ownArguments : List Text := ["logger", "level", "message"]

/-- The name of a logger, the root's if there is none. -/
def loggerName (logger : Option Text) : Text :=
  match logger with
  | some t => if t.isEmpty then "root" else t
  | none => "root"

/-- The kind of a logger, as error messages name it. -/
def loggerKind (logger : Text) : Text := if logger = "root" then "RootLogger" else "Logger"

/-- The kind of the logger above a logger. -/
def parentKind (logger : Text) : Text :=
  if logger = "root" then "NoneType"
  else if (Text.after? "kubernetes." logger).isSome then "Logger"
  else "RootLogger"

/-- Why an attribute of a logger writes no event. -/
def methodRefusal (logger name : Text) : Failure :=
  let notCallable (kind : Text) : Failure :=
    .ofArgument ("'" ++ kind ++ "' object is not callable")
  match otherMethods.lookup name, otherAttributes.lookup name with
  | some refusal, _ => .ofArgument refusal
  | none, some kind => notCallable kind
  | none, none =>
    if name = "parent" then notCallable (parentKind logger)
    else .ofAttribute ("'" ++ loggerKind logger ++ "' object has no attribute '" ++ name ++ "'")

/-- The event of a method, named in capital or small letters, with fields as its context. -/
def eventOf (logger : Option Text) (method message : Text) (fields : List (Text × Value)) :
    Except Failure Event :=
  let name := method.lower
  match (fields.map Prod.fst).find? ownArguments.contains, methods.lookup name with
  | some field, _ =>
    .error (.ofArgument ("log_with_context() got multiple values for argument " ++
      Quoted.text field))
  | none, some level =>
    let e := Event.withContext (loggerName logger) level message fields
    .ok (if name = "exception" then { e with exception := some .missing } else e)
  | none, none => .error (methodRefusal (loggerName logger) name)

end Methods

end Log
end CrossClusterKeys
