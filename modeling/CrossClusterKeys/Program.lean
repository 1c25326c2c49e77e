import CrossClusterKeys.Log.Session

/-!
# Programs as trees of requests

A program is a value: either it is done, or it asks a request and goes on with the reply.  What
the requests mean is settled afterwards, by what the program is run over.

**Requests.**  Every program may use its surroundings: it writes to the log, waits, and handles the
current reconcile ID.  Beyond that it calls a `Service`, whose answers depend on the call.

**Running.**
* `serve` puts a program in place of each call, `serveWith` one that carries a state along.
* `run` answers the calls from a state.

**Results.**
* `bind_assoc`, `bind_done`: sequencing obeys the laws of a monad.
* `run_bind`: running one program after the other is running both in turn.
-/

namespace CrossClusterKeys

/-- The calls of a service and the type of the answer to each. -/
structure Service where
  Call : Type
  Answer : Call → Type

/-- What a program may ask for. -/
inductive Request (S : Service)
  | call (c : S.Call)
  | log (e : Log.Event)
  | configureLog (levelName : Text) (format : Log.Format)
  /-- Waits for a number of seconds. -/
  | pause (seconds : Binary64)
  | currentId
  | setId (id : Option Text)
  | drawId

/-- The type of the reply to a request. -/
def Request.Reply {S : Service} : Request S → Type
  | .call c => S.Answer c
  | .log _ => Unit
  | .configureLog .. => Except Failure Unit
  | .pause _ => Unit
  | .currentId => Option Text
  | .setId _ => Unit
  | .drawId => Text

/-- A program that calls the service `S` and results in an `α`. -/
inductive Program (S : Service) (α : Type)
  | done (a : α)
  | ask (r : Request S) (k : r.Reply → Program S α)

namespace Program

variable {S T : Service} {α β γ σ τ : Type}

/-- One program after another. -/
def bind : Program S α → (α → Program S β) → Program S β
  | .done a, f => f a
  | .ask r k, f => .ask r fun reply => (k reply).bind f

instance : Monad (Program S) where
  pure := .done
  bind := bind

theorem bind_done (p : Program S α) : p.bind .done = p := by
  induction p with
  | done a => rfl
  | ask r k ih => simp [bind, ih]

theorem bind_assoc (p : Program S α) (f : α → Program S β) (g : β → Program S γ) :
    (p.bind f).bind g = p.bind fun a => (f a).bind g := by
  induction p with
  | done a => rfl
  | ask r k ih => simp [bind, ih]

instance : LawfulMonad (Program S) :=
  LawfulMonad.mk' _ (fun p => bind_done p) (fun _ _ => rfl) bind_assoc

/-- A call of the service. -/
def call (c : S.Call) : Program S (S.Answer c) := .ask (.call c) .done

/-- Writes an event to the log. -/
def log (e : Log.Event) : Program S Unit := .ask (.log e) .done

/-- Configures the log. -/
def configureLog (levelName : Text) (format : Log.Format) : Program S (Except Failure Unit) :=
  .ask (.configureLog levelName format) .done

/-- Waits for a number of seconds. -/
def pause (seconds : Binary64) : Program S Unit := .ask (.pause seconds) .done

/-- The current reconcile ID. -/
def currentId : Program S (Option Text) := .ask .currentId .done

/-- Makes an ID the current one, or none. -/
def setId (id : Option Text) : Program S Unit := .ask (.setId id) .done

/-- A new reconcile ID. -/
def drawId : Program S Text := .ask .drawId .done

/-- The program with another one in place of every call. -/
def serve (h : (c : S.Call) → Program T (S.Answer c)) : Program S α → Program T α
  | .done a => .done a
  | .ask r k =>
    match r, k with
    | .call c, k => (h c).bind fun reply => (k reply).serve h
    | .log e, k => .ask (.log e) fun reply => (k reply).serve h
    | .configureLog l f, k => .ask (.configureLog l f) fun reply => (k reply).serve h
    | .pause s, k => .ask (.pause s) fun reply => (k reply).serve h
    | .currentId, k => .ask .currentId fun reply => (k reply).serve h
    | .setId id, k => .ask (.setId id) fun reply => (k reply).serve h
    | .drawId, k => .ask .drawId fun reply => (k reply).serve h

/-- The program with another one in place of every call, which carries a state along. -/
def serveWith (h : (c : S.Call) → τ → Program T (S.Answer c × τ)) :
    Program S α → τ → Program T (α × τ)
  | .done a, t => .done (a, t)
  | .ask r k, t =>
    match r, k with
    | .call c, k => (h c t).bind fun reply => (k reply.1).serveWith h reply.2
    | .log e, k => .ask (.log e) fun reply => (k reply).serveWith h t
    | .configureLog l f, k => .ask (.configureLog l f) fun reply => (k reply).serveWith h t
    | .pause s, k => .ask (.pause s) fun reply => (k reply).serveWith h t
    | .currentId, k => .ask .currentId fun reply => (k reply).serveWith h t
    | .setId id, k => .ask (.setId id) fun reply => (k reply).serveWith h t
    | .drawId, k => .ask .drawId fun reply => (k reply).serveWith h t

end Program

/-- What surrounds a running program. -/
structure Surroundings where
  session : Log.Session
  /-- The seconds waited so far, one entry for each pause. -/
  pauses : List Binary64

namespace Surroundings

/-- The surroundings with another reconcile ID. -/
def withId (w : Surroundings) (id : Option Text) : Surroundings :=
  { w with session := { w.session with reconcileId := id } }

/-- The surroundings after the log was configured, unchanged if that is refused. -/
def configureLog (w : Surroundings) (levelName : Text) (f : Log.Format) :
    Except Failure Unit × Surroundings :=
  match w.session.configure levelName f with
  | .ok s => (.ok (), { w with session := s })
  | .error e => (.error e, w)

end Surroundings

namespace Program

variable {S : Service} {α β σ : Type}

/-- Runs a program; `h` answers its calls from a state. -/
def run (h : (c : S.Call) → σ → S.Answer c × σ) :
    Program S α → Surroundings → σ → α × Surroundings × σ
  | .done a, w, s => (a, w, s)
  | .ask r k, w, s =>
    match r, k with
    | .call c, k => (k (h c s).1).run h w (h c s).2
    | .log e, k => (k ()).run h { w with session := w.session.emit e } s
    | .configureLog l f, k => (k (w.configureLog l f).1).run h (w.configureLog l f).2 s
    | .pause p, k => (k ()).run h { w with pauses := w.pauses ++ [p] } s
    | .currentId, k => (k w.session.reconcileId).run h w s
    | .setId id, k => (k ()).run h (w.withId id) s
    | .drawId, k =>
      (k w.session.drawId.1).run h { w with session := w.session.drawId.2 } s

theorem run_bind (h : (c : S.Call) → σ → S.Answer c × σ) (p : Program S α)
    (f : α → Program S β) (w : Surroundings) (s : σ) :
    (p.bind f).run h w s =
      (f (p.run h w s).1).run h (p.run h w s).2.1 (p.run h w s).2.2 := by
  induction p generalizing w s with
  | done a => rfl
  | ask r k ih => cases r <;> exact ih _ _ _

end Program

/-- A program that may fail. -/
abbrev Action (S : Service) (α : Type) := ExceptT Raised (Program S) α

namespace Action

variable {S : Service} {α : Type}

/-- An action whose outcome is known. -/
def ofExcept (e : Except Raised α) : Action S α := ExceptT.mk (.done e)

/-- Writes an event to the log. -/
def log (e : Log.Event) : Action S Unit := ExceptT.lift (Program.log e)

/-- Runs an action under a reconcile ID, a new one if none or an empty one is given.  Afterwards
the ID is again what it was before, also if the action failed. -/
def underId (id : Option Text) (body : Action S α) : Action S α := ExceptT.mk do
  let own ← match id with
    | some t => if t.isEmpty then Program.drawId else pure t
    | none => Program.drawId
  let before ← Program.currentId
  Program.setId (some own)
  let outcome ← body.run
  Program.setId before
  return outcome

/-- Runs an action again while its failure is one of those in `again`, at most `more` further
times; before the attempt after the `n`-th it waits for `wait n`. -/
def retrying (again : Raised → Bool) (wait : Nat → Binary64) (body : Action S α) :
    Nat → Nat → Action S α
  | 0, _ => body
  | more + 1, n => ExceptT.mk do
    match ← body.run with
    | .ok a => return .ok a
    | .error e =>
      if again e then do
        Program.pause (wait n)
        (retrying again wait body more (n + 1)).run
      else return .error e

/-- The further attempts that a number of attempts allows, one attempt always being made. -/
def furtherAttempts (attempts : Int) : Nat := (attempts - 1).toNat

/-- The pause after the `n`-th attempt: `base` doubled with every attempt, between zero and
`most`. -/
def backoff (base most : Binary64) (n : Nat) : Binary64 :=
  let zero : Binary64 := .finite false 0 0
  let doubled := base.shift (n - 1)
  let capped := if most.lt doubled then most else doubled
  if zero.lt capped then capped else zero

end Action
end CrossClusterKeys
