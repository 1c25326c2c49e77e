import CrossClusterKeys.StoreCall

/-!
# Interference with a store

Between the calls of a program others may write to the store, and a call may fail on its way there
or its answer on the way back.  A `Disturbance` says what happens around which call.

**Rules.**
* A disturbance belongs to one kind of call and to one occurrence of it, counted from 1, or to all.
* Its own calls go to the store directly; their failures concern nobody.
* Before a call it may fail, and the call is then not passed on; after a call it may fail, and the
  answer is then lost.
-/

namespace CrossClusterKeys

/-- The kinds of calls of a store. -/
inductive CallKind
  | get
  | create
  | update
  | delete
  | close
  deriving DecidableEq, Repr

namespace StoreCall

/-- The kind of a call. -/
def kind : StoreCall → CallKind
  | .get .. => .get
  | .create _ => .create
  | .update _ => .update
  | .delete .. => .delete
  | .close => .close

/-- The answer of a call that failed. -/
def refusal (e : Raised) : (c : StoreCall) → c.Answer
  | .get .. => (.error e : Except Raised Secret)
  | .create _ => (.error e : Except Raised Secret)
  | .update _ => (.error e : Except Raised Secret)
  | .delete .. => (.error e : Except Raised Unit)
  | .close => (.error e : Except Raised Unit)

end StoreCall

/-- Something that happens around a call. -/
structure Disturbance where
  kind : CallKind
  /-- The occurrence of the call, zero for every one. -/
  occurrence : Nat
  /-- Whether it happens after the call. -/
  after : Bool
  /-- The calls that others make. -/
  calls : List StoreCall
  /-- The failure that the caller sees. -/
  failure : Option Raised

namespace Interference

/-- The calls made so far, the latest one last. -/
abbrev Trace := List StoreCall

/-- Whether a disturbance happens on one side of the `n`-th call of a kind. -/
def strikes (kind : CallKind) (n : Nat) (after : Bool) (d : Disturbance) : Bool :=
  d.kind = kind && d.after = after && (d.occurrence = 0 || d.occurrence = n)

/-- Calls of others, whose answers nobody waits for. -/
def others : List StoreCall → Program Store Unit
  | [] => pure ()
  | c :: cs => do
    let _ ← Program.call (S := Store) c
    others cs

/-- Lets disturbances happen, up to the first that makes the caller see a failure. -/
def happen : List Disturbance → Program Store (Option Raised)
  | [] => pure none
  | d :: ds => do
    others d.calls
    match d.failure with
    | some e => return some e
    | none => happen ds

/-- A call with the disturbances around it; the trace holds the calls before it. -/
def around (ds : List Disturbance) (c : StoreCall) (before : Trace) :
    Program Store (c.Answer × Trace) := do
  let trace := before ++ [c]
  let n := (trace.filter fun d => d.kind = c.kind).length
  match ← happen (ds.filter (strikes c.kind n false)) with
  | some e => return (c.refusal e, trace)
  | none => do
    let a ← Program.call (S := Store) c
    if c.succeeded a then do
      match ← happen (ds.filter (strikes c.kind n true)) with
      | some e => return (c.refusal e, trace)
      | none => return (a, trace)
    else return (a, trace)

end Interference
end CrossClusterKeys
