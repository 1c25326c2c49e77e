import CrossClusterKeys.ApiServer.Call

/-!
# An API server that follows a script

A script says how the operations on Secrets end, one after the other, whatever they ask for.  When
it is used up every object is missing.  The calls are kept, the latest one last.

**Results.**
* `calls_answer`: every call is kept, behind the earlier ones.
-/

namespace CrossClusterKeys
namespace ApiServer

/-- How an operation ends. -/
inductive Ending
  | object (o : Object)
  | failure (e : Raised)

/-- A server that follows a script. -/
structure Script where
  endings : List Ending
  /-- How the configuration is refused, if it is. -/
  refusal : Option Failure
  /-- The calls made so far. -/
  calls : List Call

namespace Script

/-- The failure of an operation on a missing object. -/
def missing : Raised := ⟨.api (.rejected (some 404) (some "Not Found")), []⟩

/-- The outcome of an operation with an object at hand. -/
def outcome (o : Object) : (op : Operation) → op.Outcome
  | .read .. => o
  | .create .. => o
  | .replace .. => o
  | .delete .. => ()

/-- The answer to an operation that ends in some way. -/
def answerTo (op : Operation) : Option Ending → Except Raised op.Outcome
  | some (.object o) => .ok (outcome o op)
  | some (.failure e) => .error e
  | none => .error missing

/-- The answer to reading a configuration. -/
def configuration (s : Script) : Except Failure Unit :=
  match s.refusal with
  | some f => .error f
  | none => .ok ()

/-- The script with one more call made. -/
def noted (s : Script) (c : Call) : Script := { s with calls := s.calls ++ [c] }

/-- The answer to a call, and the script after it. -/
def answer (c : Call) (s : Script) : c.Answer × Script :=
  match c with
  | .loadInCluster => (s.configuration, s.noted .loadInCluster)
  | .loadFile path context => (s.configuration, s.noted (.loadFile path context))
  | .connect => ((), s.noted .connect)
  | .request op timeout =>
    (answerTo op s.endings.head?, { s.noted (.request op timeout) with endings := s.endings.tail })
  | .disconnect => ((), s.noted .disconnect)

theorem calls_answer (c : Call) (s : Script) : (answer c s).2.calls = s.calls ++ [c] := by
  cases c <;> rfl

end Script
end ApiServer
end CrossClusterKeys
