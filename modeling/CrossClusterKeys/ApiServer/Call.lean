import CrossClusterKeys.ApiServer.Object
import CrossClusterKeys.Program

/-!
# Calls of the API server

**Calls.**
* `loadInCluster` and `loadFile` read the configuration that says where the server is, and
  `connect` opens connections as it says.
* `request` sends one operation on Secrets and waits for its answer for a bounded time.
* `disconnect` gives the connections up.

**Rules.**
* A deletion may name the UID of the object it is meant for.
* A write may name the manager that the server records for the fields it sets.
-/

namespace CrossClusterKeys
namespace ApiServer

/-- An operation on Secrets. -/
inductive Operation
  | read (name «namespace» : Text)
  | create («namespace» : Text) (body : Object) (manager : Option Text)
  | replace (name «namespace» : Text) (body : Object) (manager : Option Text)
  | delete (name «namespace» : Text) (uid : Option Text)

/-- What the server answers to an operation that succeeds. -/
def Operation.Outcome : Operation → Type
  | .read .. => Object
  | .create .. => Object
  | .replace .. => Object
  | .delete .. => Unit

/-- A call of the API server. -/
inductive Call
  | loadInCluster
  | loadFile (path context : Option Text)
  | connect
  | request (o : Operation) (timeout : Binary64)
  | disconnect

/-- The type of the answer to a call. -/
def Call.Answer : Call → Type
  | .loadInCluster => Except Failure Unit
  | .loadFile .. => Except Failure Unit
  | .connect => Unit
  | .request o _ => Except Raised o.Outcome
  | .disconnect => Unit

end ApiServer

/-- The service of the API server. -/
def ApiServer : Service := ⟨ApiServer.Call, ApiServer.Call.Answer⟩

namespace ApiServer

/-- Sends one operation. -/
def request (o : Operation) (timeout : Binary64) : Action ApiServer o.Outcome :=
  ExceptT.mk (Program.call (S := ApiServer) (.request o timeout))

end ApiServer
end CrossClusterKeys
