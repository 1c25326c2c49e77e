import CrossClusterKeys.Program
import CrossClusterKeys.Secret

/-!
# Calls of a resource store

A resource store keeps Secrets by namespace and name and answers one call at a time.  Missing
Secrets are failures, never answers.

**Calls.**
* `get` answers the stored Secret with its UID and version.
* `create` answers the new Secret; a Secret of that name is a conflict.
* `update` replaces a Secret; a version that is given has to be the stored one.
* `delete` removes a Secret; a UID that is given has to be the stored one.
* `close` gives up what the store holds for its caller.
-/

namespace CrossClusterKeys

/-- A call of a resource store. -/
inductive StoreCall
  | get («namespace» name : Text)
  | create (s : Secret)
  | update (s : Secret)
  | delete («namespace» name : Text) (uid : Option Text)
  | close

/-- The type of the answer to a call. -/
def StoreCall.Answer : StoreCall → Type
  | .get .. => Except Raised Secret
  | .create _ => Except Raised Secret
  | .update _ => Except Raised Secret
  | .delete .. => Except Raised Unit
  | .close => Except Raised Unit

namespace StoreCall

/-- Whether a call was answered without a failure. -/
def succeeded : (c : StoreCall) → c.Answer → Bool
  | .get .., a => Except.isOk (α := Secret) a
  | .create _, a => Except.isOk (α := Secret) a
  | .update _, a => Except.isOk (α := Secret) a
  | .delete .., a => Except.isOk (α := Unit) a
  | .close, a => Except.isOk (α := Unit) a

end StoreCall

/-- The service of a resource store. -/
def Store : Service := ⟨StoreCall, StoreCall.Answer⟩

namespace Store

/-- The stored Secret of a name. -/
def getSecret («namespace» name : Text) : Action Store Secret :=
  ExceptT.mk (Program.call (S := Store) (.get «namespace» name))

/-- Stores a new Secret. -/
def createSecret (s : Secret) : Action Store Secret :=
  ExceptT.mk (Program.call (S := Store) (.create s))

/-- Replaces a stored Secret. -/
def updateSecret (s : Secret) : Action Store Secret :=
  ExceptT.mk (Program.call (S := Store) (.update s))

/-- Removes a stored Secret. -/
def deleteSecret («namespace» name : Text) (uid : Option Text) : Action Store Unit :=
  ExceptT.mk (Program.call (S := Store) (.delete «namespace» name uid))

/-- Gives up what the store holds. -/
def close : Action Store Unit := ExceptT.mk (Program.call (S := Store) .close)

end Store
end CrossClusterKeys
