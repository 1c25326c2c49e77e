import CrossClusterKeys.Log.Session

/-!
# Scopes of reconcile IDs

A scope sets a reconcile ID while it is open.  Scopes are closed in the reverse order of their
opening, each one bringing back the ID that was current before it.

**Rules.**
* A scope that is given no ID, or an empty one, draws a new one.
* Closing a scope disregards what was set or cleared inside.

**Results.**
* `close_open`: a scope that is closed right after its opening leaves the current ID as it was.
-/

namespace CrossClusterKeys
namespace Log

/-- A session with its open scopes. -/
structure Scopes where
  session : Session
  /-- The IDs to bring back, the one of the innermost scope first. -/
  saved : List (Option Text)

namespace Scopes

/-- No scope is open. -/
def none (s : Session) : Scopes := ⟨s, []⟩

/-- The ID of a new scope, and the session after it was found. -/
def idFor (s : Session) (id : Option Text) : Text × Session :=
  match id with
  | some t => if t.isEmpty then s.drawId else (t, s)
  | Option.none => s.drawId

/-- Opens a scope. -/
def enter (x : Scopes) (id : Option Text) : Text × Scopes :=
  let (own, s) := idFor x.session id
  (own, ⟨{ s with reconcileId := some own }, x.session.reconcileId :: x.saved⟩)

/-- Closes the innermost scope, if one is open. -/
def leave (x : Scopes) : Scopes :=
  match x.saved with
  | before :: saved => ⟨{ x.session with reconcileId := before }, saved⟩
  | [] => x

theorem close_open (x : Scopes) (id : Option Text) :
    (x.enter id).2.leave.session.reconcileId = x.session.reconcileId ∧
      (x.enter id).2.leave.saved = x.saved := ⟨rfl, rfl⟩

end Scopes
end Log
end CrossClusterKeys
