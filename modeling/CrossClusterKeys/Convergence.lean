import CrossClusterKeys.StoreCall

/-!
# Bringing a stored Secret to an expected state

**Algorithm.**  An attempt gets the stored Secret.  If there is none, the expected one is created;
if it is outdated, the overlay of the expected one is written under the version that was read; if
it is neither, nothing is written.  An attempt that ends in a conflict is made again, up to the
number of attempts, after a pause that starts at a tenth of a second and doubles up to two seconds.
-/

namespace CrossClusterKeys
namespace Convergence

/-- The logger of this module. -/
def logger : Text := "libs.k8s.reconciler"

/-- The pause after the first attempt, in seconds. -/
def firstPause : Binary64 := .ofRatio false 1 10

/-- The longest pause, in seconds. -/
def longestPause : Binary64 := .ofRatio false 2 1

/-- What is logged before a write. -/
def announcement (what : Text) (desired : Secret) : Log.Event :=
  .plain logger Level.info what [("resource", .text desired.namespacedName)]

/-- One attempt to make the stored Secret agree with `desired`. -/
def attempt (desired : Secret) : Action Store Secret := ExceptT.mk do
  match ← (Store.getSecret desired.namespace desired.name).run with
  | .ok stored =>
    if desired.outdated stored then do
      Program.log (announcement "Updating secret" desired)
      (Store.updateSecret (desired.overlay stored)).run
    else return .ok stored
  | .error e =>
    if e.isNotFound then do
      Program.log (announcement "Creating secret" desired)
      (Store.createSecret desired).run
    else return .error e

end Convergence

/-- Makes the stored Secret agree with `expected`, with `owner` as its controller if there is one,
and results in the Secret as it is stored then. -/
def converge (expected : Secret) (owner : Option OwnerReference) (attempts : Int) :
    Action Store Secret :=
  Action.retrying Raised.isConflict
    (Action.backoff Convergence.firstPause Convergence.longestPause)
    (Convergence.attempt (expected.desired owner)) (Action.furtherAttempts attempts) 1

end CrossClusterKeys
