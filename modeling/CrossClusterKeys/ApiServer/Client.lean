import CrossClusterKeys.ApiServer.Call
import CrossClusterKeys.StoreCall

/-!
# A resource store behind the API server

The client answers the calls of a resource store by operations of the API server.

**Rules.**
* An operation is sent again only after a failure that may pass: the server could not be reached,
  it asked to slow down, or it failed itself.
* The pause after the `n`-th attempt doubles from attempt to attempt, up to ten seconds.
* A failure of the server becomes one of the store, with the former as its cause; any other failure
  is passed on as it is.

**Results.**
* `explain_cause`: which failure of the server becomes which one of the store.
* `explainNamed_of_named`: every failure can be explained for an object with a name.
-/

namespace CrossClusterKeys
namespace ApiServer

/-- The name of this store in failures and in the log. -/
def backend : Text := "kubernetes"

/-- The logger of this module. -/
def logger : Text := "libs.k8s.kubernetes_backend"

/-- Whether a status means that the server may answer later. -/
def isPassing (status : Int) : Bool := status = 429 || 500 ≤ status

/-- Whether a failure may pass. -/
def isTransient : Failure → Bool
  | .api (.transport ..) => true
  | .api (.rejected status _) => isPassing (status.getD 0)
  | _ => false

/-- The failure of the store that an unexpected status stands for. -/
def explainStatus (resource : Text) (status : Int) (reason : Option Text) : StoreFailure :=
  let line : Text := "HTTP " ++ Digits.ofInt status ++ " " ++ reason.getD "None"
  if status = 404 then .notFound resource backend []
  else if status = 409 then
    let known := reason.getD []
    .conflict resource backend (if known.isEmpty then "conflict" else known)
  else if status = 401 || status = 403 then
    .access resource backend (line ++ ". Verify RBAC grants access to secrets.")
  else if isPassing status then .access resource backend (line ++ " after retries")
  else ⟨.general, "API request rejected: " ++ line, some resource, some backend⟩

/-- The failure of the store that a failure of the server stands for. -/
def explain (resource : Text) : ApiFailure → StoreFailure
  | .transport _ message =>
    .access resource backend ("API server unreachable: " ++ message)
  | .rejected status reason => explainStatus resource (status.getD 0) reason

theorem explain_cause (resource : Text) (status : Int) (reason : Option Text) :
    (explain resource (.rejected (some status) reason)).cause =
      if status = 404 then .notFound
      else if status = 409 then .conflict
      else if status = 401 ∨ status = 403 ∨ isPassing status = true then .access
      else .general := by
  simp only [explain, explainStatus, Option.getD_some]
  split
  · rfl
  · split
    · rfl
    · by_cases h : status = 401 ∨ status = 403
      · simp [h, StoreFailure.access, ← or_assoc]
      · by_cases hp : isPassing status = true <;> simp [h, hp, StoreFailure.access]

/-- The failure of the store that any failure stands for. -/
def explainAny (resource : Text) : Failure → StoreFailure
  | .api f => explain resource f
  | f =>
    ⟨.general, "Unexpected API client error: " ++ f.message, some resource, some backend⟩

/-- The failure of the store that any failure stands for, if the object is named as it has to be:
only a failure without a cause of its own may leave it unnamed. -/
def explainNamed (resource : Text) (f : Failure) : Except Failure StoreFailure :=
  let explained := explainAny resource f
  if explained.cause = .general || !resource.isEmpty then .ok explained
  else .error (.ofArgument "resource must be a non-empty string")

theorem explainNamed_of_named {resource : Text} (h : resource ≠ []) (f : Failure) :
    explainNamed resource f = .ok (explainAny resource f) := by
  simp [explainNamed, h]

/-- How the store's callers see a failure. -/
def raised (resource : Text) (e : Raised) : Raised :=
  match e.failure with
  | .api _ =>
    match explainNamed resource e.failure with
    | .ok explained => ⟨.store explained, e.failure :: e.causes⟩
    | .error refusal => ⟨refusal, []⟩
  | _ => e

/-- A client of the API server. -/
structure Client where
  /-- How long an answer is waited for, in seconds. -/
  timeout : Binary64
  /-- The number of attempts at an operation, one being made in any case. -/
  attempts : Int
  /-- The pause after the first attempt, in seconds. -/
  firstPause : Binary64
  /-- The manager named on writes. -/
  manager : Option Text
  /-- Whether the client has connections of its own. -/
  connected : Bool

/-- What a client is made from, besides where the server is. -/
structure Options where
  configPath : Option Text
  context : Option Text
  inCluster : Bool
  timeout : Binary64
  attempts : Int
  firstPause : Binary64
  manager : Option Text

namespace Options

/-- The time-out of a client, in seconds, if no other is given. -/
def defaultTimeout : Binary64 := .ofInt 30

/-- The attempts of a client if no other number is given. -/
def defaultAttempts : Int := 3

/-- The first pause of a client, in seconds, if no other is given. -/
def defaultPause : Binary64 := .ofInt 1

end Options

namespace Client

/-- The longest pause between attempts, in seconds. -/
def longestPause : Binary64 := .ofInt 10

/-- A client over connections that are there already. -/
def ofOptions (o : Options) : Client := ⟨o.timeout, o.attempts, o.firstPause, o.manager, false⟩

/-- Reads the configuration that the options name. -/
def loadConfiguration (o : Options) : Program ApiServer (Except Failure Unit) :=
  if o.inCluster then Program.call (S := ApiServer) .loadInCluster
  else Program.call (S := ApiServer) (.loadFile o.configPath o.context)

/-- What is logged about a new client. -/
def connectionEvent (o : Options) : Log.Event :=
  .plain logger Level.info "Kubernetes client configured"
    [("in_cluster", .bool o.inCluster), ("kube_context", .ofText o.context),
      ("backend", .text backend)]

/-- A client with connections of its own. -/
def connect (o : Options) : Action ApiServer Client := ExceptT.mk do
  match ← loadConfiguration o with
  | .error f =>
    let reason := "Could not load cluster configuration: " ++ f.message
    return .error ⟨.store (.access "kubeconfig" backend reason), [f]⟩
  | .ok _ => do
    Program.call (S := ApiServer) .connect
    Program.log (connectionEvent o)
    return .ok { ofOptions o with connected := true }

/-- Sends an operation, again while the failure may pass. -/
def send (c : Client) (resource : Text) (o : Operation) : Action ApiServer o.Outcome :=
  ExceptT.mk do
    let outcome ← (Action.retrying (fun e => isTransient e.failure)
      (Action.backoff c.firstPause longestPause) (request o c.timeout)
      (Action.furtherAttempts c.attempts) 1).run
    return outcome.mapError (raised resource)

/-- The manager to name on a write, none if it is empty. -/
def manager? (c : Client) : Option Text := c.manager.filter fun t => !t.isEmpty

/-- What is logged about a write. -/
def writeEvent (what resource : Text) : Log.Event :=
  .plain logger Level.info what [("resource", .text resource), ("backend", .text backend)]

/-- The stored Secret of a name. -/
def get (c : Client) («namespace» name : Text) : Action ApiServer Secret := do
  let o ← c.send (namespaced «namespace» name) (.read name «namespace»)
  Action.ofExcept (Object.toSecret o)

/-- Stores a new Secret. -/
def create (c : Client) (s : Secret) : Action ApiServer Secret := do
  let o ← c.send s.namespacedName (.create s.namespace (.ofSecret s) c.manager?)
  Action.log (writeEvent "Secret created" s.namespacedName)
  Action.ofExcept (Object.toSecret o)

/-- Replaces a stored Secret. -/
def update (c : Client) (s : Secret) : Action ApiServer Secret := do
  let o ← c.send s.namespacedName (.replace s.name s.namespace (.ofSecret s) c.manager?)
  Action.log (writeEvent "Secret updated" s.namespacedName)
  Action.ofExcept (Object.toSecret o)

/-- Removes a stored Secret. -/
def delete (c : Client) («namespace» name : Text) (uid : Option Text) :
    Action ApiServer Unit := do
  let resource := namespaced «namespace» name
  c.send resource (.delete name «namespace» uid)
  Action.log (.plain logger Level.info "Secret deleted"
    [("resource", .text resource), ("uid", .ofText uid), ("backend", .text backend)])

/-- Gives up the client's own connections, if it still has them. -/
def close (c : Client) : Program ApiServer Client :=
  if c.connected then do
    Program.call (S := ApiServer) .disconnect
    return { c with connected := false }
  else return c

/-- Answers a call of a resource store. -/
def answer (call : StoreCall) (c : Client) : Program ApiServer (call.Answer × Client) :=
  match call with
  | .get «namespace» name => do return (← (c.get «namespace» name).run, c)
  | .create s => do return (← (c.create s).run, c)
  | .update s => do return (← (c.update s).run, c)
  | .delete «namespace» name uid => do return (← (c.delete «namespace» name uid).run, c)
  | .close => do return ((.ok () : Except Raised Unit), ← c.close)

end Client
end ApiServer
end CrossClusterKeys
