import CrossClusterKeys.ApiServer.Client
import CrossClusterKeys.Proofs.Asking

/-!
# What a client of the API server asks for

A client asks for operations under its own time-out, waits and reports.  It sets no reconcile ID and
it stays the client it was, but for its connections.

**Results.**
* `asks_connect`: a new client has the time-out and the attempts that it is made from.
* `asks_answer`: every call of the store is answered by what the client may ask for.
-/

namespace CrossClusterKeys
namespace ApiServer
namespace Client

/-- A client whose operations have the time-out may ask for this. -/
def MayAsk (timeout : Binary64) : Request ApiServer → Prop
  | .call (.request _ t) => t = timeout
  | .call .disconnect => True
  | .log _ => True
  | .pause _ => True
  | _ => False

/-- Nothing is sent before there is a client. -/
def BeforeSending : Request ApiServer → Prop
  | .call (.request ..) => False
  | .call _ => True
  | .log _ => True
  | _ => False

/-- A new client has the time-out and the attempts that it is made from. -/
theorem asks_connect (o : Options) : (connect o).run.Asks BeforeSending fun outcome =>
    ∀ c, outcome = .ok c → c.timeout = o.timeout ∧ c.attempts = o.attempts := by
  have hload : (loadConfiguration o).Asks BeforeSending Anything := by
    unfold loadConfiguration
    cases o.inCluster with
    | true => exact Program.asks_request trivial
    | false => exact Program.asks_request trivial
  refine Program.asks_bind hload fun loaded _ => ?_
  cases loaded with
  | error f =>
    intro c hc
    cases hc
  | ok u =>
    refine Program.asks_bind (Program.asks_request trivial) fun _ _ => ?_
    refine Program.asks_bind (Program.asks_request trivial) fun _ _ => ?_
    intro c hc
    cases hc
    exact ⟨rfl, rfl⟩

variable (c : Client)

theorem asks_send (resource : Text) (o : Operation) :
    (c.send resource o).run.Asks (MayAsk c.timeout) Anything := by
  refine Program.asks_bind (Action.asks_retrying (fun _ => trivial) ?_ _ _) fun outcome _ => trivial
  exact Program.asks_request rfl

/-- A write is sent, reported and read back. -/
theorem asks_write (resource : Text) (o : Operation) (e : Log.Event)
    (f : o.Outcome → Except Raised Secret) :
    (do
      let outcome ← c.send resource o
      Action.log e
      Action.ofExcept (f outcome) : Action ApiServer Secret).run.Asks (MayAsk c.timeout)
        Anything := by
  refine Action.asks_action_bind (c.asks_send resource o) fun outcome => ?_
  exact Action.asks_action_bind (Program.asks_request trivial) fun _ => Action.asks_ofExcept _

theorem asks_close : c.close.Asks (MayAsk c.timeout) fun c' => c'.timeout = c.timeout := by
  unfold close
  split
  · exact Program.asks_bind (Program.asks_request trivial) fun _ _ => rfl
  · exact rfl

/-- Every call of the store is answered by what the client may ask for, and leaves a client with
the same time-out. -/
theorem asks_answer (call : StoreCall) :
    (answer call c).Asks (MayAsk c.timeout) fun out => out.2.timeout = c.timeout := by
  cases call with
  | get «namespace» name =>
    refine Program.asks_bind (Q := Anything) ?_ fun _ _ => rfl
    exact Action.asks_action_bind (c.asks_send _ _) fun _ => Action.asks_ofExcept _
  | create s => exact Program.asks_bind (c.asks_write _ _ _ _) fun _ _ => rfl
  | update s => exact Program.asks_bind (c.asks_write _ _ _ _) fun _ _ => rfl
  | delete «namespace» name uid =>
    refine Program.asks_bind (Q := Anything) ?_ fun _ _ => rfl
    have hsend := c.asks_send (namespaced «namespace» name) (.delete name «namespace» uid)
    exact Action.asks_action_bind hsend fun _ => Program.asks_request trivial
  | close => exact Program.asks_bind c.asks_close fun _ h => h

end Client
end ApiServer
end CrossClusterKeys
