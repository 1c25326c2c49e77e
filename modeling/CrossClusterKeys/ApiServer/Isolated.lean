import CrossClusterKeys.ApiServer.Call

/-!
# A process without a cluster

Where no cluster can be reached, every way to a configuration is refused, and with it every client.

**Rules.**
* A workload inside a cluster finds the server by two variables of its environment, and its
  credentials in a file, which is missing here.
* No configuration file names a cluster.

**Results.**
* `configuration_refused`: neither way gives a configuration.
-/

namespace CrossClusterKeys
namespace ApiServer
namespace Isolated

/-- The variables that say where the server of the surrounding cluster is. -/
def addressVariables : List Text := ["KUBERNETES_SERVICE_HOST", "KUBERNETES_SERVICE_PORT"]

/-- Why there is no configuration of a surrounding cluster. -/
def inClusterRefusal (environment : KeyMap Text) : Text :=
  let values := addressVariables.map environment.get?
  if values.any Option.isNone then "Service host/port is not set."
  else if values.any fun v => v.any List.isEmpty then "Service host/port is set but empty."
  else "Service token file does not exist."

/-- Why there is no configuration in files. -/
def fileRefusal : Text := "Invalid kube-config file. No configuration found."

/-- The answer to a call. -/
def answerTo (environment : KeyMap Text) (c : Call) : c.Answer :=
  match c with
  | .loadInCluster => (.error (.configuration (inClusterRefusal environment)) : Except Failure Unit)
  | .loadFile .. => (.error (.configuration fileRefusal) : Except Failure Unit)
  | .connect => ()
  | .request o _ =>
    (.error ⟨.api (.transport false "no route to the server"), []⟩ : Except Raised o.Outcome)
  | .disconnect => ()

/-- The answer to a call, with nothing to remember. -/
def answer (environment : KeyMap Text) (c : Call) (u : Unit) : c.Answer × Unit :=
  (answerTo environment c, u)

theorem configuration_refused (environment : KeyMap Text) (path context : Option Text) :
    (∃ f, answerTo environment .loadInCluster = (.error f : Except Failure Unit)) ∧
      ∃ f, answerTo environment (.loadFile path context) = (.error f : Except Failure Unit) :=
  ⟨⟨_, rfl⟩, ⟨_, rfl⟩⟩

end Isolated
end ApiServer
end CrossClusterKeys
