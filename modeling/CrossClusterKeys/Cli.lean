import CrossClusterKeys.Arguments
import CrossClusterKeys.Keystore
import CrossClusterKeys.SecretStore
import CrossClusterKeys.Settings

/-!
# The command line

**Commands.**
* `show` prints the aliases of a cluster with their key IDs.
* `set` records the key of an alias; the key itself is read from a file or the standard input, so
  that it never is an argument.
* `delete` forgets an alias.
* `keystore` prints the names of the Secrets that the keystore of a cluster is built from.

**Rules.**
* Every command runs under a reconcile ID of its own, and the store is closed behind it.
* A failure that an operator can act on is reported in one line and ends with the code 1; refused
  arguments end with the code 2.

**Results.**
* `conclude_code`: a failure that is reported never ends with the code 0.
-/

namespace CrossClusterKeys
namespace Cli

section Grammar

/-- The name of the program. -/
def program : Text := "remote-cluster-keys"

/-- The option that asks for help. -/
def helpRule : OptionRule := ⟨["-h", "--help"], false, [], false⟩

/-- An option with a value. -/
def valueRule (name : Text) (choices : List Text) (needed : Bool) : OptionRule :=
  ⟨[name], true, choices, needed⟩

/-- The commands. -/
def commandNames : List Text := ["show", "set", "delete", "keystore"]

/-- The arguments in front of a command. -/
def grammar : Grammar :=
  ⟨program, [helpRule, valueRule "--backend" (Backend.all.map Backend.name) false,
    valueRule "--log-level" [] false], [.command "command" commandNames]⟩

/-- The slots of a command behind those that all commands have. -/
def ownSlots (command : Text) : List Slot :=
  if command = "set" then [.word "alias", .word "key_id"]
  else if command = "delete" then [.word "alias"]
  else []

/-- The options of a command besides those that all commands have. -/
def ownOptions (command : Text) : List OptionRule :=
  if command = "set" then [valueRule "--encoded-file" [] true] else []

/-- The arguments of a command. -/
def commandGrammar (command : Text) : Grammar :=
  ⟨program ++ " " ++ command, [helpRule, valueRule "--es-uid" [] false] ++ ownOptions command,
    [.word "namespace", .word "es_name"] ++ ownSlots command⟩

end Grammar

/-- A command with what it is about. -/
inductive Command
  | show
  | set (remote : Value) (keyId file : Text)
  | delete (remote : Value)
  | keystore

/-- What a command line asks for. -/
structure Invocation where
  /-- The name of the store to use, if not the one of the settings. -/
  backend : Option Text
  /-- The level of the log, if not the one of the settings. -/
  logLevel : Option Text
  «namespace» : Text
  clusterName : Text
  clusterUid : Option Text
  command : Command

namespace Invocation

/-- The command with a name. -/
def commandOf (name : Text) (a : Arguments) : Command :=
  let word (slot : Text) : Value := (a.words.get? slot).getD .null
  if name = "set" then
    .set (word "alias") (word "key_id").message ((a.options.get? "--encoded-file").getD [])
  else if name = "delete" then .delete (word "alias")
  else if name = "keystore" then .keystore
  else .show

/-- The invocation of a command. -/
def ofArguments (front : Arguments) (name : Text) (a : Arguments) : Invocation where
  backend := front.options.get? "--backend"
  logLevel := front.options.get? "--log-level"
  «namespace» := ((a.words.get? "namespace").getD .null).message
  clusterName := ((a.words.get? "es_name").getD .null).message
  clusterUid := a.options.get? "--es-uid"
  command := commandOf name a

/-- The invocation that arguments ask for. -/
def read (arguments : List Text) : Except Stop Invocation := do
  let front ← grammar.sorted arguments
  match front.command with
  | none =>
    let front ← grammar.complete front
    throw (grammar.refuseLeftover front.leftover)
  | some (name, rest) =>
    let own ← (commandGrammar name).read rest
    let leftover := front.leftover ++ own.leftover
    if leftover.isEmpty then return ofArguments front name own
    else throw (grammar.refuseLeftover leftover)

/-- The cluster that the command is about. -/
def cluster (i : Invocation) : Cluster where
  name := i.clusterName
  «namespace» := i.namespace
  uid := i.clusterUid.getD []
  secureSettings := []
  apiVersion := Cluster.defaultApiVersion
  kind := Cluster.defaultKind

end Invocation

/-- What surrounds a run: the environment, the working directory and the standard input. -/
structure Place where
  environment : KeyMap Text
  files : Files
  input : Text

/-- What a run leaves behind. -/
structure Outcome where
  code : Nat
  /-- What was printed. -/
  output : Text
  /-- What was reported besides the log. -/
  errors : Text

section Commands

variable [Json.Nesting]

/-- A line of output. -/
def line (t : Text) : Text := t ++ "\n"

/-- The text of the file with the key; `-` stands for the standard input. -/
def keyText (p : Place) (file : Text) : Except Failure Text :=
  if file = "-" then .ok p.input else p.files.text file

/-- The key in a file, without blanks around it. -/
def readKey (p : Place) (file : Text) : Except Failure Text := do
  let key := (← keyText p file).strip
  if key.isEmpty then throw (.ofValue ("No encoded API key found in " ++ Quoted.text file))
  else return key

/-- The aliases of a cluster as they are printed. -/
def listing (cluster : Cluster) (x : KeyIndex) : Json :=
  let secret : Text × Json := ("secret", .text (Naming.secretName cluster.name))
  let aliases : Text × Json :=
    ("aliases", .object (x.aliases.sorted.map fun e => (e.1, .text e.2)))
  .object [secret, aliases]

/-- Prints the aliases of a cluster. -/
def showAliases (cluster : Cluster) : Action Store Text := do
  let x ← KeyIndex.load cluster
  return line ((listing cluster x).indented 0)

/-- Records the key of an alias. -/
def setKey (p : Place) (attempts : Int) (cluster : Cluster) (remote : Value) (keyId file : Text) :
    Action Store Text := do
  let key ← Action.ofExcept ((readKey p file).mapError fun f => ⟨f, []⟩)
  let x ← KeyIndex.load cluster
  let name ← Action.ofExcept ((KeyIndex.aliasOf remote).mapError Raised.ofIndex)
  (x.put name keyId key).save cluster attempts
  return line ("Stored API key " ++ keyId ++ " for alias " ++ name)

/-- Forgets an alias. -/
def deleteKey (attempts : Int) (cluster : Cluster) (remote : Value) : Action Store Text := do
  let x ← KeyIndex.load cluster
  let known ← Action.ofExcept ((KeyIndex.lookupAlias remote).mapError fun f => ⟨f, []⟩)
  match known.filter x.contains with
  | some name => do
    (x.forget name).save cluster attempts
    return line ("Removed alias " ++ name)
  | none => return line ("Alias " ++ remote.message ++ " not found, nothing to do")

/-- Prints the names of the Secrets behind a keystore. -/
def listSources (cluster : Cluster) : Action Store Text := do
  let k ← Keystore.ofCluster cluster
  return k.sources.flatMap fun s => line s.secretName

/-- What a command does. -/
def perform (p : Place) (attempts : Int) (i : Invocation) : Action Store Text :=
  match i.command with
  | .show => showAliases i.cluster
  | .set remote keyId file => setKey p attempts i.cluster remote keyId file
  | .delete remote => deleteKey attempts i.cluster remote
  | .keystore => listSources i.cluster

end Commands

section Runs

/-- An invocation whose settings are known and whose log is configured. -/
structure Ready where
  place : Place
  invocation : Invocation
  settings : Settings

/-- How a run ends: with an outcome, or with a failure that is a fault of the program. -/
abbrev Ending := Except Raised Outcome

/-- The end of a run that printed `output`. -/
def conclude (output : Text) (failure : Option Raised) : Ending :=
  match failure with
  | none => .ok ⟨0, output, []⟩
  | some e =>
    if e.failure.isReported then .ok ⟨1, output, line ("error: " ++ e.failure.message)⟩
    else .error e

theorem conclude_code {output : Text} {e : Raised} {o : Outcome}
    (h : conclude output (some e) = .ok o) : o.code = 1 := by
  unfold conclude at h
  simp only at h
  split at h
  · cases h
    rfl
  · cases h

/-- The end of a run whose arguments were not accepted. -/
def refused : Stop → Outcome
  | .help => ⟨0, [], []⟩
  | .refused program message => ⟨2, [], line (program ++ ": error: " ++ message)⟩

/-- The level of the log that a run asks for. -/
def levelName (i : Invocation) (s : Settings) : Text :=
  match i.logLevel with
  | some t => if t.isEmpty then s.logLevel else t
  | none => s.logLevel

variable {S : Service} [Json.Nesting]

/-- Reads arguments and settings and configures the log, unless the run ends with that. -/
def start (arguments : List Text) (p : Place) : Program S (Except Ending Ready) := do
  match Invocation.read arguments with
  | .error stop => return .error (.ok (refused stop))
  | .ok i =>
    match Settings.read p.environment p.files with
    | .error f => return .error (conclude [] (some f))
    | .ok s =>
      match ← Program.configureLog (levelName i s) ⟨s.service, true⟩ with
      | .error f => return .error (conclude [] (some f))
      | .ok _ => return .ok ⟨p, i, s⟩

/-- Performs the command and closes the store. -/
def work (r : Ready) : Program Store Ending := do
  let body := perform r.place r.settings.attempts r.invocation
  let printed ← (Action.underId none body).run
  let closed ← Store.close.run
  let output := printed.toOption.getD []
  match closed, printed with
  | .error e, _ => return conclude output (some e)
  | .ok _, .error e => return conclude output (some e)
  | .ok _, .ok _ => return conclude output none

/-- A run over a store that is there already. -/
def overStore (arguments : List Text) (p : Place) : Program Store Ending := do
  match ← start arguments p with
  | .error e => return e
  | .ok r => work r

/-- What is logged when nothing will be kept. -/
def memoryWarning : Log.Event :=
  .plain "libs.k8s.factory" Level.warning
    "Using in-memory resource store; Secrets are not persisted to a cluster"
    [("backend", .text SecretStore.backend)]

/-- A run over a store of its own, as arguments and settings say; `uids` are the UIDs that a store
in memory may draw. -/
def run (uids : Nat → Text) (arguments : List Text) (p : Place) : Program ApiServer Ending := do
  match ← start arguments p with
  | .error e => return e
  | .ok r =>
    match r.settings.choose r.invocation.backend with
    | .error f => return conclude [] (some f)
    | .ok .memory => do
      Program.log memoryWarning
      let (ending, _) ← (work r).serveWith SecretStore.respond (.empty uids)
      return ending
    | .ok .kubernetes => do
      match ← (ApiServer.Client.connect r.settings.options).run with
      | .error e => return conclude [] (some e)
      | .ok client => do
        let (ending, _) ← (work r).serveWith ApiServer.Client.answer client
        return ending

end Runs

end Cli
end CrossClusterKeys
