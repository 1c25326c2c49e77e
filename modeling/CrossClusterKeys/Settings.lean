import CrossClusterKeys.ApiServer.Client
import CrossClusterKeys.Backend
import CrossClusterKeys.Settings.EnvFile
import CrossClusterKeys.Settings.Reading

/-!
# Settings

The settings say which resource store is used, how, and what is logged.

**Input.**  Each setting is looked for in the environment, then in the file `.env` of the working
directory, and has a default if it is in neither.

**Rules.**
* The names of settings are compared without regard to capital and small letters; of several
  spellings the last one counts.
* All settings that are refused are reported together, in their order.

**Results.**
* `get_of_check`: accepted settings are those that are read in their source.
* `check_attempts`: the number of attempts of accepted settings is between 1 and 10.
-/

namespace CrossClusterKeys

/-- The settings of the program. -/
structure Settings where
  backend : Backend
  /-- Where the cluster's configuration is read. -/
  configPath : Option Text
  /-- The context of the configuration that is used. -/
  context : Option Text
  /-- Whether the program runs inside the cluster. -/
  inCluster : Bool
  /-- How long an answer of the API server is waited for, in seconds. -/
  timeout : Binary64
  attempts : Int
  /-- The manager named on writes. -/
  manager : Text
  logLevel : Text
  service : Text

namespace Settings

/-- The texts of settings by name. -/
abbrev Source := KeyMap Text

/-- The source with small letters in all names. -/
def Source.ofPairs (es : List (Text × Text)) : Source :=
  .ofList (es.map fun e => (e.1.lower, e.2))

/-- The values of a file, with small letters in all names. -/
def fileValues (values : KeyMap (Option Text)) : KeyMap (Option Text) :=
  .ofList (values.entries.map fun e => (e.1.lower, e.2))

/-- The source that the environment and a file make up. -/
def Source.of (environment : KeyMap Text) (file : KeyMap (Option Text)) : Source :=
  let given := (fileValues file).entries.filterMap fun e => e.2.map fun value => (e.1, value)
  Table.overlay (.ofList given) (ofPairs environment.entries)

/-- A setting as it was read: its value, or how it is refused. -/
abbrev Checked (α : Type) := Except Rejection α

/-- The setting with a name, read by `f`. -/
def get {α : Type} (source : Source) (name : Text) (default : α) (f : Text → Except Refusal α) :
    Checked α :=
  match source.get? name with
  | none => .ok default
  | some t => (f t).mapError fun r => ⟨r.kind, name, r.message, t⟩

/-- How a setting is refused, if it is. -/
def rejection? {α : Type} : Checked α → List Rejection
  | .ok _ => []
  | .error r => [r]

/-- The choice of a store. -/
def readBackend (t : Text) : Except Refusal Backend := do
  match Backend.ofName? (← wellFormed t) with
  | some b => return b
  | none => throw .choice

/-- Any text. -/
def readText (t : Text) : Except Refusal Text := .ok t

/-- Any text, which need not be there. -/
def readOptional (t : Text) : Except Refusal (Option Text) := .ok (some t)

/-- The longest time-out, in seconds. -/
def longestTimeout : Nat := 600

/-- The largest number of attempts. -/
def mostAttempts : Nat := 10

/-- The default of the setting with the manager. -/
def defaultManager : Text := "elastic-operator"

/-- The default of the setting with the level of the log. -/
def defaultLevel : Text := "INFO"

/-- The default of the setting with the name of the service. -/
def defaultService : Text := "remote-cluster-keys"

/-- The settings in a source. -/
def check (source : Source) : Except Failure Settings :=
  let backend := get source "resource_backend" Backend.kubernetes readBackend
  let configPath := get source "kubeconfig_path" none readOptional
  let context := get source "kube_context" none readOptional
  let inCluster := get source "in_cluster" false truth
  let timeout := get source "request_timeout_seconds" ApiServer.Options.defaultTimeout fun t => do
    positive longestTimeout (← number t)
  let attempts := get source "store_retry_attempts" ApiServer.Options.defaultAttempts fun t => do
    bounded 1 mostAttempts (← whole t)
  let manager := get source "field_manager" defaultManager readText
  let logLevel := get source "log_level" defaultLevel readText
  let service := get source "service_name" defaultService readText
  let rejections := rejection? backend ++ rejection? configPath ++ rejection? context ++
    rejection? inCluster ++ rejection? timeout ++ rejection? attempts ++ rejection? manager ++
    rejection? logLevel ++ rejection? service
  let settings : Checked Settings := do
    return {
      backend := ← backend
      configPath := ← configPath
      context := ← context
      inCluster := ← inCluster
      timeout := ← timeout
      attempts := ← attempts
      manager := ← manager
      logLevel := ← logLevel
      service := ← service }
  settings.mapError fun _ => .settings rejections

private theorem get_attempts {source : Source} {n : Int}
    (h : get source "store_retry_attempts" ApiServer.Options.defaultAttempts
      (fun t => do bounded 1 mostAttempts (← whole t)) = .ok n) : 1 ≤ n ∧ n ≤ 10 := by
  unfold get at h
  split at h
  · simp only [Except.ok.injEq] at h
    subst h
    decide
  · next t _ =>
    obtain ⟨m, -, hread⟩ := exists_of_bind_eq_ok (mapError_eq_ok_iff.1 h)
    have hbounds := (bounded_eq_ok_iff 1 mostAttempts m n).1 hread
    simp only [mostAttempts] at hbounds
    omega

/-- The bounded ones of the settings in a source are those that are read there. -/
theorem get_of_check {source : Source} {s : Settings} (h : check source = .ok s) :
    get source "request_timeout_seconds" ApiServer.Options.defaultTimeout
        (fun t => do positive longestTimeout (← number t)) = .ok s.timeout ∧
      get source "store_retry_attempts" ApiServer.Options.defaultAttempts
        (fun t => do bounded 1 mostAttempts (← whole t)) = .ok s.attempts := by
  have hsettings := mapError_eq_ok_iff.1 h
  -- The settings are read in their order, the two being the fifth and the sixth.
  obtain ⟨_, -, hsettings⟩ := exists_of_bind_eq_ok hsettings
  obtain ⟨_, -, hsettings⟩ := exists_of_bind_eq_ok hsettings
  obtain ⟨_, -, hsettings⟩ := exists_of_bind_eq_ok hsettings
  obtain ⟨_, -, hsettings⟩ := exists_of_bind_eq_ok hsettings
  obtain ⟨timeout, htimeout, hsettings⟩ := exists_of_bind_eq_ok hsettings
  obtain ⟨attempts, hattempts, hsettings⟩ := exists_of_bind_eq_ok hsettings
  obtain ⟨_, -, hsettings⟩ := exists_of_bind_eq_ok hsettings
  obtain ⟨_, -, hsettings⟩ := exists_of_bind_eq_ok hsettings
  obtain ⟨_, -, hsettings⟩ := exists_of_bind_eq_ok hsettings
  cases hsettings
  exact ⟨htimeout, hattempts⟩

theorem check_attempts {source : Source} {s : Settings} (h : check source = .ok s) :
    1 ≤ s.attempts ∧ s.attempts ≤ 10 := get_attempts (get_of_check h).2

/-- The settings of an environment and of the files in the working directory. -/
def read (environment : KeyMap Text) (files : Files) : Except Failure Settings :=
  match files.contents.get? ".env" with
  | none => check (.of environment .empty)
  | some bytes => do
    let t ← Files.decode bytes
    check (.of environment (EnvFile.read environment t))

/-- What a client of the API server is made from. -/
def options (s : Settings) : ApiServer.Options where
  configPath := s.configPath
  context := s.context
  inCluster := s.inCluster
  timeout := s.timeout
  attempts := s.attempts
  firstPause := ApiServer.Options.defaultPause
  manager := some s.manager

/-- The store of a name, or the one of the settings if there is no name. -/
def choose (s : Settings) (name : Option Text) : Except Failure Backend :=
  let plain := Backend.plainName (name.getD s.backend.name)
  match Backend.ofName? plain with
  | some b => .ok b
  | none =>
    .error (.store ⟨.general,
      "Invalid RESOURCE_BACKEND: '" ++ plain ++ "'. Valid options: 'kubernetes', 'memory'.",
      none, none⟩)

end Settings
end CrossClusterKeys
