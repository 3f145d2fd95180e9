import Reconciliation.Decode
import Reconciliation.DnsName
import Reconciliation.Secret.Source
import Reconciliation.Yaml.Reader

/-! What is not configured has a default. A configuration is read from YAML, then the environment
may name another system namespace, and only then is it validated. Its secrets are put into the
secret store at the start and never replace one that is there. -/
namespace Reconciliation

structure LoggingConfig where
  /-- The filter, unless the environment gives one. -/
  level : String := "info"
  json : Bool := false
deriving DecidableEq, Repr

structure HttpConfig where
  connectTimeoutSecs : UInt64 := 10
  timeoutSecs : UInt64 := 30
  taskPollIntervalMs : UInt64 := 1000
  /-- The longest wait for a task; zero stands for no limit. -/
  taskTimeoutSecs : UInt64 := 3600
deriving DecidableEq, Repr

structure ConfiguredSecret where
  name : String
  /-- The system namespace if there is none. -/
  ns : Option String := none
  source : SecretSource := {}
deriving DecidableEq, Repr

structure Config where
  systemNamespace : String := "bosh-system"
  manifestsDirectory : Option String := none
  logging : LoggingConfig := {}
  http : HttpConfig := {}
  sweepIntervalSecs : UInt64 := 30
  secrets : List ConfiguredSecret := []
deriving DecidableEq, Repr

/-- How long remote calls may take. -/
structure HttpSettings where
  connectTimeoutSecs : UInt64 := 10
  timeoutSecs : UInt64 := 30
  taskPollIntervalMs : UInt64 := 1000
  taskTimeoutSecs : Option UInt64 := some 3600
deriving DecidableEq, Repr

/-- Without a limit for tasks the member is null. -/
def HttpSettings.toJson (s : HttpSettings) : Json :=
  .obj [("connect_timeout_secs", .nat s.connectTimeoutSecs), ("timeout_secs", .nat s.timeoutSecs),
    ("task_poll_interval_ms", .nat s.taskPollIntervalMs),
    ("task_timeout_secs", (s.taskTimeoutSecs.map Json.nat).getD .null)]

namespace HttpConfig

def settings (c : HttpConfig) : HttpSettings where
  connectTimeoutSecs := c.connectTimeoutSecs
  timeoutSecs := c.timeoutSecs
  taskPollIntervalMs := c.taskPollIntervalMs
  taskTimeoutSecs := if c.taskTimeoutSecs = 0 then none else some c.taskTimeoutSecs

def toJson (c : HttpConfig) : Json :=
  .obj [("connect_timeout_secs", .nat c.connectTimeoutSecs), ("timeout_secs", .nat c.timeoutSecs),
    ("task_poll_interval_ms", .nat c.taskPollIntervalMs),
    ("task_timeout_secs", .nat c.taskTimeoutSecs)]

open Yaml.Reader in
def reader : Yaml.Reader HttpConfig := record "HttpConfig" {}
  [field "connect_timeout_secs" u64 fun n c => { c with connectTimeoutSecs := n },
   field "timeout_secs" u64 fun n c => { c with timeoutSecs := n },
   field "task_poll_interval_ms" u64 fun n c => { c with taskPollIntervalMs := n },
   field "task_timeout_secs" u64 fun n c => { c with taskTimeoutSecs := n }]

end HttpConfig

namespace LoggingConfig

def toJson (c : LoggingConfig) : Json := .obj [("level", .str c.level), ("json", .bool c.json)]

open Yaml.Reader in
def reader : Yaml.Reader LoggingConfig := record "LoggingConfig" {}
  [field "level" (text "a string") fun s c => { c with level := s },
   field "json" bool fun b c => { c with json := b }]

end LoggingConfig

namespace ConfiguredSecret

def toJson (s : ConfiguredSecret) : Json :=
  .obj (Json.memberIfSome "namespace" .str s.ns ++ [("name", .str s.name)] ++
    Json.memberIfSome "value" .str s.source.value ++ Json.memberIfSome "file" .str s.source.file ++
    Json.memberIfSome "env" .str s.source.variableName)

open Yaml.Reader in
/-- The name is read on the side, since there is no secret without one. -/
def reader : Yaml.Reader ConfiguredSecret :=
  let optional (name : String) (set : Option String → ConfiguredSecret → ConfiguredSecret) :=
    field name (nullable (text "a string")) fun s (known : Option String × ConfiguredSecret) =>
      (known.1, set s known.2)
  andThen (record "SecretSource" (none, { name := "" })
    [field "name" (text "a string") fun s known => (some s, known.2),
     optional "namespace" fun s c => { c with ns := s },
     optional "value" fun s c => { c with source := { c.source with value := s } },
     optional "file" fun s c => { c with source := { c.source with file := s } },
     optional "env" fun s c => { c with source := { c.source with variableName := s } }])
    fun (known, c) =>
      match known with
      | some name => .ok { c with name }
      | none => .error "missing field `name`"

end ConfiguredSecret

inductive ConfigDefect where
  | systemNamespace (value : String)
  | zero (setting : String)
  | unnamedSecret
  | noSource (name : String)
deriving DecidableEq, Repr

def ConfigDefect.message : ConfigDefect → String
  | systemNamespace value => "system_namespace '" ++ value ++ "' is not a valid DNS label"
  | zero setting => setting ++ " must be greater than 0"
  | unnamedSecret => "secrets: name is required"
  | noSource name => "secrets." ++ name ++ ": one of value, file or env is required"

inductive ConfigError where
  | unreadable (path : String) (cause : FileError)
  /-- The text is no configuration; no complaint is given where it is not even YAML. -/
  | malformed (complaint : Option String)
  | invalid (defects : List ConfigDefect)
  | secret (name : SecretName) (cause : SecretError)

def ConfigError.message? : ConfigError → Option String
  | unreadable path cause => some ("Failed to read config file '" ++ path ++ "': " ++ cause.message)
  | malformed complaint => complaint.map ("Failed to parse config YAML: " ++ ·)
  | invalid defects =>
    some ("Config validation failed: " ++ "; ".intercalate (defects.map (·.message)))
  | secret name cause => some ("Failed to seed secret '" ++ name.text ++ "': " ++ cause.message)

namespace Config

def toJson (c : Config) : Json :=
  .obj ([("system_namespace", .str c.systemNamespace)] ++
    Json.memberIfSome "manifests_dir" .str c.manifestsDirectory ++
    [("logging", c.logging.toJson), ("http", c.http.toJson),
      ("sweep", .obj [("interval_secs", .nat c.sweepIntervalSecs)])] ++
    Json.memberUnless c.secrets.isEmpty "secrets" (.arr (c.secrets.map (·.toJson))))

open Yaml.Reader in
def sweepReader : Yaml.Reader UInt64 := record "SweepConfig" 30
  [field "interval_secs" u64 fun n _ => n]

open Yaml.Reader in
def reader : Yaml.Reader Config := record "OperatorConfig" {}
  [field "system_namespace" (text "a string") fun s c => { c with systemNamespace := s },
   field "manifests_dir" (nullable (text "path string")) fun s c =>
     { c with manifestsDirectory := s },
   field "logging" LoggingConfig.reader fun l c => { c with logging := l },
   field "http" HttpConfig.reader fun h c => { c with http := h },
   field "sweep" sweepReader fun n c => { c with sweepIntervalSecs := n },
   field "secrets" (list ConfiguredSecret.reader) fun ss c => { c with secrets := ss }]

def severalDocuments : String :=
  "deserializing from YAML containing more than one document is not supported"

/-- A text without anything but blanks is the default. -/
def parse (text : String) : Except ConfigError Config :=
  if Text.allBlank text then .ok {} else
    match Yaml.Document.ofText? text with
    | none | some [] => .error (.malformed none)
    | some (d :: more) =>
      let told := ((d :: more).mapM Yaml.Value.ofDocument?).isSome
      let complain (complaint : String) :=
        ConfigError.malformed (if told then some complaint else none)
      match reader d "" d.root with
      | .error e => .error (complain e.message)
      | .ok c => if more.isEmpty then .ok c else .error (complain severalDocuments)

def namespaceVariable : String := "BOSHSYNC_SYSTEM_NAMESPACE"

/-- The system namespace of the environment, if it is a text and not blank. -/
def adapted (h : Host) (c : Config) : Config :=
  match h.lookUp namespaceVariable with
  | .ok ns => if Text.allBlank ns then c else { c with systemNamespace := Text.trim ns }
  | .error _ => c

def secretDefects (s : ConfiguredSecret) : List ConfigDefect :=
  (if s.name.isEmpty then [.unnamedSecret] else []) ++
    (if s.source.isGiven then [] else [.noSource s.name])

def zeroDefects (setting : String) (n : UInt64) : List ConfigDefect :=
  if n = 0 then [.zero setting] else []

def defects (c : Config) : List ConfigDefect :=
  (if isDnsLabel c.systemNamespace then [] else [.systemNamespace c.systemNamespace]) ++
    zeroDefects "http.timeout_secs" c.http.timeoutSecs ++
    zeroDefects "http.task_poll_interval_ms" c.http.taskPollIntervalMs ++
    zeroDefects "sweep.interval_secs" c.sweepIntervalSecs ++
    c.secrets.flatMap secretDefects

def checked (c : Config) : Except ConfigError Config :=
  if c.defects.isEmpty then .ok c else .error (.invalid c.defects)

def ofYaml (h : Host) (text : String) : Except ConfigError Config := do
  checked (adapted h (← parse text))

def load (h : Host) (path : String) : Except ConfigError Config :=
  match h.read path with
  | .ok text => ofYaml h text
  | .error e => .error (.unreadable path e)

def defaultPath (h : Host) : String :=
  FileTree.join (FileTree.join h.configDirectory "boshsync") "config.yaml"

/-- Where no file stands at the default path, the defaults are taken. -/
def loadDefault (h : Host) : Except ConfigError Config :=
  if h.exists? (defaultPath h) then load h (defaultPath h) else checked (adapted h {})

def secretName (c : Config) (s : ConfiguredSecret) : SecretName :=
  ⟨s.ns.getD c.systemNamespace, s.name⟩

variable {τ : Type} [SecretStore τ]

/-- Stores a secret unless there is one of its name, and tells how many were stored. -/
def seedSecret (h : Host) (name : SecretName) (source : SecretSource) : Step τ ConfigError Nat := do
  match source.resolve h with
  | .error e => throw (.secret name e)
  | .ok value =>
    match ← (SecretStore.create name value).attempt with
    | .ok () => return 1
    | .error (.alreadyExists _) => return 0
    | .error e => throw (.secret name e)

def seedEach (h : Host) (c : Config) : List ConfiguredSecret → Step τ ConfigError Nat
  | [] => return 0
  | s :: rest => do
    let stored ← seedSecret h (c.secretName s) s.source
    return stored + (← seedEach h c rest)

def seedSecrets (h : Host) (c : Config) : Step τ ConfigError Nat := seedEach h c c.secrets

end Config

end Reconciliation
