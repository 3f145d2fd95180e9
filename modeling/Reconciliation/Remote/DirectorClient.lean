import Reconciliation.Payload.Manifest
import Reconciliation.Remote.Task
import Reconciliation.Remote.Token

/-! Each operation on a Director as its requests. Redirects are not followed: they name the task
that the request has started, which is waited for. Such a wait goes on for as long as the task is
under way, and where no limit is set it may never end: it is given as what has become of it after
some looks at the task. -/
namespace Reconciliation

structure DirectorClient where
  endpoint : DirectorEndpoint
  /-- Milliseconds between two looks at a task. -/
  pollInterval : Nat := 1000
  /-- The longest wait for a task, in seconds. -/
  taskTimeout : Option Nat := some 3600

/-- A talk that need not end: what comes of it with so many looks at a task, if it ends with them. -/
abbrev Wait (ν α : Type) := (looks : Nat) → Session ν → Option (Except RemoteError α × Session ν)

/-- A talk, and then a wait unless it has failed. -/
def Talk.andThen {ν α β : Type} (x : Talk ν α) (f : α → Wait ν β) : Wait ν β := fun looks s =>
  match x s with
  | (.ok a, s) => f a looks s
  | (.error e, s) => some (.error e, s)

def Session.paused {ν : Type} [Network ν] (millis : Nat) (s : Session ν) : Session ν :=
  { s with network := Network.pause millis s.network }

namespace DirectorClient

structure ReleaseInfo where
  name : String
  versions : List String

def ReleaseInfo.decode : Decoder ReleaseInfo :=
  let version : Layout String := .required "version" .string
  let layout : Layout ReleaseInfo := ReleaseInfo.mk <$> .required "name" .string <*>
    .optional "release_versions" [] (.list (version.decodeOnce "ReleaseVersionInfo"))
  layout.decodeOnce "ReleaseInfo"

def decodeStemcell : Decoder ReleaseRef :=
  let layout : Layout ReleaseRef :=
    ReleaseRef.mk <$> .required "name" .string <*> .required "version" .string
  layout.decodeOnce "StemcellInfo"

/-- How a cloud config differs from the stored one, if one is stored. -/
structure ConfigDiff where
  storedId : Option String
  changes : List Json

namespace ConfigDiff

def decode : Decoder ConfigDiff :=
  let stored : Layout String := .required "id" .string
  let layout : Layout ConfigDiff := ConfigDiff.mk <$>
    .optionalNullable "from" (stored.decodeOnce "ConfigDiffFrom") <*>
    .optional "diff" [] (.list .json)
  layout.decodeOnce "ConfigDiff"

def isUpToDate (d : ConfigDiff) : Bool := d.storedId.isSome && d.changes.isEmpty

end ConfigDiff

def configType : String := "cloud"

def configBody (name content : String) (storedId : Option String) : String :=
  (Json.obj ([("type", .str configType), ("name", .str name), ("content", .str content)] ++
    Json.memberIfSome "expected_latest_id" .str storedId)).text

def uploadBody (location sha1 : String) : String :=
  (Json.obj [("location", .str location), ("sha1", .str sha1)]).text

variable {ν : Type} [Network ν]

def service : String := "Director"

def url (c : DirectorClient) (path : String) : String := Http.joinPath c.endpoint.url path

def call (c : DirectorClient) (method : Http.Method) (path : String)
    (dress : Http.Request → Http.Request) : Talk ν Http.Response :=
  Session.call c.endpoint.auth false method (c.url path) dress

def undecodable (what : String) : RemoteError :=
  .protocol (what ++ ": " ++ HttpFailure.undecodable.message)

/-- A successful response that is no success is an error, and so is one of another form. -/
def readOr {α : Type} (decode : Decoder α) (url what : String) (r : Http.Response) :
    Except RemoteError α :=
  if !r.isSuccess then .error (r.failure service url)
  else (r.read? decode).elim (.error (undecodable what)) .ok

def fetch {α : Type} (c : DirectorClient) (decode : Decoder α) (path : String) : Talk ν α := do
  let response ← c.call .get path id
  let url := c.url path
  Step.ofExcept (readOr decode url ("Invalid response from '" ++ url ++ "'") response)

/-- A look at a task, with the nanoseconds since the wait began. -/
def look (c : DirectorClient) (id : Nat) (started : Instant) : Talk ν (DirectorTask × Nat) := do
  let task ← c.fetch DirectorTask.decode ("tasks/" ++ toString id)
  return (task, (← get).now.nanosSince started)

/-- What a look comes to, or nothing if the task is to be looked at again. -/
def verdict? (c : DirectorClient) :
    Except RemoteError (DirectorTask × Nat) → Option (Except RemoteError Unit)
  | .error e => some (.error e)
  | .ok (task, waited) => task.outcome? c.taskTimeout waited

/-- Looks at a task, again and again, until a look comes to something. -/
def waitForTask (c : DirectorClient) (id : Nat) (started : Instant) : Wait ν Unit
  | 0, _ => none
  | looks + 1, s =>
    let (answer, s) := c.look id started s
    match c.verdict? answer with
    | some outcome => some (outcome, s)
    | none => waitForTask c id started looks (s.paused c.pollInterval)

/-- What a response to a change asks for. -/
inductive Completion where
  | done
  | task (id : Nat)
  | failed (e : RemoteError)
deriving DecidableEq, Repr

/-- What is missing need not be deleted. -/
def completion (deletes : Bool) (url : String) (r : Http.Response) : Completion :=
  if deletes && r.status = 404 then .done
  else if r.isRedirection then
    let location := r.visibleLocation.getD ""
    match DirectorTask.idAt? location with
    | some id => .task id
    | none => .failed (.protocol
        ("Redirect from '" ++ url ++ "' does not name a task: '" ++ location ++ "'"))
  else if r.isSuccess then .done
  else .failed (r.failure service url)

def complete (c : DirectorClient) (deletes : Bool) (url : String) (r : Http.Response) :
    Wait ν Unit := fun looks s =>
  match completion deletes url r with
  | .done => some (.ok (), s)
  | .failed e => some (.error e, s)
  | .task id => c.waitForTask id s.now looks s

/-- A change and the wait for its task. -/
def change (c : DirectorClient) (method : Http.Method) (path : String)
    (dress : Http.Request → Http.Request) : Wait ν Unit :=
  (c.call method path dress).andThen (c.complete (method = .delete) (c.url path))

def jsonType : String := "application/json"

def hasRelease (c : DirectorClient) (ref : ReleaseRef) : Talk ν Bool := do
  let releases ← c.fetch (.list ReleaseInfo.decode) "releases"
  return releases.any fun r => r.name = ref.name && r.versions.contains ref.version

def hasStemcell (c : DirectorClient) (ref : ReleaseRef) : Talk ν Bool := do
  return (← c.fetch (.list decodeStemcell) "stemcells").contains ref

def uploadRelease (c : DirectorClient) (location sha1 : String) : Wait ν Unit :=
  c.change .post "releases" (·.withBody jsonType (uploadBody location sha1))

def uploadStemcell (c : DirectorClient) (location sha1 : String) : Wait ν Unit :=
  c.change .post "stemcells" (·.withBody jsonType (uploadBody location sha1))

def deleteRelease (c : DirectorClient) (ref : ReleaseRef) : Wait ν Unit :=
  c.change .delete ("releases/" ++ ref.name) (·.withQuery [("version", ref.version)])

def deleteStemcell (c : DirectorClient) (ref : ReleaseRef) : Wait ν Unit :=
  c.change .delete ("stemcells/" ++ ref.name ++ "/" ++ ref.version) id

def diffCloudConfig (c : DirectorClient) (name content : String) : Talk ν ConfigDiff := do
  let response ← c.call .post "configs/diff" (·.withBody jsonType (configBody name content none))
  Step.ofExcept (readOr ConfigDiff.decode (c.url "configs/diff")
    ("Invalid config diff for '" ++ name ++ "'") response)

/-- A fragment is only sent if it differs from the stored one, and then only over that one. -/
def updateCloudConfig (c : DirectorClient) (name : String) (config : CloudConfig) :
    Wait ν Unit :=
  (c.diffCloudConfig name config.toYaml).andThen fun diff =>
    if diff.isUpToDate then fun _ s => some (.ok (), s)
    else c.change .post "configs"
      (·.withBody jsonType (configBody name config.toYaml diff.storedId))

def deleteCloudConfig (c : DirectorClient) (name : String) : Wait ν Unit :=
  c.change .delete "configs" (·.withQuery [("type", configType), ("name", name)])

def deploy (c : DirectorClient) (manifest : Manifest) : Wait ν Unit :=
  c.change .post "deployments" (·.withBody "text/yaml" manifest.toYaml)

def deleteDeployment (c : DirectorClient) (name : String) : Wait ν Unit :=
  c.change .delete ("deployments/" ++ name) id

end DirectorClient

end Reconciliation
