import Reconciliation.Decode
import Reconciliation.Http.Network
import Reconciliation.Remote

/-! A client proves itself with a token of its identity service, which is kept until it is near its
expiry or refused. A session is a token, if there is one, and the network it is used on. -/
namespace Reconciliation

/-- The part of an error body that is shown. -/
def excerptLimit : Nat := 200

/-- A long body is cut, so that what it may hold further on stays out of messages. -/
def excerpt (body : String) : String :=
  if body.utf8ByteSize ≤ excerptLimit then body
  else Text.Utf8.takeBytes excerptLimit body ++ "... (truncated)"

/-- The value that a JSON body stands for, if it is one. -/
def Http.Response.read? {α : Type} (decode : Decoder α) (r : Http.Response) : Option α := do
  let text ← Text.Utf8.decode? r.body
  (decode (← Json.readMembers? text.toList)).toOption

structure AccessToken where
  text : String
  /-- Nothing if it never expires. -/
  expires : Option Instant
deriving DecidableEq, Repr

namespace AccessToken

/-- Seconds before its expiry from which on a token is not used. -/
def margin : Nat := 30

/-- Seconds, for want of a word from the service. -/
def defaultLifetime : Nat := 300

/-- The most seconds that fit 64 bits in milliseconds. -/
def longestLifetime : Nat := (Nat.pow 2 63 - 1) / 1000

/-- The end of a lifetime, unless it lies beyond the calendar. -/
def expiry (now : Instant) (lifetime : Nat) : Option Instant :=
  if lifetime ≤ longestLifetime && (now.addSeconds lifetime).isInCalendar then
    some (now.addSeconds lifetime)
  else none

def isFresh (now : Instant) (t : AccessToken) : Bool :=
  match t.expires with
  | none => true
  | some e => (now.addSeconds margin).isBefore e

end AccessToken

/-- A token as the service grants it. -/
structure TokenGrant where
  token : String
  lifetime : Option UInt64
deriving DecidableEq, Repr

namespace TokenGrant

def layout : Layout TokenGrant :=
  (fun token _ lifetime _ => ⟨token, lifetime⟩) <$> .required "access_token" .string <*>
    .optionalNullable "token_type" .string <*> .optionalNullable "expires_in" .u64 <*>
    .optionalNullable "scope" .string

def decode : Decoder TokenGrant := layout.decodeOnce "TokenResponse"

def issued (now : Instant) (g : TokenGrant) : AccessToken :=
  ⟨g.token, AccessToken.expiry now ((g.lifetime.map (·.toNat)).getD AccessToken.defaultLifetime)⟩

end TokenGrant

namespace IdentityEndpoint

def tokenUrl (e : IdentityEndpoint) : String := Http.joinPath e.url "oauth/token"

def tokenForm : List (String × String) :=
  [("grant_type", "client_credentials"), ("response_type", "token")]

def tokenRequest (e : IdentityEndpoint) : Except HttpFailure Http.Request :=
  (Http.request .post e.tokenUrl (Http.basic e.clientId e.clientSecret)).map fun r =>
    (r.accepting "application/json").withForm tokenForm

def refusal (e : IdentityEndpoint) (response : Http.Response) : String :=
  "Token request for '" ++ e.clientId ++ "' failed (" ++ Http.statusText response.status ++ "): " ++
    excerpt response.text

/-- What a response to a token request grants. -/
def granted (e : IdentityEndpoint) (response : Http.Response) : Except RemoteError TokenGrant :=
  if !response.isSuccess then .error (.auth (e.refusal response))
  else
    match response.read? TokenGrant.decode with
    | some g => .ok g
    | none =>
      .error (.auth ("Failed to parse token response: " ++ HttpFailure.undecodable.message))

variable {ν : Type} [Network ν]

/-- Asks the service for a token. -/
def requestToken (e : IdentityEndpoint) : Step ν RemoteError TokenGrant := do
  match e.tokenRequest with
  | .error cause => throw (.http e.tokenUrl cause)
  | .ok r =>
    let response ← (Http.send true r).mapError (.http e.tokenUrl)
    Step.ofExcept (e.granted response)

end IdentityEndpoint

structure Session (ν : Type) where
  token : Option AccessToken := none
  network : ν
deriving DecidableEq

abbrev Talk (ν α : Type) := Step (Session ν) RemoteError α

namespace Session

variable {ν ε : Type} [Network ν]

def onNetwork {α : Type} (wrap : ε → RemoteError) (x : Step ν ε α) : Talk ν α :=
  x.onPart (·.network) (fun s n => { s with network := n }) wrap

def now (s : Session ν) : Instant := Network.now s.network

/-- The token that may still be used. -/
def freshToken (s : Session ν) : Option AccessToken := s.token.filter (·.isFresh s.now)

/-- A usable token, a new one if need be. Where none is granted the old one stays. -/
def bearer (e : IdentityEndpoint) : Talk ν String := do
  match (← get).freshToken with
  | some t => return t.text
  | none =>
    let g ← onNetwork id e.requestToken
    modify fun s => { s with token := some (g.issued s.now) }
    return g.token

def forget (s : Session ν) : Session ν := { s with token := none }

/-- An authorized request and its response. A refused token is forgotten. -/
def call (e : IdentityEndpoint) (following : Bool) (method : Http.Method) (url : String)
    (dress : Http.Request → Http.Request) : Talk ν Http.Response := do
  let token ← bearer e
  match Http.request method url (Http.bearer token) with
  | .error cause => throw (.http url cause)
  | .ok r =>
    let response ← onNetwork (.http url) (Http.send following (dress r))
    if response.status = 401 then modify forget
    return response

end Session

/-- A response that is no success as an error. -/
def Http.Response.failure (service url : String) (r : Http.Response) : RemoteError :=
  .status service url r.status (excerpt r.text)

end Reconciliation
