import Reconciliation.Http
import Reconciliation.Instant
import Reconciliation.Step

namespace Reconciliation

class Network (ν : Type) where
  exchange : Http.Request → Step ν HttpFailure Http.Response
  now : ν → Instant
  /-- Waits for some milliseconds. -/
  pause : Nat → ν → ν

namespace Http

variable {ν : Type} [Network ν]

/-- One exchange, over the web only. -/
def exchange (r : Request) : Step ν HttpFailure Response :=
  if r.url.scheme = "http" || r.url.scheme = "https" then Network.exchange r
  else throw (.forbiddenScheme r.url.text)

/-- A request as it is sent again without its content. -/
def Request.emptied (r : Request) : Request :=
  { r with method := .get, contentType := none, body := "" }

/-- On the way to another host the credentials are left behind. -/
def Request.movedTo (u : Url) (r : Request) : Request :=
  let sameHost := u.host = r.url.host && u.port = r.url.port
  { r with url := u, authorization := r.authorization.filter fun _ => sameHost }

/-- The request that a response redirects to. -/
def redirected? (r : Request) (response : Response) : Option Request := do
  let u ← r.url.join? (← response.location)
  match response.status with
  | 301 | 302 => return (if r.method = .post then r.emptied else r).movedTo u
  | 303 => return r.emptied.movedTo u
  | 307 | 308 => return r.movedTo u
  | _ => none

def mostRedirects : Nat := 10

/-- A response, or what becomes of the request that it redirects to. -/
def redirecting (further : Request → Step ν HttpFailure Response) (r : Request)
    (response : Response) : Step ν HttpFailure Response :=
  match redirected? r response with
  | none => return response
  | some next => further next

def follow : (redirects : Nat) → Request → Step ν HttpFailure Response
  | 0, r => do
    let response ← exchange r
    redirecting (fun _ => throw (.tooManyRedirects r.url.text)) r response
  | redirects + 1, r => do
    let response ← exchange r
    redirecting (follow redirects) r response

def send (following : Bool) (r : Request) : Step ν HttpFailure Response :=
  if following then follow mostRedirects r else exchange r

end Http

end Reconciliation
