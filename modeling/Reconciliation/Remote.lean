/-! Where a remote service is, with which credentials it is called, and why a call may fail. A
Director trusts the tokens that its identity service gives to a client. -/

namespace Reconciliation

structure IdentityEndpoint where
  url : String
  caCert : String
  clientId : String
  clientSecret : String
deriving DecidableEq, Repr

structure DirectorEndpoint where
  url : String
  caCert : String
  auth : IdentityEndpoint
deriving DecidableEq, Repr

/-- Why an HTTP exchange gave no usable answer. -/
inductive HttpFailure where
  /-- The connection to this address ended without an answer. -/
  | unanswered (address : String)
  | timedOut (address : String)
  | undecodable
  /-- The request or the client could not be built. -/
  | unbuildable
  /-- The address is no web address. -/
  | forbiddenScheme (address : String)
  /-- The redirects from this address do not end. -/
  | tooManyRedirects (address : String)
deriving DecidableEq, Repr

def HttpFailure.message : HttpFailure → String
  | unanswered address => "error sending request for url (" ++ address ++ ")"
  | timedOut address => "error sending request for url (" ++ address ++ ")"
  | undecodable => "error decoding response body"
  | unbuildable => "builder error"
  | forbiddenScheme address => "builder error for url (" ++ address ++ ")"
  | tooManyRedirects address => "error following redirect for url (" ++ address ++ ")"

inductive RemoteError where
  | http (url : String) (cause : HttpFailure)
  | status (service url : String) (status : Nat) (body : String)
  | auth (reason : String)
  | certificate (reason : String)
  | task (id : Nat) (state result : String)
  | taskTimeout (id : Nat) (state : String) (waitedSeconds : Nat)
  | encode (reason : String)
  | protocol (reason : String)
  | rejected (reason : String)
deriving DecidableEq, Repr

namespace RemoteError

def message : RemoteError → String
  | http url cause => "HTTP request to '" ++ url ++ "' failed: " ++ cause.message
  | status service url code body =>
    service ++ " returned HTTP " ++ toString code ++ " for '" ++ url ++ "': " ++ body
  | auth reason => "Authentication failed: " ++ reason
  | certificate reason => "Invalid CA certificate: " ++ reason
  | task id state result =>
    "Director task " ++ toString id ++ " ended in state '" ++ state ++ "': " ++ result
  | taskTimeout id state waited =>
    "Director task " ++ toString id ++ " still '" ++ state ++ "' after " ++ toString waited ++ "s"
  | encode reason => "Failed to encode payload: " ++ reason
  | protocol reason => "Unexpected response: " ++ reason
  | rejected reason => "Request rejected: " ++ reason

/-- Whether the failure is likely to pass. -/
def isRetryable : RemoteError → Bool
  | http _ (.timedOut _) => true
  | status _ _ code _ => code ≥ 500 || code == 429
  | taskTimeout .. => true
  | _ => false

end RemoteError

end Reconciliation
