import Reconciliation.Http.Network
import Reconciliation.Json.Writer

/-! Requests for tokens and all other requests have a script each, which they take one entry from.
When the scripts are used up, every further token is granted and every other request fails. A
network out of reach answers nothing and learns of nothing. -/
namespace Reconciliation

inductive ScriptEntry where
  | reply (response : Http.Response)
  /-- The connection is closed without an answer. -/
  | drop
  /-- No answer comes while the client waits. -/
  | hang

structure ScriptedNetwork where
  tokens : List ScriptEntry := []
  responses : List ScriptEntry := []
  reachable : Bool := true
  /-- How long clients wait, in milliseconds. -/
  patience : Nat := 30000
  clock : Instant := default
  /-- The requests that arrived. -/
  requests : List Http.Request := []

namespace ScriptedNetwork

def asksForToken (r : Http.Request) : Bool :=
  "/oauth/token".toList.isSuffixOf r.url.withoutFragment.toList

def grantedToken (number : Nat) : ScriptEntry :=
  .reply { status := 200, body := Text.Utf8.encode (Json.text (.obj
    [("access_token", .str ("token-" ++ toString number)), ("expires_in", .nat 3600)])) }

def unscripted : ScriptEntry := .reply { status := 500, body := Text.Utf8.encode "unscripted" }

/-- Some responses have no body whatever the script says. -/
def delivered (response : Http.Response) : Http.Response :=
  if response.status = 204 || response.status = 304 then { response with body := [] } else response

def play (r : Http.Request) (n : ScriptedNetwork) :
    ScriptEntry → Except HttpFailure Http.Response × ScriptedNetwork
  | .reply response => (.ok (delivered response), n)
  | .drop => (.error (.unanswered r.url.text), n)
  | .hang => (.error (.timedOut r.url.text), { n with clock := n.clock.addMillis n.patience })

def exchange (r : Http.Request) (n : ScriptedNetwork) :
    Except HttpFailure Http.Response × ScriptedNetwork :=
  if !n.reachable then play r n .hang
  else
    let n := { n with requests := n.requests ++ [r] }
    if asksForToken r then
      let number := (n.requests.filter asksForToken).length
      play r { n with tokens := n.tokens.drop 1 } (n.tokens.headD (grantedToken number))
    else play r { n with responses := n.responses.drop 1 } (n.responses.headD unscripted)

instance : Network ScriptedNetwork where
  exchange r := .mk (exchange r)
  now n := n.clock
  pause millis n := { n with clock := n.clock.addMillis millis }

end ScriptedNetwork

end Reconciliation
