import Reconciliation.Remote.Token

namespace Reconciliation.IdentityEndpoint

variable {ν : Type} [Network ν]

def service : String := "Identity Service"

def clientsUrl (e : IdentityEndpoint) : String := Http.joinPath e.url "oauth/clients"

def callClients (e : IdentityEndpoint) (method : Http.Method) (url : String)
    (dress : Http.Request → Http.Request) : Talk ν Http.Response :=
  Session.call e true method url fun r => dress (r.accepting "application/json")

/-- The ids of the clients in a list. -/
def decodeClients : Decoder (List String) :=
  let client : Layout String := .required "client_id" .string
  let list : Layout (List String) :=
    .optional "resources" [] (.list (client.decodeOnce "ClientSummary"))
  list.decodeOnce "ClientList"

/-- Whether exactly this client is found. -/
def hasClient (e : IdentityEndpoint) (id : String) : Talk ν Bool := do
  let response ← e.callClients .get e.clientsUrl
    (·.withQuery [("filter", "client_id eq \"" ++ id ++ "\""), ("count", "2")])
  if !response.isSuccess then throw (response.failure service e.clientsUrl)
  match response.read? decodeClients with
  | some ids => return ids == [id]
  | none => throw (.protocol ("Invalid client list: " ++ HttpFailure.undecodable.message))

def newClientBody (id secret : String) (authorities : List String) : String :=
  (Json.obj [("client_id", .str id), ("client_secret", .str secret),
    ("authorized_grant_types", Json.strings ["client_credentials"]),
    ("scope", Json.strings ["uaa.none"]), ("authorities", Json.strings authorities)]).text

/-- Success, or a status that says as much. -/
def accept (url : String) (asGood : Nat) (r : Http.Response) : Except RemoteError Unit :=
  if r.isSuccess || r.status = asGood then .ok () else .error (r.failure service url)

def createClient (e : IdentityEndpoint) (id secret : String) (authorities : List String) :
    Talk ν Unit := do
  let response ← e.callClients .post e.clientsUrl
    (·.withBody "application/json" (newClientBody id secret authorities))
  Step.ofExcept (accept e.clientsUrl 409 response)

def deleteClient (e : IdentityEndpoint) (id : String) : Talk ν Unit := do
  let url := Http.joinPath e.url ("oauth/clients/" ++ id)
  let response ← e.callClients .delete url fun r => r
  Step.ofExcept (accept url 404 response)

end Reconciliation.IdentityEndpoint
