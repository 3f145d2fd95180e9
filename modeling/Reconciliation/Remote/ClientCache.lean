import Reconciliation.Remote
import Reconciliation.Step

/-! Clients are kept by where they connect and whose tokens they use. A changed secret replaces the
client, and a client that cannot be built changes nothing. -/
namespace Reconciliation

namespace Certificate

/-- Where the lines of a text are, in or between sections. -/
inductive Place where
  | outside
  | inside (label : List Char)
  /-- A certificate was found, or a section that does not begin properly. -/
  | met

def opening : List Char := "-----BEGIN ".toList

/-- The label of an opening line, between the words and five dashes. -/
def label? (line : List Char) : Option (List Char) :=
  let shown := (line.reverse.dropWhile fun c => c = ' ' || c = '\r').reverse
  let label := ((shown.drop opening.length).reverse.dropWhile (· = '-')).reverse
  if opening ++ label ++ List.replicate 5 '-' = shown then some label else none

def step (p : Place) (line : List Char) : Place :=
  match p with
  | .met => .met
  | .outside =>
    if opening.isPrefixOf line then (label? line).elim .met .inside else .outside
  | .inside label =>
    if ("-----END ".toList ++ label ++ List.replicate 5 '-').isPrefixOf line then
      if label = "CERTIFICATE".toList then .met else .outside
    else .inside label

/-- Whether a text holds none of the sections that a certificate would be in. No certificate is
valid here, since there is no service to connect to with one. -/
def isAbsent (text : String) : Bool :=
  match (text.toList.splitOn '\n').foldl step .outside with
  | .outside => true
  | _ => false

/-- Whether a client can be built with a text of certificates. -/
def check (text : String) : Except RemoteError Unit :=
  if isAbsent text then .ok () else .error (.http "" .unbuildable)

end Certificate

structure ClientKey where
  url : String
  caCert : String
  authUrl : String
  clientId : String
deriving DecidableEq, Repr

/-- A client for an endpoint. The serial number tells it from others for the same endpoint. -/
structure BuiltClient (ε : Type) where
  serial : Nat
  endpoint : ε
deriving DecidableEq, Repr

structure CachedClient (ε : Type) where
  secret : String
  client : BuiltClient ε

structure ClientCache (ε : Type) where
  entries : List (ClientKey × CachedClient ε) := []
  built : Nat := 0

namespace ClientCache

variable {ε : Type}

def find? (c : ClientCache ε) (key : ClientKey) : Option (CachedClient ε) := c.entries.lookup key

def size (c : ClientCache ε) : Nat := c.entries.length

def put (key : ClientKey) (e : CachedClient ε) (c : ClientCache ε) : ClientCache ε :=
  ⟨(key, e) :: c.entries.filter (·.1 ≠ key), c.built + 1⟩

/-- The kept client if the secret is still the same, or else a new one. -/
def obtain (key : ClientKey) (secret : String) (endpoint : ε) (check : Except RemoteError Unit) :
    Step (ClientCache ε) RemoteError (BuiltClient ε) := do
  let c ← get
  match (c.find? key).filter (·.secret = secret) with
  | some e => return e.client
  | none =>
    Step.ofExcept check
    let client : BuiltClient ε := ⟨c.built, endpoint⟩
    set (c.put key ⟨secret, client⟩)
    return client

end ClientCache

structure ClientFactory where
  directors : ClientCache DirectorEndpoint := {}
  identities : ClientCache IdentityEndpoint := {}

namespace ClientFactory

def size (f : ClientFactory) : Nat := f.directors.size + f.identities.size

def checkDirector (e : DirectorEndpoint) : Except RemoteError Unit := do
  Certificate.check e.caCert
  Certificate.check e.auth.caCert

def directorKey (e : DirectorEndpoint) : ClientKey := ⟨e.url, e.caCert, e.auth.url, e.auth.clientId⟩

def identityKey (e : IdentityEndpoint) : ClientKey := ⟨e.url, e.caCert, e.url, e.clientId⟩

/-- A Director client, where `built` tells what comes of building a new one. -/
def directorFrom (built : Except RemoteError Unit) (e : DirectorEndpoint) :
    Step ClientFactory RemoteError (BuiltClient DirectorEndpoint) :=
  (ClientCache.obtain (directorKey e) e.auth.clientSecret e built).onPart
    (·.directors) (fun f c => { f with directors := c }) id

def identityFrom (built : Except RemoteError Unit) (e : IdentityEndpoint) :
    Step ClientFactory RemoteError (BuiltClient IdentityEndpoint) :=
  (ClientCache.obtain (identityKey e) e.clientSecret e built).onPart
    (·.identities) (fun f c => { f with identities := c }) id

def director (e : DirectorEndpoint) :
    Step ClientFactory RemoteError (BuiltClient DirectorEndpoint) :=
  directorFrom (checkDirector e) e

def identity (e : IdentityEndpoint) :
    Step ClientFactory RemoteError (BuiltClient IdentityEndpoint) :=
  identityFrom (Certificate.check e.caCert) e

end ClientFactory

end Reconciliation
