import Reconciliation.Reconcile.Error
import Reconciliation.Remote.Director
import Reconciliation.Remote.Identity

/-! Everything that a reconcile reads and changes: the record store, the secret store and its
supply of random bytes, the Director, the identity service, and the log of the endpoints for which
clients were asked. The stores may be of any type that has their operations. -/
namespace Reconciliation

/-- The endpoints for which clients were asked, each as it was asked for. -/
structure Clients where
  directors : List DirectorEndpoint := []
  identities : List IdentityEndpoint := []
  /-- The reason for which no client can be built. -/
  failure : Option String := none
deriving Repr

structure World (σ τ : Type) where
  records : σ
  secrets : τ
  entropy : Entropy := []
  director : Director := {}
  identity : Identity := {}
  clients : Clients := {}
  /-- The time of deletion requests. -/
  now : Instant

/-- A step in the world, as a reconcile takes it. -/
abbrev Run (σ τ α : Type) := Step (World σ τ) ReconcileError α

namespace World

variable {σ τ ε δ α : Type}

def onRecords (wrap : ε → δ) (x : Step σ ε α) : Step (World σ τ) δ α :=
  x.onPart (·.records) (fun w s => { w with records := s }) wrap

def onSecrets (x : Step τ SecretError α) : Run σ τ α :=
  x.onPart (·.secrets) (fun w s => { w with secrets := s }) .secret

/-- A step on the secrets that may need random bytes. -/
def onSecretSupply (x : Step (τ × Entropy) SecretError α) : Run σ τ α :=
  x.onPart (fun w => (w.secrets, w.entropy))
    (fun w s => { w with secrets := s.1, entropy := s.2 }) .secret

def onDirector (x : Step Director RemoteError α) : Run σ τ α :=
  x.onPart (·.director) (fun w d => { w with director := d }) .remote

def onIdentity (x : Step Identity RemoteError α) : Run σ τ α :=
  x.onPart (·.identity) (fun w i => { w with identity := i }) .remote

def askClient (log : Clients → Clients) : Run σ τ Unit :=
  .mk fun w =>
    match w.clients.failure with
    | some reason => (.error (.remote (.certificate reason)), w)
    | none => (.ok (), { w with clients := log w.clients })

/-- Asks for a Director client; the endpoint is logged unless no client can be built. -/
def askDirector (e : DirectorEndpoint) : Run σ τ Unit :=
  askClient fun c => { c with directors := c.directors ++ [e] }

def askIdentity (e : IdentityEndpoint) : Run σ τ Unit :=
  askClient fun c => { c with identities := c.identities ++ [e] }

variable [RecordStore σ]

def get (key : Key) : Run σ τ AnyRecord := onRecords .store (RecordStore.get key)

/-- Writes metadata and spec and gives back the stored record. -/
def write {k : Kind} (r : Record k) : Run σ τ (Record k) := onRecords .store (RecordStore.write r)

/-- Writes the status and gives back the stored record. -/
def writeStatus {k : Kind} (r : Record k) : Run σ τ (Record k) :=
  onRecords .store (RecordStore.writeStatus r)

def createUnlessStored (r : AnyRecord) : Run σ τ Unit :=
  onRecords .store (RecordStore.createUnlessStored r)

def deleteIfStored (key : Key) : Run σ τ Unit :=
  .mk fun w => onRecords .store (RecordStore.deleteIfStored w.now key) w

end World

end Reconciliation
