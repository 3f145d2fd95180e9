import Reconciliation.Remote
import Reconciliation.Step
import Reconciliation.Table

namespace Reconciliation

structure IdentityClient where
  secret : String
  authorities : List String
deriving DecidableEq, Repr

inductive IdentityCall where
  | hasClient (id : String)
  | createClient (id : String)
  | deleteClient (id : String)
deriving DecidableEq, Repr

structure Identity where
  clients : Table String IdentityClient := ∅
  calls : List IdentityCall := []
  /-- The reason for which every call is rejected. -/
  failure : Option String := none

namespace Identity

instance : Inhabited Identity := ⟨{}⟩

/-- Calls are logged before they are answered. -/
def answer {α : Type} (call : IdentityCall) (f : Identity → α × Identity) :
    Step Identity RemoteError α :=
  .mk fun i =>
    let i := { i with calls := i.calls ++ [call] }
    match i.failure with
    | some reason => (.error (.rejected reason), i)
    | none =>
      let (a, i) := f i
      (.ok a, i)

def hasClient (id : String) : Step Identity RemoteError Bool :=
  answer (.hasClient id) fun i => (i.clients.contains id, i)

def createClient (id : String) (client : IdentityClient) : Step Identity RemoteError Unit :=
  answer (.createClient id) fun i => ((), { i with clients := i.clients.insert id client })

def deleteClient (id : String) : Step Identity RemoteError Unit :=
  answer (.deleteClient id) fun i => ((), { i with clients := i.clients.erase id })

/-- What the client of a team may do: manage its releases and stemcells. -/
def teamAuthorities : List String := ["bosh.admin"]

/-- Registers a team's client unless one with its id is there. -/
def ensureTeamClient (id secret : String) : Step Identity RemoteError Unit := do
  if !(← hasClient id) then createClient id ⟨secret, teamAuthorities⟩

def removeClient (id : String) : Step Identity RemoteError Unit := do
  if ← hasClient id then deleteClient id

end Identity

end Reconciliation
