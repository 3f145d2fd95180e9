import Reconciliation.Freezing
import Reconciliation.World

/-! Which Director a record belongs to and with which client it is called. A namespace is bound to
a Director through its one team, whose client has its secret where the team's status says. The
admin client of a Director has its secret in the system namespace. -/
namespace Reconciliation

/-- Whose credentials a record's Director calls need. -/
inductive DirectorScope where
  /-- Those of the team bound to this namespace. -/
  | team (ns : String)
  /-- Those of the admin client of this Director record. -/
  | admin (director : String)
deriving DecidableEq, Repr

namespace Credentials

variable {σ τ : Type} [RecordStore σ]

def teamFor (ns : String) : Run σ τ (Record .team) := do
  match ← World.onRecords .store (RecordStore.fetchAll .team ns) with
  | [] => throw (.configuration (.noTeam ns))
  | [team] => return team
  | teams => throw (.configuration (.severalTeams ns teams.length))

/-- A Director record of the system namespace. -/
def director (sys name : String) : Run σ τ DirectorSpec :=
  World.onRecords
    (fun
      | .notFound _ => .configuration (.noDirector name sys)
      | e => .store e)
    do
      let r ← RecordStore.fetch .director sys name
      return (r.spec : DirectorSpec)

def frozenOf {k : Kind} (r : Record k) : Except ReconcileError (Spec k) :=
  match r.frozen? with
  | some spec => .ok spec
  | none => .error (.unfrozen r.key)

/-- The Director a team was frozen with. -/
def frozenDirector (team : Record .team) : Except ReconcileError String := do
  let spec : TeamSpec ← frozenOf team
  return spec.director

variable [SecretStore τ]

def secret (ns name : String) : Run σ τ String := World.onSecrets (SecretStore.get ⟨ns, name⟩)

def adminIdentity (sys : String) (d : DirectorSpec) : Run σ τ IdentityEndpoint := do
  return ⟨d.uaaUrl, d.uaaCaCert, d.uaaClient, ← secret sys d.uaaClientSecret⟩

/-- The identity service of a Director, called with its admin client. -/
def identityEndpoint (sys name : String) : Run σ τ IdentityEndpoint := do
  adminIdentity sys (← director sys name)

def teamIdentity (team : Record .team) (d : DirectorSpec) : Run σ τ IdentityEndpoint := do
  return ⟨d.uaaUrl, d.uaaCaCert, team.internalName, ← secret team.secretNamespace team.internalName⟩

def directorEndpoint (sys : String) : DirectorScope → Run σ τ DirectorEndpoint
  | .admin name => do
    let d ← director sys name
    return ⟨d.url, d.caCert, ← adminIdentity sys d⟩
  | .team ns => do
    let team ← teamFor ns
    let d ← director sys (← Step.ofExcept (frozenDirector team))
    return ⟨d.url, d.caCert, ← teamIdentity team d⟩

end Credentials

end Reconciliation
