import Reconciliation.Composition
import Reconciliation.Remote
import Reconciliation.Secret

namespace Reconciliation

/-- What only an operator can put right. -/
inductive ConfigurationProblem where
  | misplaced (kind : Kind) (allowed found : String)
  | noTeam (ns : String)
  | severalTeams (ns : String) (count : Nat)
  | noDirector (name ns : String)
deriving DecidableEq, Repr

def ConfigurationProblem.message : ConfigurationProblem → String
  | misplaced kind allowed found =>
    kind.title ++ " records are only allowed in namespace '" ++ allowed ++ "', found '" ++ found ++
      "'"
  | noTeam ns => "No team assigned to namespace '" ++ ns ++ "'"
  | severalTeams ns count => "Found " ++ toString count ++ " teams in namespace '" ++ ns ++ "'"
  | noDirector name ns => "Director '" ++ name ++ "' not found in namespace '" ++ ns ++ "'"

inductive ReconcileError where
  | configuration (problem : ConfigurationProblem)
  | resolution (cause : ResolutionError)
  | remote (cause : RemoteError)
  | store (cause : StoreError)
  | secret (cause : SecretError)
  /-- A record that has no frozen spec and needs one. -/
  | unfrozen (key : Key)
deriving DecidableEq, Repr

namespace ReconcileError

def message : ReconcileError → String
  | configuration problem => "Configuration error: " ++ problem.message
  | resolution cause => "Reference resolution failed: " ++ cause.message
  | remote cause => "Remote call failed: " ++ cause.message
  | store cause => "Record store error: " ++ cause.message
  | secret cause => "Secret error: " ++ cause.message
  | unfrozen key => key.text ++ " has no frozen spec"

/-- Whether the record was changed meanwhile, so that reading it again helps. -/
def isConflict : ReconcileError → Bool
  | store (.conflict ..) => true
  | _ => false

def isConfiguration : ReconcileError → Bool
  | configuration _ => true
  | _ => false

end ReconcileError

end Reconciliation
