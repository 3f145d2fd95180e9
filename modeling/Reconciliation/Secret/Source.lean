import Reconciliation.Host
import Reconciliation.Secret
import Reconciliation.Text

namespace Reconciliation

/-- An empty text is no source, and of several sources the first is taken. -/
structure SecretSource where
  value : Option String := none
  file : Option String := none
  variableName : Option String := none
deriving DecidableEq, Repr

namespace SecretSource

def given (s : Option String) : Option String := s.filter (!·.isEmpty)

def isGiven (s : SecretSource) : Bool :=
  (given s.value).isSome || (given s.file).isSome || (given s.variableName).isSome

/-- Blanks around the secret are dropped, except where it is given as it is. -/
def resolve (h : Host) (s : SecretSource) : Except SecretError String :=
  match given s.value, given s.file, given s.variableName with
  | some value, _, _ => .ok value
  | none, some file, _ =>
    let path := h.expanded file
    match h.read path with
    | .ok content => .ok (Text.trim content)
    | .error e => .error (.unreadableFile path e)
  | none, none, some name =>
    match h.lookUp name with
    | .ok value => .ok (Text.trim value)
    | .error .notSet => .error (.variableNotSet name)
    | .error .notText => .error (.variableNotText name)
  | none, none, none => .error .noSource

end SecretSource

end Reconciliation
