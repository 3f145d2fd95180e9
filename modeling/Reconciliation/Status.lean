import Reconciliation.Spec.Credentials

namespace Reconciliation

def mutationWarning : String := "resource has been mutated; all changes ignored"

/-- Only the frozen spec reaches a remote system. A warning stands here as long as the live spec
differs from it. -/
structure FrozenStatus (σ : Type) where
  warning : String := ""
  frozen : Option σ := none
  /-- Whether the remote object was last seen in place. -/
  available : Bool := false

namespace FrozenStatus

variable {σ : Type}

instance : Inhabited (FrozenStatus σ) := ⟨{}⟩

/-- Freezes the spec if nothing is frozen yet, else brings the warning up to date. -/
def prepared (matching : σ → σ → Bool) (spec : σ) (s : FrozenStatus σ) : FrozenStatus σ :=
  match s.frozen with
  | none => { s with frozen := some spec, warning := "" }
  | some frozen => { s with warning := if matching frozen spec then "" else mutationWarning }

/-- Whether `prepared` has anything to change. -/
def needsPreparing (matching : σ → σ → Bool) (spec : σ) (s : FrozenStatus σ) : Bool :=
  match s.frozen with
  | none => true
  | some frozen => s.warning != if matching frozen spec then "" else mutationWarning

def layout (spec : Decoder σ) : Layout (FrozenStatus σ) :=
  FrozenStatus.mk <$> .optional "warning" "" .string <*> .optionalNullable "original_spec" spec
    <*> .optional "available" false .bool

def decode (spec : Decoder σ) : Decoder (FrozenStatus σ) := (layout spec).decode "FrozenStatus"

def toJson (spec : σ → Json) (s : FrozenStatus σ) : Json :=
  .obj (Json.memberUnless s.warning.isEmpty "warning" (.str s.warning) ++
    Json.memberIfSome "original_spec" spec s.frozen ++ [("available", .bool s.available)])

end FrozenStatus

/-- A team also keeps the namespace in which its client secret was stored. -/
structure TeamStatus extends FrozenStatus TeamSpec where
  secretNamespace : String := ""

namespace TeamStatus

instance : Inhabited TeamStatus := ⟨{}⟩

/-- The secret namespace is recorded the first time that it is missing, and then stays. -/
def prepared (secretNamespace : String) (spec : TeamSpec) (s : TeamStatus) : TeamStatus where
  toFrozenStatus := s.toFrozenStatus.prepared TeamSpec.matching spec
  secretNamespace := if s.secretNamespace.isEmpty then secretNamespace else s.secretNamespace

def needsPreparing (secretNamespace : String) (spec : TeamSpec) (s : TeamStatus) : Bool :=
  s.toFrozenStatus.needsPreparing TeamSpec.matching spec ||
    (s.secretNamespace.isEmpty && !secretNamespace.isEmpty)

def layout : Layout TeamStatus :=
  (fun w f n a => ⟨⟨w, f, a⟩, n⟩) <$> .optional "warning" "" .string
    <*> .optionalNullable "original_spec" TeamSpec.decode
    <*> .optional "secret_namespace" "" .string <*> .optional "available" false .bool

def decode : Decoder TeamStatus := layout.decode "TeamStatus"

def toJson (s : TeamStatus) : Json :=
  .obj (Json.memberUnless s.warning.isEmpty "warning" (.str s.warning) ++
    Json.memberIfSome "original_spec" TeamSpec.toJson s.frozen ++
    Json.memberUnless s.secretNamespace.isEmpty "secret_namespace" (.str s.secretNamespace) ++
    [("available", .bool s.available)])

end TeamStatus

structure DeploymentStatus where
  available : Bool := false
deriving DecidableEq, Repr

namespace DeploymentStatus

instance : Inhabited DeploymentStatus := ⟨{}⟩

def layout : Layout DeploymentStatus := DeploymentStatus.mk <$> .optional "available" false .bool

def decode : Decoder DeploymentStatus := layout.decode "DeploymentStatus"

def toJson (s : DeploymentStatus) : Json := .obj [("available", .bool s.available)]

end DeploymentStatus

/-- The status of kinds of which nothing is observed. -/
structure EmptyStatus where
deriving DecidableEq, Repr

namespace EmptyStatus

instance : Inhabited EmptyStatus := ⟨{}⟩

def layout : Layout EmptyStatus := pure {}

def decode : Decoder EmptyStatus := layout.decode "EmptyStatus"

def toJson (_ : EmptyStatus) : Json := .obj []

end EmptyStatus

end Reconciliation
