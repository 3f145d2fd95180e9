import Reconciliation.Spec.Deployment
import Reconciliation.Text
import Reconciliation.Json.Reader

namespace Reconciliation

inductive MaxInFlight where
  | instances (n : UInt32)
  | percent (text : String)
deriving DecidableEq, Repr

namespace MaxInFlight

def decode : Decoder MaxInFlight := fun v =>
  match Decoder.u32 v, v with
  | .ok n, _ => .ok (instances n)
  | .error _, .str s => .ok (percent s)
  | .error _, _ => .error (.noVariant "MaxInFlight")

def toJson : MaxInFlight → Json
  | instances n => Json.u32 n
  | percent s => .str s

end MaxInFlight

/-- In milliseconds. -/
inductive WatchTime where
  | fixed (ms : UInt64)
  | range (min max : UInt64)
deriving DecidableEq, Repr

namespace WatchTime

def milliseconds? (seconds : UInt64) : Option UInt64 :=
  if seconds.toNat * 1000 < UInt64.size then some (seconds * 1000) else none

/-- The window between two bounds in seconds; an upper bound of zero asks for one fixed wait.
Nothing if a bound does not fit in milliseconds. -/
def ofSeconds? (min max : UInt64) : Option WatchTime := do
  let low ← milliseconds? min
  if max = 0 then return fixed low
  return range low (← milliseconds? max)

/-- One bound, perhaps with blanks around it. -/
def bound? (cs : List Char) : Option UInt64 :=
  (Text.naturalBelow? UInt64.size (Text.trimEnd (Text.trimStart cs))).map Nat.toUInt64

def ofText? (s : String) : Option WatchTime :=
  match Text.splitOnce '-' s.toList with
  | some (low, high) => do return range (← bound? low) (← bound? high)
  | none => (bound? s.toList).map fixed

def decode : Decoder WatchTime := fun v =>
  match Decoder.u64 v, v with
  | .ok ms, _ => .ok (fixed ms)
  | .error _, .str s =>
    match ofText? s with
    | some w => .ok w
    | none => .error (.malformed ("invalid watch time '" ++ s ++ "'"))
  | .error _, _ => .error (.noVariant "Repr")

def toJson : WatchTime → Json
  | fixed ms => .nat ms
  | range low high => .str (toString low.toNat ++ "-" ++ toString high.toNat)

end WatchTime

structure UpdatePolicy where
  canaries : UInt32
  maxInFlight : MaxInFlight
  canaryWatchTime : WatchTime
  updateWatchTime : WatchTime
  serial : Bool
  vmStrategy : String
deriving DecidableEq, Repr

namespace UpdatePolicy

def layout : Layout UpdatePolicy :=
  UpdatePolicy.mk <$> .required "canaries" .u32 <*> .required "max_in_flight" MaxInFlight.decode
    <*> .required "canary_watch_time" WatchTime.decode
    <*> .required "update_watch_time" WatchTime.decode
    <*> .required "serial" .bool <*> .required "vm_strategy" .string

def decode : Decoder UpdatePolicy := layout.decode "UpdatePolicy"

def toJson (p : UpdatePolicy) : Json :=
  .obj [("canaries", Json.u32 p.canaries), ("max_in_flight", p.maxInFlight.toJson),
    ("canary_watch_time", p.canaryWatchTime.toJson),
    ("update_watch_time", p.updateWatchTime.toJson), ("serial", .bool p.serial),
    ("vm_strategy", .str p.vmStrategy)]

/-- A text that is given and not empty. -/
def nonempty (s : Option String) : Option String := s.filter (!·.isEmpty)

/-- The block for a strategy, unless its watch time does not fit. A percentage goes before a number
of replicas, and one replica is the default. -/
def ofStrategy? (s : UpdateStrategy) : Option UpdatePolicy := do
  let watch ← WatchTime.ofSeconds? s.minReadySeconds s.maxReadySeconds
  return {
    canaries := 0
    maxInFlight := match nonempty s.maxUnavailablePercent with
      | some p => .percent p
      | none => .instances (s.maxUnavailableReplicas.getD 1)
    canaryWatchTime := watch
    updateWatchTime := watch
    serial := false
    vmStrategy := (nonempty s.strategyType).getD "delete-create" }

end UpdatePolicy

end Reconciliation
