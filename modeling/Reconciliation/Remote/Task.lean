import Reconciliation.Decode
import Reconciliation.Remote
import Reconciliation.Json.Reader
import Reconciliation.Text

namespace Reconciliation

structure DirectorTask where
  id : Nat
  state : String
  result : Option String
deriving DecidableEq, Repr

namespace DirectorTask

def layout : Layout DirectorTask :=
  (fun id state result => ⟨id.toNat, state, result⟩) <$> .required "id" .u64 <*>
    .required "state" .string <*> .optionalNullable "result" .string

def decode : Decoder DirectorTask := layout.decodeOnce "TaskInfo"

/-- The number of the task that a location names at its end. -/
def idAt? (location : String) : Option Nat := do
  let trimmed := (location.toList.reverse.dropWhile (· = '/')).reverse
  let (_, id) ← Text.splitAtLast "/tasks/".toList trimmed
  Text.naturalBelow? UInt64.size id

def isPending (t : DirectorTask) : Bool := ["queued", "processing", "cancelling"].contains t.state

def nanosPerSecond : Nat := 1000000000

def timeout (t : DirectorTask) (waited : Nat) : RemoteError :=
  .taskTimeout t.id t.state (waited / nanosPerSecond)

/-- A limit is given in seconds, what was waited in nanoseconds. -/
def isOverdue (limit : Option Nat) (waited : Nat) : Bool :=
  limit.any fun seconds => seconds * nanosPerSecond ≤ waited

/-- What the state of a task comes to, or nothing as long as it is to be waited for. -/
def outcome? (limit : Option Nat) (waited : Nat) (t : DirectorTask) :
    Option (Except RemoteError Unit) :=
  if t.state = "done" then some (.ok ())
  else if t.isPending then
    if isOverdue limit waited then some (.error (t.timeout waited)) else none
  else some (.error (.task t.id t.state (t.result.getD "")))

end DirectorTask

end Reconciliation
