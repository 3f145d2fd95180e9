import Reconciliation.Double
import Reconciliation.Table

/-! Numbers are kept in the narrowest of three forms: an unsigned or a negative 64-bit integer, or
a finite binary64 number. Members of an object are kept in the order they were given; `sorted` puts
them into key order, the form in which values are compared and stored. -/
namespace Reconciliation

inductive Json.Number where
  | natural (n : UInt64)
  /-- The integer `-(m + 1)`. -/
  | negative (m : Fin (Nat.pow 2 63))
  | double (x : Double)
deriving DecidableEq, Repr

inductive Json where
  | null
  | bool (b : Bool)
  | num (n : Json.Number)
  | str (s : String)
  | arr (items : List Json)
  | obj (members : List (String × Json))
deriving Repr

namespace Json

instance : Inhabited Json := ⟨null⟩

def nat (n : UInt64) : Json := num (.natural n)

def isNull : Json → Bool
  | null => true
  | _ => false

mutual

/-- The value with the members of every object in key order, of a repeated key the last. -/
def sorted : Json → Json
  | arr items => arr (sortedItems items)
  | obj members => obj (Entries.ofList (sortedMembers members))
  | v => v

def sortedItems : List Json → List Json
  | [] => []
  | v :: rest => v.sorted :: sortedItems rest

def sortedMembers : List (String × Json) → List (String × Json)
  | [] => []
  | (k, v) :: rest => (k, v.sorted) :: sortedMembers rest

end

/-- The member of an object with this key. -/
def get? (v : Json) (key : String) : Option Json :=
  match v with
  | obj members => Entries.get? key members
  | _ => none

end Json

end Reconciliation
