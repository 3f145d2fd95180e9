import Reconciliation.Decode

/-! Provider-specific properties are handed to the Director as they are. Two of them are the same
when their canonical texts are, so that the order of members never matters; a missing one matches
null. -/
namespace Reconciliation

abbrev CloudProperties := Json

namespace CloudProperties

def canonicalOf (p : Option CloudProperties) : String :=
  match p with
  | none => "null"
  | some v => Json.canonical v

def matching (a b : Option CloudProperties) : Bool := canonicalOf a == canonicalOf b

/-- Sameness of two present or two missing blobs, where a missing one differs from null. -/
def same (a b : Option CloudProperties) : Bool :=
  match a, b with
  | none, none => true
  | some v, some w => Json.canonical v == Json.canonical w
  | _, _ => false

def layout (name : String) : Layout (Option CloudProperties) := .optionalNullable name .json

def member (name : String) (p : Option CloudProperties) : List (String × Json) :=
  Json.memberIfSome name id p

end CloudProperties

/-- Two lists with the same members, whatever their order and repetitions. -/
def sameMembers (a b : List String) : Bool := a.all b.contains && b.all a.contains

theorem sameMembers_iff {a b : List String} : sameMembers a b = true ↔ ∀ x, x ∈ a ↔ x ∈ b := by
  simp only [sameMembers, Bool.and_eq_true, List.all_eq_true, List.contains_iff_mem]
  exact ⟨fun h x => ⟨h.1 x, h.2 x⟩, fun h => ⟨fun x hx => (h x).1 hx, fun x hx => (h x).2 hx⟩⟩

end Reconciliation
