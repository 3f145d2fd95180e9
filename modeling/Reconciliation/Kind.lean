import Reconciliation.Decode

/-! A record is identified by its kind, its namespace and its name. Keys are ordered by kind in the
order of the constructors below, then by namespace and by name. -/
namespace Reconciliation

inductive Kind where
  | director
  | team
  | az
  | network
  | baseImage
  | release
  | role
  | vmExtension
  | compilation
  | deployment
deriving DecidableEq, Repr

namespace Kind

/-- A kind refers only to itself and to kinds before it in this order. -/
def inDependencyOrder : List Kind :=
  [director, team, az, network, compilation, baseImage, release, vmExtension, role, deployment]

def rank : Kind → Nat
  | director => 0
  | team => 1
  | az => 2
  | network => 3
  | baseImage => 4
  | release => 5
  | role => 6
  | vmExtension => 7
  | compilation => 8
  | deployment => 9

theorem rank_injective {a b : Kind} (h : a.rank = b.rank) : a = b := by
  cases a <;> cases b <;> first | rfl | simp [rank] at h

/-- The name written in records. -/
def title : Kind → String
  | director => "Director"
  | team => "Team"
  | az => "AZ"
  | network => "Network"
  | baseImage => "BaseImage"
  | release => "Release"
  | role => "Role"
  | vmExtension => "VMExtension"
  | compilation => "Compilation"
  | deployment => "Deployment"

/-- The lowercase name used in finalizers and in names on the remote systems. -/
def token : Kind → String
  | director => "director"
  | team => "team"
  | az => "az"
  | network => "network"
  | baseImage => "baseimage"
  | release => "release"
  | role => "role"
  | vmExtension => "vmextension"
  | compilation => "compilation"
  | deployment => "deployment"

/-- The finalizer that guards the remote cleanup of records of this kind. -/
def finalizer (k : Kind) : String := k.token ++ ".finalizers.boshsync.io"

/-- The name of a record on the remote systems. A namespace that is a DNS label holds no point, so
that the first two points separate the three parts. -/
def internalName (k : Kind) (ns name : String) : String := k.token ++ "." ++ ns ++ "." ++ name

/-- The names a record may give its kind, with two older ones. -/
def spellings : List (String × Kind) :=
  [("Director", director), ("Team", team), ("AZ", az), ("Network", network),
    ("BaseImage", baseImage), ("Stemcell", baseImage), ("Release", release), ("Role", role),
    ("Extension", vmExtension), ("VMExtension", vmExtension), ("Compilation", compilation),
    ("Deployment", deployment)]

def ofSpelling (s : String) : Except DecodeError Kind :=
  match spellings.lookup s with
  | some k => .ok k
  | none => .error (.unknownVariant s (spellings.map (·.1)))

/-- A kind is a text, or an object whose single member has the kind's name and no value. -/
def decode : Decoder Kind
  | .str s => ofSpelling s
  | .obj [(s, v)] =>
    match ofSpelling s with
    | .error e => .error e
    | .ok k => if v.isNull then .ok k else .error (.invalidType v "unit")
  | .obj members => .error (.invalidValue (.obj members) "map with a single key")
  | v => .error (.invalidType v "string or map")

/-- The lowercase form of a character, as far as it decides whether a text names a kind: besides
the capital letters only the Kelvin sign has an ASCII letter as its lowercase form. -/
def lowercase (c : Char) : Char := if c = '\u212a' then 'k' else c.toLower

/-- The tokens in any case, with those of the two older names. -/
def ofToken? (s : String) : Option Kind :=
  let s := String.ofList (s.toList.map lowercase)
  if s = "stemcell" then some baseImage
  else if s = "extension" then some vmExtension
  else inDependencyOrder.find? (·.token == s)

def unknownMessage (s : String) : String := "Unknown resource kind: " ++ s

end Kind

structure Key where
  kind : Kind
  ns : String
  name : String
deriving DecidableEq, Repr

namespace Key

instance : Ord Key :=
  ⟨compareLex (compareOn (·.kind.rank)) (compareLex (compareOn (·.ns)) (compareOn (·.name)))⟩

instance : Std.TransOrd Key :=
  inferInstanceAs (Std.TransCmp
    (compareLex (compareOn fun k : Key => k.kind.rank)
      (compareLex (compareOn (·.ns)) (compareOn (·.name)))))

instance : Std.LawfulEqOrd Key where
  eq_of_compare {a b} h := by
    obtain ⟨ka, na, ma⟩ := a
    obtain ⟨kb, nb, mb⟩ := b
    have h : (compare ka.rank kb.rank).then ((compare na nb).then (compare ma mb)) = .eq := h
    simp only [Ordering.then_eq_eq, Std.LawfulEqCmp.compare_eq_iff_eq] at h
    obtain ⟨hk, rfl, rfl⟩ := h
    rw [Kind.rank_injective hk]

def text (k : Key) : String := k.kind.title ++ " " ++ k.ns ++ "/" ++ k.name

def internalName (k : Key) : String := k.kind.internalName k.ns k.name

end Key

end Reconciliation
