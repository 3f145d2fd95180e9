import Reconciliation.FileTree
import Reconciliation.Step

/-! Secrets are stored by namespace and name and are never overwritten. A missing one can be
generated from a supply of random bytes, twenty letters and digits, each equally likely. -/
namespace Reconciliation

structure SecretName where
  ns : String
  name : String
deriving DecidableEq, Repr

namespace SecretName

instance : Ord SecretName := ⟨compareLex (compareOn (·.ns)) (compareOn (·.name))⟩

instance : Std.TransOrd SecretName :=
  inferInstanceAs (Std.TransCmp
    (compareLex (compareOn fun n : SecretName => n.ns) (compareOn (·.name))))

instance : Std.LawfulEqOrd SecretName where
  eq_of_compare {a b} h := by
    obtain ⟨na, ma⟩ := a
    obtain ⟨nb, mb⟩ := b
    have h : (compare na nb).then (compare ma mb) = .eq := h
    simp only [Ordering.then_eq_eq, Std.LawfulEqCmp.compare_eq_iff_eq] at h
    obtain ⟨rfl, rfl⟩ := h
    rfl

def text (n : SecretName) : String := n.ns ++ "/" ++ n.name

end SecretName

inductive SecretError where
  | noSource
  | unreadableFile (path : String) (cause : FileError)
  | variableNotSet (name : String)
  | variableNotText (name : String)
  | notFound (name : SecretName)
  | alreadyExists (name : SecretName)
  | random (reason : String)
  | lockPoisoned
deriving DecidableEq, Repr

namespace SecretError

def message : SecretError → String
  | noSource =>
    "No secret source provided (need one of: direct value, file path, or env var name)"
  | unreadableFile path cause =>
    "Failed to read secret from file '" ++ path ++ "': " ++ cause.message
  | variableNotSet name => "Environment variable '" ++ name ++ "' not set"
  | variableNotText name => "Environment variable '" ++ name ++ "' contains invalid UTF-8"
  | notFound name => "Secret '" ++ name.text ++ "' not found"
  | alreadyExists name => "Secret '" ++ name.text ++ "' already exists"
  | random reason => "Failed to generate random bytes: " ++ reason
  | lockPoisoned => "Secret store lock poisoned"

def isNotFound : SecretError → Bool
  | notFound _ => true
  | _ => false

end SecretError

/-- What reconciling needs of a secret store. -/
class SecretStore (τ : Type) where
  get : SecretName → Step τ SecretError String
  create : SecretName → String → Step τ SecretError Unit
  delete : SecretName → Step τ SecretError Unit

/-- Secrets in memory. -/
abbrev Secrets := Table SecretName String

namespace Secrets

def lookup (name : SecretName) (s : Secrets) : Except SecretError String :=
  match s.get? name with
  | some v => .ok v
  | none => .error (.notFound name)

def create (name : SecretName) (value : String) (s : Secrets) : Except SecretError Unit × Secrets :=
  if s.contains name then (.error (.alreadyExists name), s) else (.ok (), s.insert name value)

def delete (name : SecretName) (s : Secrets) : Except SecretError Unit × Secrets :=
  if s.contains name then (.ok (), s.erase name) else (.error (.notFound name), s)

instance : SecretStore Secrets where
  get name := .answer (lookup name)
  create name value := .mk (create name value)
  delete name := .mk (delete name)

end Secrets

/-- The blocks of random bytes still to come. -/
abbrev Entropy := List (List UInt8)

namespace Entropy

def secretLength : Nat := 20

def alphabet : List Char :=
  "0123456789ABCDEFGHIJKLMNOPQRSTUVWXYZabcdefghijklmnopqrstuvwxyz".toList

/-- The largest multiple of the alphabet's size among the byte values. Bytes from here on are
dropped, so that every character comes from equally many bytes. -/
def limit : UInt8 := 248

def secretChar (b : UInt8) : Char := alphabet.getD (b.toNat % 62) '0'

/-- Characters drawn from blocks until `missing` more are there. -/
def draw (missing : Nat) (blocks : Entropy) : Except SecretError (List Char) × Entropy :=
  if missing = 0 then (.ok [], blocks)
  else
    match blocks with
    | [] => (.error (.random "no entropy"), [])
    | block :: rest =>
      let drawn := ((block.filter (· < limit)).take missing).map secretChar
      match draw (missing - drawn.length) rest with
      | (.ok cs, rest) => (.ok (drawn ++ cs), rest)
      | (.error e, rest) => (.error e, rest)

def generate : Step Entropy SecretError String :=
  .mk fun blocks =>
    match draw secretLength blocks with
    | (.ok cs, rest) => (.ok (String.ofList cs), rest)
    | (.error e, rest) => (.error e, rest)

end Entropy

namespace SecretStore

variable {τ : Type} [SecretStore τ]

def deleteIfStored (name : SecretName) : Step τ SecretError Unit :=
  (delete name).tolerate SecretError.isNotFound

def stored {ε α : Type} (x : Step τ ε α) : Step (τ × Entropy) ε α :=
  x.onPart (·.1) (fun w s => (s, w.2)) id

/-- The stored secret, or a new one. Where another writer is faster, its secret is taken. -/
def getOrGenerate (name : SecretName) : Step (τ × Entropy) SecretError String := do
  match ← (stored (get name)).attempt with
  | .ok value => return value
  | .error (.notFound _) =>
    let value ← Entropy.generate.onPart (·.2) (fun w e => (w.1, e)) id
    match ← (stored (create name value)).attempt with
    | .ok () => return value
    | .error (.alreadyExists _) => stored (get name)
    | .error e => throw e
  | .error e => throw e

end SecretStore

end Reconciliation
