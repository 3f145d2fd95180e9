import Reconciliation.Proofs.Composition

namespace Reconciliation

namespace World

variable {σ τ ε δ α β : Type}

/-- The step leaves the records as they are, whatever its outcome. -/
def KeepsRecords (x : Step (World σ τ) ε α) : Prop := ∀ w, (x w).2.records = w.records

namespace KeepsRecords

theorem of_reads {x : Step (World σ τ) ε α} (h : Step.Reads x) : KeepsRecords x :=
  Step.Keeps.of_reads h

theorem bind {x : Step (World σ τ) ε α} {f : α → Step (World σ τ) ε β} (hx : KeepsRecords x)
    (hf : ∀ a, KeepsRecords (f a)) : KeepsRecords (x >>= f) :=
  Step.Keeps.bind hx hf

theorem onPart {π : Type} {part : World σ τ → π} {replace : World σ τ → π → World σ τ}
    {wrap : ε → δ} (x : Step π ε α) (h : ∀ w s, (replace w s).records = w.records) :
    KeepsRecords (Step.onPart part replace wrap x) :=
  Step.Keeps.onPart x h

theorem onSecrets (x : Step τ SecretError α) : KeepsRecords (World.onSecrets (σ := σ) x) :=
  onPart x fun _ _ => rfl

theorem onDirector (x : Step Director RemoteError α) :
    KeepsRecords (World.onDirector (σ := σ) (τ := τ) x) :=
  onPart x fun _ _ => rfl

theorem onIdentity (x : Step Identity RemoteError α) :
    KeepsRecords (World.onIdentity (σ := σ) (τ := τ) x) :=
  onPart x fun _ _ => rfl

theorem onSecretSupply (x : Step (τ × Entropy) SecretError α) :
    KeepsRecords (World.onSecretSupply (σ := σ) x) :=
  onPart x fun _ _ => rfl

theorem askClient (log : Clients → Clients) :
    KeepsRecords (World.askClient (σ := σ) (τ := τ) log) := by
  intro w
  simp only [World.askClient, Step.mk_apply]
  cases w.clients.failure <;> rfl

/-- Where such a step ends, a stored record is still stored. -/
theorem holds {k : Kind} {x : Step (World Store τ) ε α} (hx : KeepsRecords x)
    {w v : World Store τ} {y : Except ε α} (h : x w = (y, v)) {r : Record k}
    (hr : w.records.Holds r) : v.records = w.records ∧ v.records.Holds r := by
  have hv : v.records = w.records := by
    rw [← hx w, h]
  exact ⟨hv, by rwa [hv]⟩

end KeepsRecords

end World

open World (KeepsRecords)

theorem Artifact.establish_keepsRecords {τ : Type} (a : ArtifactKind) (r : Record a.kind) :
    KeepsRecords (establish (σ := Store) (τ := τ) a r) :=
  KeepsRecords.bind (.of_reads (Step.Reads.onPart (object_reads a r) fun _ => rfl))
    fun _ => .onDirector _

theorem Artifact.remove_keepsRecords {τ : Type} (a : ArtifactKind) (r : Record a.kind) :
    KeepsRecords (remove (σ := Store) (τ := τ) a r) := by
  unfold Artifact.remove
  split
  · exact .onDirector _
  · exact .of_reads (.pure _)

section

variable {τ : Type} [SecretStore τ]

theorem Credentials.adminIdentity_keepsRecords (sys : String) (d : DirectorSpec) :
    KeepsRecords (adminIdentity (σ := Store) (τ := τ) sys d) :=
  KeepsRecords.bind (.onSecrets _) fun _ => .of_reads (.pure _)

theorem Credentials.identityEndpoint_keepsRecords (sys name : String) :
    KeepsRecords (identityEndpoint (σ := Store) (τ := τ) sys name) :=
  KeepsRecords.bind (.of_reads (director_reads sys name)) fun d => adminIdentity_keepsRecords sys d

theorem Credentials.directorEndpoint_keepsRecords (sys : String) (scope : DirectorScope) :
    KeepsRecords (directorEndpoint (σ := Store) (τ := τ) sys scope) := by
  cases scope with
  | admin name =>
    exact KeepsRecords.bind (.of_reads (director_reads sys name)) fun d =>
      (adminIdentity_keepsRecords sys d).bind fun _ => .of_reads (.pure _)
  | team ns =>
    exact KeepsRecords.bind (.of_reads (teamFor_reads ns)) fun team =>
      KeepsRecords.bind (.of_reads (.ofExcept _)) fun name =>
        KeepsRecords.bind (.of_reads (director_reads sys name)) fun d =>
          KeepsRecords.bind (KeepsRecords.bind (.onSecrets _) fun _ => .of_reads (.pure _))
            fun _ => .of_reads (.pure _)

theorem Reconcile.askDirectorOf_keepsRecords (sys : String) (a : ArtifactKind)
    (r : Record a.kind) : KeepsRecords (askDirectorOf (σ := Store) (τ := τ) sys a r) :=
  (Credentials.directorEndpoint_keepsRecords sys _).bind fun _ => .askClient _

theorem Reconcile.askIdentityOf_keepsRecords (sys : String) (r : Record .team) :
    KeepsRecords (askIdentityOf (σ := Store) (τ := τ) sys r) :=
  KeepsRecords.bind (.of_reads (.ofExcept _)) fun name =>
    (Credentials.identityEndpoint_keepsRecords sys name).bind fun _ => .askClient _

end

end Reconciliation
