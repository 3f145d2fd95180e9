import Reconciliation.Artifact

/-! One reconcile brings the remote side of one record to what the record asks for. Whatever a
remote call relies on is written before it: a live record is frozen and gets its finalizer before
its object is created, and a deleted one loses its finalizer only after its object is gone. Hence a
reconcile that fails half-way is carried on by the next one. -/
namespace Reconciliation

namespace Reconcile

variable {σ τ : Type} [RecordStore σ] {k : Kind}

/-- Records in the status what is frozen and whether the spec has drifted from it. -/
def freeze (sys : String) (r : Record k) : Run σ τ (Record k) :=
  if r.needsPreparing sys then World.writeStatus (r.prepared sys) else return r

def attachFinalizer (r : Record k) : Run σ τ (Record k) :=
  if r.hasFinalizer then return r else World.write r.withFinalizer

def dropFinalizer (r : Record k) : Run σ τ Unit := do
  let _ ← World.write r.withoutFinalizer

/-- Records that the remote object is in place. -/
def publish (r : Record k) : Run σ τ Unit := do
  if !r.available then
    let _ ← World.writeStatus r.published

/-- Clears the force flag of a deployment, so that it counts once. -/
def consumeForce (r : Record .deployment) : Run σ τ (Record .deployment) :=
  if r.forced then World.write r.unforced else return r

/-- Directors and compilation workers live in the system namespace alone. -/
def requireSystem (sys : String) (r : Record k) : Run σ τ Unit :=
  if r.metadata.ns = sys then return ()
  else throw (.configuration (.misplaced k sys r.metadata.ns))

/-- A Director gets a team of its own in the system namespace. -/
def establishDirector (r : Record .director) : Run σ τ Unit := do
  let _ ← attachFinalizer r
  World.createUnlessStored r.ownTeam

/-- A Director waits until its own team is gone, since the team needs it for its cleanup. -/
def removeDirector (r : Record .director) : Run σ τ Unit := do
  if r.hasFinalizer then
    World.deleteIfStored r.ownTeam.key
    match ← (World.get r.ownTeam.key).attempt with
    | .ok _ => return ()
    | .error (.store (.notFound _)) => dropFinalizer r
    | .error e => throw e

def director (r : Record .director) : Run σ τ Unit :=
  if r.beingDeleted then removeDirector r else establishDirector r

variable [SecretStore τ]

def askDirectorOf (sys : String) (a : ArtifactKind) (r : Record a.kind) : Run σ τ Unit := do
  World.askDirector (← Credentials.directorEndpoint sys (Artifact.scope a r))

/-- The live half of an artifact's life. -/
def establishArtifact (sys : String) (a : ArtifactKind) (r : Record a.kind) : Run σ τ Unit := do
  askDirectorOf sys a r
  let r ← freeze sys r
  let r ← attachFinalizer r
  Artifact.establish a r
  publish r

/-- The deleted half of an artifact's life. -/
def removeArtifact (sys : String) (a : ArtifactKind) (r : Record a.kind) : Run σ τ Unit := do
  if r.hasFinalizer then
    askDirectorOf sys a r
    Artifact.remove a r
    dropFinalizer r

def artifact (sys : String) (a : ArtifactKind) (r : Record a.kind) : Run σ τ Unit :=
  if r.beingDeleted then removeArtifact sys a r else establishArtifact sys a r

def askIdentityOf (sys : String) (r : Record .team) : Run σ τ Unit := do
  let director ← Step.ofExcept (Credentials.frozenDirector r)
  World.askIdentity (← Credentials.identityEndpoint sys director)

/-- A team gets a client at its Director's identity service and a secret for it. -/
def establishTeam (sys : String) (r : Record .team) : Run σ τ Unit := do
  let r ← freeze sys r
  askIdentityOf sys r
  let r ← attachFinalizer r
  let secret ← World.onSecretSupply
    (SecretStore.getOrGenerate ⟨r.secretNamespace, r.internalName⟩)
  World.onIdentity (Identity.ensureTeamClient r.internalName secret)
  publish r

def removeTeam (sys : String) (r : Record .team) : Run σ τ Unit := do
  if r.hasFinalizer then
    askIdentityOf sys r
    World.onIdentity (Identity.removeClient r.internalName)
    World.onSecrets (SecretStore.deleteIfStored ⟨r.secretNamespace, r.internalName⟩)
    dropFinalizer r

def team (sys : String) (r : Record .team) : Run σ τ Unit :=
  if r.beingDeleted then removeTeam sys r else establishTeam sys r

def record (sys : String) : AnyRecord → Run σ τ Unit
  | ⟨.director, r⟩ => do
    requireSystem sys r
    director r
  | ⟨.team, r⟩ => team sys r
  | ⟨.compilation, r⟩ => do
    requireSystem sys r
    artifact sys .compilation r
  | ⟨.deployment, r⟩ => do artifact sys .deployment (← consumeForce r)
  | ⟨.az, r⟩ => artifact sys .az r
  | ⟨.network, r⟩ => artifact sys .network r
  | ⟨.baseImage, r⟩ => artifact sys .baseImage r
  | ⟨.release, r⟩ => artifact sys .release r
  | ⟨.vmExtension, r⟩ => artifact sys .vmExtension r
  | ⟨.role, _⟩ => return ()

end Reconcile

/-- Reconciles the record with this key once. One that is not stored needs nothing. -/
def reconcile {σ τ : Type} [RecordStore σ] [SecretStore τ] (sys : String) (key : Key) :
    Run σ τ Unit := do
  match ← (World.get key).attempt with
  | .ok r => Reconcile.record sys r
  | .error (.store (.notFound _)) => return ()
  | .error e => throw e

end Reconciliation
