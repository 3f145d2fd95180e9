import Reconciliation.Proofs.Stages

/-! A relation on worlds that the basic steps of a reconcile keep is kept by the whole reconcile:
from related worlds it has the same outcome and leads to related worlds. The course of a reconcile
is followed here once, for every such relation and for stores of any type. -/
namespace Reconciliation

open Step (Related)

/-- Both are the same record, and it is under a key that `N` holds of. -/
def Record.Common {k : Kind} (N : Key → Prop) (p q : Record k) : Prop := p = q ∧ N p.key

namespace World

variable {σ τ : Type} [RecordStore σ]

/-- From worlds that `Q` relates, the basic steps of reconciling the records under the keys in `N`
have the same results and lead to worlds that `Q` relates. -/
structure Lockstep (sys : String) (N : Key → Prop) (Q : World σ τ → World σ τ → Prop) : Prop where
  get : ∀ {key}, N key → Related Q (fun r r' => r = r' ∧ N r.key) (get key) (get key)
  write : ∀ {k} {r : Record k}, N r.key → Related Q (Record.Common N) (write r) (write r)
  writeStatus : ∀ {k} {r : Record k}, N r.key →
    Related Q (Record.Common N) (writeStatus r) (writeStatus r)
  director : ∀ {r : Record .director}, N r.key → r.metadata.ns = sys →
    Related Q Eq (Reconcile.director r) (Reconcile.director r)
  teamFor : ∀ {key}, N key → Related Q Eq (Credentials.teamFor key.ns) (Credentials.teamFor key.ns)
  directorSpec : ∀ name,
    Related Q Eq (Credentials.director sys name) (Credentials.director sys name)
  object : ∀ {a} {r : Record (ArtifactKind.kind a)}, N r.key →
    Related Q Eq (onRecords id (Artifact.object a r)) (onRecords id (Artifact.object a r))
  onSecrets : ∀ {α} (x : Step τ SecretError α), Related Q Eq (onSecrets x) (onSecrets x)
  onSecretSupply : ∀ {α} (x : Step (τ × Entropy) SecretError α),
    Related Q Eq (onSecretSupply x) (onSecretSupply x)
  ensure : ∀ o, Related Q Eq (onDirector (Director.ensure o)) (onDirector (Director.ensure o))
  remove : ∀ h, Related Q Eq (onDirector (Director.remove h)) (onDirector (Director.remove h))
  ensureTeamClient : ∀ id secret, Related Q Eq (onIdentity (Identity.ensureTeamClient id secret))
    (onIdentity (Identity.ensureTeamClient id secret))
  removeClient : ∀ id,
    Related Q Eq (onIdentity (Identity.removeClient id)) (onIdentity (Identity.removeClient id))
  askDirector : ∀ e, Related Q Eq (askDirector e) (askDirector e)
  askIdentity : ∀ e, Related Q Eq (askIdentity e) (askIdentity e)

end World

namespace Lockstep

variable {σ τ : Type} [RecordStore σ] {sys : String} {N : Key → Prop}
  {Q : World σ τ → World σ τ → Prop} (hQ : World.Lockstep sys N Q)

include hQ

section

variable {k : Kind} {r : Record k} (hr : N r.key)

include hr

theorem freeze : Related Q (Record.Common N) (Reconcile.freeze sys r) (Reconcile.freeze sys r) :=
  .ite (fun _ => hQ.writeStatus hr) fun _ => .pure ⟨rfl, hr⟩

theorem attachFinalizer :
    Related Q (Record.Common N) (Reconcile.attachFinalizer r) (Reconcile.attachFinalizer r) :=
  .ite (fun _ => .pure ⟨rfl, hr⟩) fun _ => hQ.write (by rwa [Record.key_withFinalizer])

theorem dropFinalizer :
    Related Q Eq (Reconcile.dropFinalizer r) (Reconcile.dropFinalizer r) :=
  (hQ.write (r := r.withoutFinalizer) hr).bind fun _ _ _ => .pure rfl

theorem publish : Related Q Eq (Reconcile.publish r) (Reconcile.publish r) := by
  refine .ite (fun _ => ?_) fun _ => .pure rfl
  exact (hQ.writeStatus (r := r.published) hr).bind fun _ _ _ => .pure rfl

end

theorem consumeForce {r : Record .deployment} (hr : N r.key) :
    Related Q (Record.Common N) (Reconcile.consumeForce r) (Reconcile.consumeForce r) :=
  .ite (fun _ => hQ.write hr) fun _ => .pure ⟨rfl, hr⟩

theorem establish {a : ArtifactKind} {r : Record a.kind} (hr : N r.key) :
    Related Q Eq (Artifact.establish a r) (Artifact.establish a r) := by
  refine (hQ.object hr).bind ?_
  rintro o _ rfl
  exact hQ.ensure o

theorem remove {a : ArtifactKind} (r : Record a.kind) :
    Related Q Eq (Artifact.remove a r) (Artifact.remove a r) := by
  unfold Artifact.remove
  split
  · exact hQ.remove _
  · exact .pure rfl

variable [SecretStore τ]

theorem adminIdentity (d : DirectorSpec) : Related Q Eq (Credentials.adminIdentity sys d)
    (Credentials.adminIdentity sys d) := by
  refine (hQ.onSecrets _).bind ?_
  rintro secret _ rfl
  exact .pure rfl

theorem identityEndpoint (name : String) : Related Q Eq (Credentials.identityEndpoint sys name)
    (Credentials.identityEndpoint sys name) := by
  refine (hQ.directorSpec name).bind ?_
  rintro d _ rfl
  exact adminIdentity hQ d

theorem teamIdentity (t : Record .team) (d : DirectorSpec) :
    Related Q Eq (Credentials.teamIdentity t d) (Credentials.teamIdentity t d) := by
  refine (hQ.onSecrets _).bind ?_
  rintro secret _ rfl
  exact .pure rfl

theorem directorEndpoint {a : ArtifactKind} {r : Record a.kind} (hr : N r.key) :
    Related Q Eq (Credentials.directorEndpoint sys (Artifact.scope a r))
      (Credentials.directorEndpoint sys (Artifact.scope a r)) := by
  cases hscope : Artifact.scope a r with
  | admin name =>
    refine (hQ.directorSpec name).bind ?_
    rintro d _ rfl
    refine (adminIdentity hQ d).bind ?_
    rintro i _ rfl
    exact .pure rfl
  | team ns =>
    obtain rfl : r.key.ns = ns := by
      cases a with
      | compilation => cases hscope
      | _ => exact DirectorScope.team.inj hscope
    refine (hQ.teamFor hr).bind ?_
    rintro t _ rfl
    refine (Related.ofExcept _).bind ?_
    rintro name _ rfl
    refine (hQ.directorSpec name).bind ?_
    rintro d _ rfl
    refine (teamIdentity hQ t d).bind ?_
    rintro i _ rfl
    exact .pure rfl

theorem askDirectorOf {a : ArtifactKind} {r : Record a.kind} (hr : N r.key) :
    Related Q Eq (Reconcile.askDirectorOf sys a r) (Reconcile.askDirectorOf sys a r) := by
  refine (directorEndpoint hQ hr).bind ?_
  rintro e _ rfl
  exact hQ.askDirector e

theorem askIdentityOf (r : Record .team) :
    Related Q Eq (Reconcile.askIdentityOf sys r) (Reconcile.askIdentityOf sys r) := by
  refine (Related.ofExcept _).bind ?_
  rintro name _ rfl
  refine (identityEndpoint hQ name).bind ?_
  rintro e _ rfl
  exact hQ.askIdentity e

section

variable {a : ArtifactKind} {r : Record a.kind} (hr : N r.key)

include hr

theorem establishArtifact :
    Related Q Eq (Reconcile.establishArtifact sys a r) (Reconcile.establishArtifact sys a r) := by
  refine (askDirectorOf hQ hr).bind fun _ _ _ => ?_
  refine (freeze hQ hr).bind ?_
  rintro r _ ⟨rfl, hr⟩
  refine (attachFinalizer hQ hr).bind ?_
  rintro r _ ⟨rfl, hr⟩
  exact (establish hQ hr).bind fun _ _ _ => publish hQ hr

theorem removeArtifact :
    Related Q Eq (Reconcile.removeArtifact sys a r) (Reconcile.removeArtifact sys a r) := by
  refine .ite (fun _ => ?_) fun _ => .pure rfl
  exact (askDirectorOf hQ hr).bind fun _ _ _ => (remove hQ r).bind fun _ _ _ => dropFinalizer hQ hr

theorem artifact : Related Q Eq (Reconcile.artifact sys a r) (Reconcile.artifact sys a r) :=
  .ite (fun _ => removeArtifact hQ hr) fun _ => establishArtifact hQ hr

end

section

variable {r : Record .team} (hr : N r.key)

include hr

theorem establishTeam :
    Related Q Eq (Reconcile.establishTeam sys r) (Reconcile.establishTeam sys r) := by
  refine (freeze hQ hr).bind ?_
  rintro r _ ⟨rfl, hr⟩
  refine (askIdentityOf hQ r).bind fun _ _ _ => ?_
  refine (attachFinalizer hQ hr).bind ?_
  rintro r _ ⟨rfl, hr⟩
  refine (hQ.onSecretSupply _).bind ?_
  rintro secret _ rfl
  exact (hQ.ensureTeamClient _ secret).bind fun _ _ _ => publish hQ hr

theorem removeTeam : Related Q Eq (Reconcile.removeTeam sys r) (Reconcile.removeTeam sys r) := by
  refine .ite (fun _ => ?_) fun _ => .pure rfl
  refine (askIdentityOf hQ r).bind fun _ _ _ => ?_
  refine (hQ.removeClient _).bind fun _ _ _ => ?_
  exact (hQ.onSecrets _).bind fun _ _ _ => dropFinalizer hQ hr

theorem team : Related Q Eq (Reconcile.team sys r) (Reconcile.team sys r) :=
  .ite (fun _ => removeTeam hQ hr) fun _ => establishTeam hQ hr

end

theorem record {r : AnyRecord} (hr : N r.key) :
    Related Q Eq (Reconcile.record sys r) (Reconcile.record sys r) := by
  obtain ⟨k, r⟩ := r
  cases k with
  | director =>
    refine Related.bind (V := fun _ _ => r.metadata.ns = sys) ?_ fun _ _ hns => hQ.director hr hns
    exact .ite (fun hns => .pure hns) fun _ => .throw _
  | team => exact team hQ hr
  | compilation =>
    refine Related.bind (V := Eq) ?_ fun _ _ _ => artifact hQ (a := .compilation) hr
    exact .ite (fun _ => .pure rfl) fun _ => .throw _
  | deployment =>
    refine (consumeForce hQ hr).bind ?_
    rintro r _ ⟨rfl, hr⟩
    exact artifact hQ (a := .deployment) hr
  | az => exact artifact hQ (a := .az) hr
  | network => exact artifact hQ (a := .network) hr
  | baseImage => exact artifact hQ (a := .baseImage) hr
  | release => exact artifact hQ (a := .release) hr
  | vmExtension => exact artifact hQ (a := .vmExtension) hr
  | role => exact .pure rfl

theorem reconcile {key : Key} (hkey : N key) :
    Related Q Eq (reconcile sys key) (reconcile sys key) := by
  refine (hQ.get hkey).attempt_bind ?_ fun e => ?_
  · rintro r _ ⟨rfl, hr⟩
    exact record hQ hr
  · cases e with
    | store cause =>
      cases cause with
      | notFound key => exact .pure rfl
      | _ => exact .throw _
    | _ => exact .throw _

end Lockstep

end Reconciliation
