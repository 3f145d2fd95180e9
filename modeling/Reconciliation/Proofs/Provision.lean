import Reconciliation.Proofs.Manifest
import Reconciliation.Proofs.Warning

/-! A world is provided for if whatever its records refer to is there and the remote services
answer. Reconciling a record of such a world succeeds, as soon as the records of earlier kinds in
its namespace are settled. What the success makes of the world is stated once, for all kinds. -/
namespace Reconciliation

/-- The step succeeds and changes nothing. -/
def Step.Answers {σ ε α : Type} (x : Step σ ε α) (s : σ) : Prop := ∃ a, x s = (.ok a, s)

namespace Step.Answers

variable {σ ε δ α β : Type} {s : σ}

theorem pure (a : α) : Answers (pure a : Step σ ε α) s := ⟨a, rfl⟩

theorem bind {x : Step σ ε α} {f : α → Step σ ε β} (hx : Answers x s)
    (hf : ∀ a, x s = (.ok a, s) → Answers (f a) s) : Answers (x >>= f) s := by
  obtain ⟨a, ha⟩ := hx
  obtain ⟨b, hb⟩ := hf a ha
  exact ⟨b, by rw [bind_ok ha, hb]⟩

theorem mapError {f : ε → δ} {x : Step σ ε α} (hx : Answers x s) : Answers (mapError f x) s := by
  obtain ⟨a, ha⟩ := hx
  exact ⟨a, Step.mapError_ok ha⟩

theorem mapM {f : α → Step σ ε β} {l : List α} (h : ∀ a ∈ l, Answers (f a) s) :
    Answers (l.mapM f) s := by
  induction l with
  | nil => exact pure []
  | cons a l ih =>
    rw [List.mapM_cons]
    refine (h a List.mem_cons_self).bind fun b _ => ?_
    exact (ih fun a ha => h a (List.mem_cons_of_mem _ ha)).bind fun bs _ => pure (b :: bs)

theorem ofExcept {r : Except ε α} {a : α} (h : r = .ok a) :
    Answers (ofExcept r : Step σ ε α) s := ⟨a, by rw [ofExcept_apply, h]⟩

end Step.Answers

open Step (Answers)

/-- The spec that counts: the frozen one, or the live one until there is one. -/
def Record.effective {k : Kind} (r : Record k) : Spec k := r.frozen?.getD r.spec

theorem Record.effective_of_frozen? {k : Kind} {r : Record k} {spec : Spec k}
    (h : r.frozen? = some spec) : r.effective = spec := by
  rw [effective, h, Option.getD_some]

/-- All that the manifest of a deployment in this namespace is composed of is stored, and its sums
fit. -/
structure DeploymentSpec.Composable (s : Store) (ns : String) (d : DeploymentSpec) : Prop where
  jobs : ∀ c ∈ d.containers, ∃ role : Record .role, s.Holds role ∧ role.key = ⟨.role, ns, c.role⟩ ∧
    s.Stored ⟨.release, ns, (role.spec : RoleSpec).source.release⟩
  imports : ∀ c ∈ d.containers, ∀ link ∈ c.imports.toList,
    s.Stored ⟨.deployment, ns, link.2.importedFrom⟩
  baseImage : s.Stored ⟨.baseImage, ns, d.baseImage⟩
  azs : ∀ az ∈ d.azs, s.Stored ⟨.az, ns, az⟩
  extensions : ∀ e ∈ d.extensions, s.Stored ⟨.vmExtension, ns, e⟩
  network : s.Stored ⟨.network, ns, d.network⟩
  resources : (Footprint.ofContainers? d.containers).isSome = true
  readySeconds : (UpdatePolicy.ofStrategy? d.updateStrategy).isSome = true

/-- No record is marked for deletion, the remote services and the factory of clients answer, and
every record finds what it refers to. -/
structure World.Provided (sys : String) (w : World Store Secrets) : Prop where
  wellFormed : w.records.WellFormed
  live : ∀ {k : Kind} {r : Record k}, w.records.Holds r → r.beingDeleted = false
  directorUp : w.director.failure = none
  identityUp : w.identity.failure = none
  clientsUp : w.clients.failure = none
  directors : ∀ {r : Record .director}, w.records.Holds r → r.metadata.ns = sys ∧
    (w.secrets.get? ⟨sys, (r.spec : DirectorSpec).uaaClientSecret⟩).isSome = true
  teams : ∀ {r : Record .team}, w.records.Holds r →
    w.records.Stored ⟨.director, sys, (r.effective : TeamSpec).director⟩
  compilations : ∀ {r : Record .compilation}, w.records.Holds r → r.metadata.ns = sys ∧
    w.records.Stored ⟨.director, sys, (r.effective : CompilationSpec).director⟩
  /-- Any other artifact is in the namespace of exactly one team. -/
  tenants : ∀ {a : ArtifactKind} {r : Record a.kind}, a ≠ .compilation → w.records.Holds r →
    r.metadata.ns ≠ sys ∧
      ∃ team, ∀ name, w.records.Stored ⟨.team, r.metadata.ns, name⟩ ↔ name = team
  networks : ∀ {r : Record .network}, w.records.Holds r →
    ∀ subnet ∈ (r.effective : NetworkSpec).subnets, ∀ az ∈ subnet.azs,
      w.records.Stored ⟨.az, r.metadata.ns, az⟩
  releases : ∀ {r : Record .release}, w.records.Holds r →
    (w.director.releaseSources.get? (r.effective : ReleaseSpec).url).isSome = true
  baseImages : ∀ {r : Record .baseImage}, w.records.Holds r →
    (w.director.stemcellSources.get? (r.effective : BaseImageSpec).url).isSome = true
  deployments : ∀ {r : Record .deployment}, w.records.Holds r →
    DeploymentSpec.Composable w.records r.metadata.ns r.effective

theorem Kind.mem_inDependencyOrder (k : Kind) : k ∈ inDependencyOrder := by
  cases k <;> decide

/-- The place of a kind in the order of a sweep. -/
def Kind.place (k : Kind) : Nat := inDependencyOrder.idxOf k

theorem Kind.place_director_lt {k : Kind} (hk : k ≠ .director) : director.place < k.place := by
  cases k with
  | director => exact absurd rfl hk
  | _ => decide

theorem ArtifactKind.place_team_lt (a : ArtifactKind) : Kind.team.place < a.kind.place := by
  cases a <;> decide

/-- The record as a reconcile leaves it that succeeds. -/
def Record.brought {k : Kind} (sys : String) (r : Record k) : Record k :=
  if k = .role then r else (r.consumed.readied sys).settled

/-- What comes with a record is there: the own team of a Director, the secret and the client of a
team. -/
def World.Equips (w : World Store Secrets) : {k : Kind} → Record k → Prop
  | .director, r => w.records.Stored r.ownTeam.key
  | .team, r => (w.secrets.get? ⟨r.secretNamespace, r.internalName⟩).isSome = true ∧
    w.identity.clients.contains r.internalName = true
  | _, _ => True

/-- A reconcile of the record has nothing left to write. -/
structure World.Settled (sys : String) (w : World Store Secrets) {k : Kind} (r : Record k) :
    Prop where
  holds : w.records.Holds r
  brought : r.brought sys = r
  equipped : w.Equips r

/-- The key is that of a settled record. -/
def World.Done (sys : String) (w : World Store Secrets) (key : Key) : Prop :=
  ∃ k, ∃ r : Record k, r.key = key ∧ w.Settled sys r

/-- Outside the system namespace, the records of earlier kinds in the namespace are settled. -/
def World.Ready (sys : String) (w : World Store Secrets) (key : Key) : Prop :=
  ∀ {key' : Key}, w.records.Stored key' → key'.ns = key.ns → key'.ns ≠ sys →
    key'.kind.place < key.kind.place → w.Done sys key'

namespace Record

variable {k : Kind} {sys : String}

theorem brought_of_ne (hk : k ≠ .role) (sys : String) (r : Record k) :
    r.brought sys = (r.consumed.readied sys).settled := if_neg hk

theorem brought_artifact (sys : String) {a : ArtifactKind} (r : Record a.kind) :
    r.brought sys = (r.consumed.readied sys).settled := by
  cases a <;> rfl

@[simp]
theorem key_brought (sys : String) (r : Record k) : (r.brought sys).key = r.key := by
  unfold brought
  split
  · rfl
  · simp

theorem beingDeleted_brought (sys : String) (r : Record k) :
    (r.brought sys).beingDeleted = r.beingDeleted := by
  unfold brought
  split
  · rfl
  · rw [beingDeleted_settled, beingDeleted_readied, beingDeleted_consumed]

theorem consumed_brought (sys : String) (r : Record k) :
    (r.brought sys).consumed = r.brought sys := by
  unfold brought
  split
  · next hk =>
    subst hk
    rfl
  · exact consumed_eq_self (r := r) (by rw [spec_settled, spec_readied])

theorem brought_brought (sys : String) (r : Record k) :
    (r.brought sys).brought sys = r.brought sys := by
  by_cases hk : k = .role
  · subst hk
    rfl
  · rw [brought_of_ne hk sys (r.brought sys), consumed_brought, brought_of_ne hk, readied_settled,
      settled_settled]

theorem isSome_frozen?_brought (hk : k.freezes = true) (sys : String) (r : Record k) :
    (r.brought sys).frozen?.isSome = true := by
  have hne : k ≠ .role := by
    rintro rfl
    cases hk
  rw [brought_of_ne hne, (r.consumed.readied sys).alike_settled.frozen?,
    frozen?_readied_of_freezes hk]
  rfl

theorem available_brought (sys : String) (r : Record k) : (r.brought sys).available = true := by
  unfold brought
  split
  · next hk =>
    subst hk
    rfl
  · exact available_settled _

end Record

namespace World

variable {w : World Store Secrets} {sys : String} {k : Kind}

theorem Settled.frozen {r : Record k} (h : w.Settled sys r) (hk : k.freezes = true) :
    r.frozen?.isSome = true := by
  rw [← h.brought]
  exact Record.isSome_frozen?_brought hk sys r

theorem Done.settled {r : Record k} (h : w.Done sys r.key) (hr : w.records.Holds r) :
    w.Settled sys r := by
  obtain ⟨k', r', hk, hs⟩ := h
  cases hr.unique hs.holds hk
  exact hs

/-- A record of an earlier kind that is named by its key is frozen, if its kind freezes at all. -/
theorem Ready.frozen {key : Key} (h : w.Ready sys key) {r : Record k} (hr : w.records.Holds r)
    (hns : r.metadata.ns = key.ns) (hne : r.metadata.ns ≠ sys) (hk : k.place < key.kind.place)
    (hf : k.freezes = true) : r.frozen?.isSome = true :=
  ((h hr.stored hns hne hk).settled hr).frozen hf

end World

namespace Composition

variable {s : Store} {ns : String}

theorem internalNameOf_answers (hs : s.WellFormed) {k : Kind} {name : String}
    (h : s.Stored ⟨k, ns, name⟩) : Answers (internalNameOf k ns name) s :=
  ⟨_, internalNameOf_of_stored hs h⟩

theorem internalNamesOf_answers (hs : s.WellFormed) {k : Kind} {names : List String}
    (h : ∀ name ∈ names, s.Stored ⟨k, ns, name⟩) : Answers (internalNamesOf k ns names) s :=
  .mapM fun name hname => internalNameOf_answers hs (h name hname)

/-- The releases and base images of the namespace have their specs frozen. -/
def FrozenSoftware (s : Store) (ns : String) : Prop :=
  ∀ {k : Kind} {r : Record k}, k = .release ∨ k = .baseImage → s.Holds r → r.metadata.ns = ns →
    r.frozen?.isSome = true

theorem FrozenSoftware.exists_froze (hf : FrozenSoftware s ns) (hs : s.WellFormed) {k : Kind}
    (hk : k = .release ∨ k = .baseImage) {name : String} (h : s.Stored ⟨k, ns, name⟩) :
    ∃ spec : Spec k, s.Froze ns name spec := by
  obtain ⟨r, hr, hkey⟩ := hs.holds_of_stored h
  obtain ⟨spec, hspec⟩ := Option.isSome_iff_exists.1 (hf hk hr (congrArg Key.ns hkey))
  exact ⟨spec, r, hr.finds hkey, hspec⟩

end Composition

/-- What is asked for is all that a manifest needs once the software is frozen. -/
theorem DeploymentSpec.Composable.complete {s : Store} {ns : String} {d : DeploymentSpec}
    (hd : d.Composable s ns) (hs : s.WellFormed) (hf : Composition.FrozenSoftware s ns) :
    d.Complete s ns where
  jobs c hc := by
    obtain ⟨role, hrole, hkey, hstored⟩ := hd.jobs c hc
    obtain ⟨release, hrelease⟩ := hf.exists_froze hs (.inl rfl) hstored
    exact ⟨role.spec, release, ⟨role, hrole.finds hkey, rfl⟩, hrelease⟩
  imports c hc source link hlink :=
    hs.exists_finds_iff.2 (hd.imports c hc (source, link) (Table.get?_eq_some_iff.1 hlink))
  baseImage := hf.exists_froze hs (.inr rfl) hd.baseImage
  azs az haz := hs.exists_finds_iff.2 (hd.azs az haz)
  extensions e he := hs.exists_finds_iff.2 (hd.extensions e he)
  network := hs.exists_finds_iff.2 hd.network
  resources := by
    obtain ⟨footprint, hfootprint⟩ := Option.isSome_iff_exists.1 hd.resources
    have hcovers := Footprint.ofContainers?_eq_some_iff.1 hfootprint
    exact Footprint.exists_covers_iff.1 ⟨footprint, hcovers⟩
  readySeconds := by
    obtain ⟨update, hupdate⟩ := Option.isSome_iff_exists.1 hd.readySeconds
    have himplements := UpdatePolicy.ofStrategy?_eq_some_iff.1 hupdate
    exact UpdatePolicy.exists_implements_iff.1 ⟨update, himplements⟩

theorem Composition.manifest_answers {s : Store} (hs : s.WellFormed) {d : Record .deployment}
    (hd : DeploymentSpec.Composable s d.metadata.ns d.spec)
    (hf : FrozenSoftware s d.metadata.ns) : Answers (manifest d) s := by
  obtain ⟨m, hm⟩ := Manifest.exists_isFor_iff.2 (hd.complete hs hf)
  exact ⟨m, manifest_eq_ok_iff.2 ⟨hm, rfl⟩⟩

variable {w : World Store Secrets} {sys : String}

namespace World

/-- The zones of a frozen network are there. -/
theorem Provided.networkFragment {r : Record .network} {spec : NetworkSpec} (hw : w.Provided sys)
    (hr : w.records.Holds r) (hspec : r.frozen? = some spec) :
    Answers (Artifact.networkFragment r) w.records := by
  have hsubnets : Answers (spec.subnets.mapM (Artifact.subnetEntry r.metadata.ns)) w.records := by
    refine .mapM fun subnet hsubnet => ?_
    refine (Composition.internalNamesOf_answers hw.wellFormed fun az haz => ?_).bind
      fun _ _ => .pure _
    exact hw.networks hr subnet (by rwa [Record.effective_of_frozen? hspec]) az haz
  have hfrozen := Credentials.frozenOf_eq_ok_iff.2 hspec
  refine (Answers.ofExcept hfrozen).bind fun spec' hs => ?_
  cases hfrozen.symm.trans (congrArg Prod.fst hs)
  exact hsubnets.mapError.bind fun _ _ => .pure _

/-- Once a deployment is ready, the software in its namespace is frozen. -/
theorem Provided.frozenSoftware {r : Record .deployment} (hw : w.Provided sys)
    (hr : w.records.Holds r) (hready : w.Ready sys r.key) :
    Composition.FrozenSoftware w.records r.metadata.ns := by
  have hns := (hw.tenants (a := .deployment) (by decide) hr).1
  rintro k q (rfl | rfl) hq hqns
  · have hplace : Kind.release.place < Kind.deployment.place := by decide
    exact hready.frozen hq hqns (hqns ▸ hns) hplace rfl
  · have hplace : Kind.baseImage.place < Kind.deployment.place := by decide
    exact hready.frozen hq hqns (hqns ▸ hns) hplace rfl

/-- A frozen record that finds what it refers to has an object, and the Director accepts it. -/
theorem Provided.object {a : ArtifactKind} {r : Record a.kind} (hw : w.Provided sys)
    (hr : w.records.Holds r) (hf : a.kind.freezes = true → r.frozen?.isSome = true)
    (hready : w.Ready sys r.key) : ∃ o, Artifact.object a r w.records = (.ok o, w.records) ∧
      (w.director.arrived? o).isSome = true := by
  have hfrozen : a.kind.freezes = true → ∃ spec, r.frozen? = some spec ∧
      Credentials.frozenOf r = .ok spec := by
    intro hk
    obtain ⟨spec, hspec⟩ := Option.isSome_iff_exists.1 (hf hk)
    exact ⟨spec, hspec, Credentials.frozenOf_eq_ok_iff.2 hspec⟩
  cases a with
  | az | vmExtension | compilation =>
    obtain ⟨spec, -, hspec⟩ := hfrozen rfl
    refine ⟨.fragment r.internalName (spec.fragment r.internalName), ?_, rfl⟩
    simp only [Artifact.object, Artifact.azFragment, Artifact.vmExtensionFragment,
      Artifact.compilationFragment, hspec]
    rfl
  | network =>
    obtain ⟨spec, hsome, -⟩ := hfrozen rfl
    obtain ⟨config, hconfig⟩ := hw.networkFragment hr hsome
    exact ⟨.fragment r.internalName config, Step.bind_ok hconfig _, rfl⟩
  | release =>
    obtain ⟨spec, hsome, hspec⟩ := hfrozen rfl
    have hurl := hw.releases hr
    rw [Record.effective_of_frozen? hsome] at hurl
    refine ⟨_, ?_, Director.isSome_arrived?_release hurl ⟨spec.releaseName, spec.version⟩ spec.sha1⟩
    simp only [Artifact.object, hspec]
    rfl
  | baseImage =>
    obtain ⟨spec, hsome, hspec⟩ := hfrozen rfl
    have hurl := hw.baseImages hr
    rw [Record.effective_of_frozen? hsome] at hurl
    refine ⟨_, ?_, Director.isSome_arrived?_stemcell hurl ⟨spec.imageName, spec.version⟩ spec.sha1⟩
    simp only [Artifact.object, hspec]
    rfl
  | deployment =>
    obtain ⟨manifest, hmanifest⟩ := Composition.manifest_answers hw.wellFormed (hw.deployments hr)
      (hw.frozenSoftware hr hready)
    exact ⟨.deployment r.internalName manifest,
      Step.bind_ok (Step.mapError_ok hmanifest) _, rfl⟩

/-- Clients can be built, and the admin secret of each Director is stored. -/
structure Accessible (sys : String) (w : World Store Secrets) : Prop where
  wellFormed : w.records.WellFormed
  clientsUp : w.clients.failure = none
  adminSecrets : ∀ {d : Record .director}, w.records.Holds d →
    (w.secrets.get? ⟨sys, (d.spec : DirectorSpec).uaaClientSecret⟩).isSome = true

theorem Provided.accessible (hw : w.Provided sys) : w.Accessible sys where
  wellFormed := hw.wellFormed
  clientsUp := hw.clientsUp
  adminSecrets hd := (hw.directors hd).2

theorem secret_answers {ns name : String} (h : (w.secrets.get? ⟨ns, name⟩).isSome = true) :
    Answers (Credentials.secret ns name) w := by
  obtain ⟨value, hvalue⟩ := Option.isSome_iff_exists.1 h
  exact ⟨value, Credentials.secret_eq_ok_iff.2 ⟨hvalue, rfl⟩⟩

theorem frozenDirector_ok {t : Record .team} (h : t.frozen?.isSome = true) :
    Credentials.frozenDirector t = .ok (t.effective : TeamSpec).director := by
  obtain ⟨spec, hspec⟩ := Option.isSome_iff_exists.1 h
  rw [Record.effective_of_frozen? hspec]
  exact Credentials.frozenDirector_eq_ok_iff.2 ⟨spec, hspec, rfl⟩

/-- A team that is alone in its namespace is found there. -/
theorem teamFor_of_unique {t : Record .team} (ht : w.records.Holds t)
    (hu : ∀ name, w.records.Stored ⟨.team, t.metadata.ns, name⟩ → name = t.metadata.name) :
    Credentials.teamFor t.metadata.ns w = (.ok t, w) :=
  Credentials.teamFor_eq_ok_iff.2 ⟨Store.list_of_unique ht hu, rfl⟩

namespace Accessible

variable (hw : w.Accessible sys)

include hw

theorem director {name : String} (h : w.records.Stored ⟨.director, sys, name⟩) :
    ∃ d : DirectorSpec, Credentials.director sys name w = (.ok d, w) ∧
      (w.secrets.get? ⟨sys, d.uaaClientSecret⟩).isSome = true := by
  obtain ⟨r, hfetch, hr, -⟩ := hw.wellFormed.fetch_stored h
  exact ⟨r.spec, onRecords_ok (Step.bind_ok hfetch _), hw.adminSecrets hr⟩

theorem identityEndpoint {name : String} (h : w.records.Stored ⟨.director, sys, name⟩) :
    Answers (Credentials.identityEndpoint sys name) w := by
  obtain ⟨d, hd, hsecret⟩ := hw.director h
  rw [Answers, Credentials.identityEndpoint, Step.bind_ok hd]
  exact (secret_answers hsecret).bind fun _ _ => .pure _

theorem adminEndpoint {name : String} (h : w.records.Stored ⟨.director, sys, name⟩) :
    Answers (Credentials.directorEndpoint sys (.admin name)) w := by
  obtain ⟨d, hd, hsecret⟩ := hw.director h
  rw [Answers, Credentials.directorEndpoint, Step.bind_ok hd]
  exact ((secret_answers hsecret).bind fun _ _ => .pure _).bind fun _ _ => .pure _

/-- A frozen team with a secret is the way to its Director for the rest of its namespace. -/
theorem teamEndpoint {t : Record .team} (ht : w.records.Holds t) (hf : t.frozen?.isSome = true)
    (hd : w.records.Stored ⟨.director, sys, (t.effective : TeamSpec).director⟩)
    (hs : (w.secrets.get? ⟨t.secretNamespace, t.internalName⟩).isSome = true)
    (hu : ∀ name, w.records.Stored ⟨.team, t.metadata.ns, name⟩ → name = t.metadata.name) :
    Answers (Credentials.directorEndpoint sys (.team t.metadata.ns)) w := by
  obtain ⟨d, hdirector, -⟩ := hw.director hd
  have hname : Step.ofExcept (Credentials.frozenDirector t) w =
      (.ok (t.effective : TeamSpec).director, w) := by
    rw [frozenDirector_ok hf]
    rfl
  rw [Answers, Credentials.directorEndpoint, Step.bind_ok (teamFor_of_unique ht hu),
    Step.bind_ok hname, Step.bind_ok hdirector]
  exact ((secret_answers hs).bind fun _ _ => .pure _).bind fun _ _ => .pure _

theorem askDirectorOf {a : ArtifactKind} {r : Record a.kind}
    (h : Answers (Credentials.directorEndpoint sys (Artifact.scope a r)) w) :
    (Reconcile.askDirectorOf sys a r w).1 = .ok () := by
  obtain ⟨e, he⟩ := h
  rw [Reconcile.askDirectorOf, Step.bind_ok he, askDirector, askClient, Step.mk_apply,
    hw.clientsUp]

theorem askIdentityOf {t : Record .team} (hf : t.frozen?.isSome = true)
    (hd : w.records.Stored ⟨.director, sys, (t.effective : TeamSpec).director⟩) :
    (Reconcile.askIdentityOf sys t w).1 = .ok () := by
  obtain ⟨e, he⟩ := hw.identityEndpoint hd
  rw [Reconcile.askIdentityOf, frozenDirector_ok hf, Step.bind_ok (Step.ofExcept_apply _ _),
    Step.bind_ok he, askIdentity, askClient, Step.mk_apply, hw.clientsUp]

end Accessible

theorem Provided.directorEndpoint {a : ArtifactKind} {r : Record a.kind} (hw : w.Provided sys)
    (hr : w.records.Holds r) (hready : w.Ready sys r.key) :
    Answers (Credentials.directorEndpoint sys (Artifact.scope a r)) w := by
  by_cases ha : a = .compilation
  · subst ha
    exact hw.accessible.adminEndpoint (hw.compilations hr).2
  · obtain ⟨hns, team, hteam⟩ := hw.tenants ha hr
    have hstored : w.records.Stored ⟨.team, r.metadata.ns, team⟩ := (hteam team).2 rfl
    obtain ⟨t, ht, hkey⟩ := hw.wellFormed.holds_of_stored hstored
    have hdone := hready hstored rfl hns a.place_team_lt
    rw [← hkey] at hdone
    have hsettled : w.Settled sys t := hdone.settled ht
    have htns : t.metadata.ns = r.metadata.ns := congrArg Key.ns hkey
    have htname : t.metadata.name = team := congrArg Key.name hkey
    rw [Artifact.scope_of_ne ha, ← htns]
    refine hw.accessible.teamEndpoint ht (hsettled.frozen rfl) (hw.teams ht) hsettled.equipped.1
      fun name hname => ?_
    rw [htname]
    exact (hteam name).1 (htns ▸ hname)

end World

namespace Reconcile

open World

theorem askDirectorOf_ok {a : ArtifactKind} {r : Record a.kind} (hw : w.Provided sys)
    (hr : w.records.Holds r) (hready : w.Ready sys r.key) :
    (askDirectorOf sys a r w).1 = .ok () :=
  hw.accessible.askDirectorOf (hw.directorEndpoint hr hready)

theorem askIdentityOf_ok {t : Record .team} (hw : w.Provided sys) (ht : w.records.Holds t)
    (hf : t.frozen?.isSome = true) : (askIdentityOf sys t w).1 = .ok () :=
  hw.accessible.askIdentityOf hf (hw.teams ht)

end Reconcile

namespace Small

/-- One record of each kind, all but two in the namespace of the team. -/
def only : (k : Kind) → Record k
  | .director => director
  | .team => newTeam
  | .az => az
  | .network => Record.new "team-a" "n"
    ({ subnets := [{ range := "r", gateway := "g", azs := ["z"] }] } : NetworkSpec)
  | .baseImage => Record.new "team-a" "b" (⟨"b", "1", "b-url", ""⟩ : BaseImageSpec)
  | .release => Record.new "team-a" "r" (⟨"r", "1", "r-url", ""⟩ : ReleaseSpec)
  | .role => Record.new "team-a" "o" ({ source := ⟨"r", "j"⟩ } : RoleSpec)
  | .vmExtension => Record.new "team-a" "e" ({} : VmExtensionSpec)
  | .compilation => Record.new "sys" "c" ({
      replicas := 1, cpu := 1, ram := 1, ephemeralDiskSize := 1, networkType := "manual"
      subnetRange := "r", subnetGateway := "g", director := "d" } : CompilationSpec)
  | .deployment => Record.new "team-a" "p" ({
      azs := ["z"], replicas := 1, containers := [{ role := "o" }], extensions := ["e"]
      baseImage := "b", network := "n" } : DeploymentSpec)

/-- Everything was created and nothing reconciled, and there are random bytes for the secrets of two
teams. -/
def created : World Store Secrets where
  records := (Kind.inDependencyOrder.map fun k => (⟨k, only k⟩ : AnyRecord)).foldl
    (fun s r => (Store.create r s).2) ∅
  secrets := (∅ : Secrets).insert ⟨"sys", "s"⟩ "x"
  entropy := [List.replicate 20 0, List.replicate 20 0]
  director := {
    releaseSources := (∅ : Table String ReleaseRef).insert "r-url" ⟨"r", "1"⟩
    stemcellSources := (∅ : Table String ReleaseRef).insert "b-url" ⟨"b", "1"⟩ }
  now := ⟨0, 0⟩

theorem wellFormed_created : created.records.WellFormed := Store.wellFormed_empty.creates _

theorem stored_created (k : Kind) : created.records.Stored (only k).key := by
  refine Store.stored_creates (.inr ?_)
  simp only [List.map_map, List.mem_map]
  exact ⟨k, k.mem_inDependencyOrder, rfl⟩

theorem effective_only (k : Kind) : (only k).effective = (only k).spec := by
  cases k <;> rfl

theorem holds_created {k : Kind} {r : Record k} (h : created.records.Holds r) :
    r.key = (only k).key ∧ r.spec = (only k).spec ∧ r.effective = (only k).spec ∧
      r.beingDeleted = false := by
  obtain h | ⟨q, hq, s, h⟩ := Store.get?_of_creates h
  · cases h
  · obtain ⟨k, -, rfl⟩ := List.mem_map.1 hq
    cases h
    exact ⟨rfl, rfl, effective_only k, rfl⟩

/-- In the namespace of the team there is one record of each kind. -/
theorem name_eq_of_stored {k : Kind} {name : String}
    (h : created.records.Stored ⟨k, "team-a", name⟩) : name = (only k).metadata.name := by
  obtain ⟨r, hr, hkey⟩ := wellFormed_created.holds_of_stored h
  exact congrArg Key.name (hkey.symm.trans (holds_created hr).1)

theorem provided_created : created.Provided "sys" where
  wellFormed := wellFormed_created
  live h := (holds_created h).2.2.2
  directorUp := rfl
  identityUp := rfl
  clientsUp := rfl
  directors h := by
    obtain ⟨hkey, hspec, -⟩ := holds_created h
    have hsecret : (created.secrets.get? ⟨"sys", "s"⟩).isSome = true := by rfl
    exact ⟨congrArg Key.ns hkey, by rw [hspec]; exact hsecret⟩
  teams h := by
    rw [(holds_created h).2.2.1]
    exact stored_created .director
  compilations h := by
    obtain ⟨hkey, -, heffective, -⟩ := holds_created h
    rw [heffective]
    exact ⟨congrArg Key.ns hkey, stored_created .director⟩
  tenants {a r} ha h := by
    have hns : r.metadata.ns = "team-a" := by
      have hns : r.metadata.ns = (only a.kind).metadata.ns := congrArg Key.ns (holds_created h).1
      cases a <;> first | exact hns | exact absurd rfl ha
    rw [hns]
    refine ⟨by decide, "t", fun name => ⟨name_eq_of_stored, ?_⟩⟩
    rintro rfl
    exact stored_created .team
  networks {r} h := by
    obtain ⟨hkey, -, heffective, -⟩ := holds_created h
    have hns : r.metadata.ns = "team-a" := congrArg Key.ns hkey
    rw [heffective, hns]
    intro subnet hsubnet az haz
    obtain rfl := List.mem_singleton.1 hsubnet
    obtain rfl := List.mem_singleton.1 haz
    exact stored_created .az
  releases h := by
    rw [(holds_created h).2.2.1]
    rfl
  baseImages h := by
    rw [(holds_created h).2.2.1]
    rfl
  deployments {r} h := by
    obtain ⟨hkey, -, heffective, -⟩ := holds_created h
    have hns : r.metadata.ns = "team-a" := congrArg Key.ns hkey
    rw [heffective, hns]
    exact
      { jobs := fun c hc => by
          obtain rfl := List.mem_singleton.1 hc
          obtain ⟨role, hrole, hkey⟩ :=
            wellFormed_created.holds_of_stored (stored_created .role)
          have hrelease : (role.spec : RoleSpec).source.release = "r" :=
            congrArg (fun spec : RoleSpec => spec.source.release) (holds_created hrole).2.1
          refine ⟨role, hrole, hkey, ?_⟩
          rw [hrelease]
          exact stored_created .release
        imports := fun c hc link hlink => by
          obtain rfl := List.mem_singleton.1 hc
          exact nomatch hlink
        baseImage := stored_created .baseImage
        azs := fun az haz => by
          obtain rfl := List.mem_singleton.1 haz
          exact stored_created .az
        extensions := fun e he => by
          obtain rfl := List.mem_singleton.1 he
          exact stored_created .vmExtension
        network := stored_created .network
        resources := rfl
        readySeconds := by decide +kernel }

end Small

end Reconciliation
