import Reconciliation.Proofs.Frame
import Reconciliation.Proofs.Redraft

/-! Two worlds whose records are similar are reconciled in step: each reconcile has the same
outcome in both, asks for the same clients, makes the same calls with the same results, and leaves
the records similar. What the owner wrote into a record after its spec was frozen reaches no remote
service. -/
namespace Reconciliation

open Step (Agree)

/-- The factories refuse clients for the same reason or for none, and have logged the same endpoints
since these two. -/
structure Clients.Since (c₀ d₀ c d : Clients) : Prop where
  failure : d.failure = c.failure
  directors : ∃ uses, c.directors = c₀.directors ++ uses ∧ d.directors = d₀.directors ++ uses
  identities : ∃ uses, c.identities = c₀.identities ++ uses ∧ d.identities = d₀.identities ++ uses

namespace Clients.Since

variable {c₀ d₀ c d : Clients}

theorem refl (h : d.failure = c.failure) : Since c d c d :=
  ⟨h, ⟨[], by simp⟩, ⟨[], by simp⟩⟩

/-- Logs that have grown by the same still have when both log one thing more. -/
theorem grown_concat {α : Type} {l₀ m₀ l m : List α}
    (h : ∃ uses, l = l₀ ++ uses ∧ m = m₀ ++ uses) (x : α) :
    ∃ uses, l ++ [x] = l₀ ++ uses ∧ m ++ [x] = m₀ ++ uses := by
  obtain ⟨uses, rfl, rfl⟩ := h
  exact ⟨uses ++ [x], List.append_assoc .., List.append_assoc ..⟩

theorem usingDirector (h : Since c₀ d₀ c d) (e : DirectorEndpoint) :
    Since c₀ d₀ { c with directors := c.directors ++ [e] }
      { d with directors := d.directors ++ [e] } :=
  ⟨h.failure, grown_concat h.directors e, h.identities⟩

theorem usingIdentity (h : Since c₀ d₀ c d) (e : IdentityEndpoint) :
    Since c₀ d₀ { c with identities := c.identities ++ [e] }
      { d with identities := d.identities ++ [e] } :=
  ⟨h.failure, h.directors, grown_concat h.identities e⟩

end Clients.Since

namespace World

/-- The same secrets and remote services, and similar records; the logs may differ. -/
structure Similar (w v : World Store Secrets) : Prop where
  records : w.records.Similar v.records
  secrets : v.secrets = w.secrets
  entropy : v.entropy = w.entropy
  director : w.director.Same v.director
  identity : w.identity.Same v.identity
  clients : v.clients.failure = w.clients.failure
  now : v.now = w.now

/-- Since they were `w₀` and `v₀`, the worlds have logged the same calls and endpoints. -/
structure SameCalls (w₀ v₀ w v : World Store Secrets) : Prop where
  director : ∃ calls, w.director.calls = w₀.director.calls ++ calls ∧
    v.director.calls = v₀.director.calls ++ calls
  identity : ∃ calls, w.identity.calls = w₀.identity.calls ++ calls ∧
    v.identity.calls = v₀.identity.calls ++ calls
  directorClients : ∃ uses, w.clients.directors = w₀.clients.directors ++ uses ∧
    v.clients.directors = v₀.clients.directors ++ uses
  identityClients : ∃ uses, w.clients.identities = w₀.clients.identities ++ uses ∧
    v.clients.identities = v₀.clients.identities ++ uses

/-- Similar worlds that have logged the same since they were `w₀` and `v₀`. -/
structure InStep (w₀ v₀ w v : World Store Secrets) : Prop where
  records : w.records.Similar v.records
  secrets : v.secrets = w.secrets
  entropy : v.entropy = w.entropy
  director : Director.Since w₀.director.calls v₀.director.calls w.director v.director
  identity : Identity.Since w₀.identity.calls v₀.identity.calls w.identity v.identity
  clients : Clients.Since w₀.clients v₀.clients w.clients v.clients
  now : v.now = w.now

variable {w₀ v₀ w v : World Store Secrets}

theorem Similar.inStep (h : w.Similar v) : InStep w v w v :=
  { h with
    director := Director.since_of_same h.director
    identity := Identity.since_of_same h.identity
    clients := .refl h.clients }

namespace InStep

theorem similar (h : InStep w₀ v₀ w v) : w.Similar v :=
  { h with
    director := h.director.same
    identity := h.identity.same
    clients := h.clients.failure }

theorem sameCalls (h : InStep w₀ v₀ w v) : SameCalls w₀ v₀ w v where
  director := by
    obtain ⟨calls, hd, he⟩ := h.director
    exact ⟨calls, hd, by rw [he]⟩
  identity := by
    obtain ⟨calls, hi, hj⟩ := h.identity
    exact ⟨calls, hi, by rw [hj]⟩
  directorClients := h.clients.directors
  identityClients := h.clients.identities

theorem keep (h : InStep w₀ v₀ w v) {k : Kind} {r r' : Record k} (hr : r.Similar r') :
    InStep w₀ v₀ (w.keep r) (v.keep r') :=
  { h with records := h.records.keep hr }

theorem accept (h : InStep w₀ v₀ w v) {k : Kind} {r r' : Record k} (hr : r.Similar r') :
    InStep w₀ v₀ (w.accept r) (v.accept r') :=
  { h with records := h.records.accept hr }

theorem onRecords {ε α β : Type} {wrap : ε → ReconcileError} {x : Step Store ε α}
    {y : Step Store ε β} {V : α → β → Prop} (h : Step.Related Store.Similar V x y) :
    Step.Related (InStep w₀ v₀) V (World.onRecords wrap x) (World.onRecords wrap y) :=
  Step.Related.onPart h (fun _ => rfl) (fun _ _ h => h.records)
    fun _ _ _ _ h hs => { h with records := hs }

theorem onSecrets {α : Type} (x : Step Secrets SecretError α) :
    Step.Related (InStep w₀ v₀) Eq (World.onSecrets x) (World.onSecrets x) :=
  Step.Related.onPart (Step.Related.of_eq x) (fun _ => rfl) (fun _ _ h => h.secrets.symm)
    fun _ _ _ _ h hs => { h with secrets := hs.symm }

theorem onSecretSupply {α : Type} (x : Step (Secrets × Entropy) SecretError α) :
    Step.Related (InStep w₀ v₀) Eq (World.onSecretSupply x) (World.onSecretSupply x) := by
  refine Step.Related.onPart (Step.Related.of_eq x) (fun _ => rfl) ?_ ?_
  · intro w v h
    rw [h.secrets, h.entropy]
  · rintro w v s _ h rfl
    exact { h with secrets := rfl, entropy := rfl }

theorem onDirector {α : Type} {x : Step Director RemoteError α}
    (hx : ∀ l m, Step.Related (Director.Since l m) Eq x x) :
    Step.Related (InStep w₀ v₀) Eq (World.onDirector x) (World.onDirector x) :=
  Step.Related.onPart (hx _ _) (fun _ => rfl) (fun _ _ h => h.director)
    fun _ _ _ _ h hd => { h with director := hd }

theorem onIdentity {α : Type} {x : Step Identity RemoteError α}
    (hx : ∀ l m, Step.Related (Identity.Since l m) Eq x x) :
    Step.Related (InStep w₀ v₀) Eq (World.onIdentity x) (World.onIdentity x) :=
  Step.Related.onPart (hx _ _) (fun _ => rfl) (fun _ _ h => h.identity)
    fun _ _ _ _ h hi => { h with identity := hi }

theorem askClient {log : Clients → Clients}
    (hl : ∀ {c d : Clients}, Clients.Since w₀.clients v₀.clients c d →
      Clients.Since w₀.clients v₀.clients (log c) (log d)) :
    Step.Related (InStep w₀ v₀) Eq (World.askClient log) (World.askClient log) := by
  intro w v h
  simp only [World.askClient, Step.mk_apply, h.clients.failure]
  cases w.clients.failure with
  | some reason => exact ⟨rfl, h⟩
  | none => exact ⟨rfl, { h with clients := hl h.clients }⟩

theorem askDirector (e : DirectorEndpoint) :
    Step.Related (InStep w₀ v₀) Eq (World.askDirector e) (World.askDirector e) :=
  askClient fun h => h.usingDirector _

theorem askIdentity (e : IdentityEndpoint) :
    Step.Related (InStep w₀ v₀) Eq (World.askIdentity e) (World.askIdentity e) :=
  askClient fun h => h.usingIdentity _

end InStep

end World

open World (InStep)

variable {w₀ v₀ w v : World Store Secrets} {sys : String}

theorem Credentials.sameTeam_of_similar {t t' : Record .team} (h : t.Similar t') :
    SameTeam t t' where
  internalName := h.interchangeable.internalName
  secretNamespace := by
    rcases h with rfl | ⟨-, -, warning, -, rfl⟩
    · rfl
    · exact Status.secretNamespace_withWarning warning t.status
  frozenDirector := by rw [frozenDirector, frozenDirector, h.interchangeable.frozenOf]

theorem Credentials.inStep_shared : Shared (InStep w₀ v₀) where
  teamFor ns := by
    refine (InStep.onRecords (Store.Similar.fetchAll .team ns)).bind fun teams teams' h => ?_
    cases h with
    | nil => exact .throw _
    | cons ht hts =>
      cases hts with
      | nil => exact .pure (sameTeam_of_similar ht)
      | cons ht' hts =>
        simp only [List.length_cons, hts.length_eq]
        exact .throw _
  director sys name := by
    have hfetch := Store.Similar.exchanges .director Kind.noConfusion sys name
    refine InStep.onRecords (hfetch.bind fun r r' hr => ?_)
    rw [hr.spec rfl]
    exact .pure rfl
  secret _ _ := InStep.onSecrets _

namespace Reconcile

theorem askDirectorOf_inStep (sys : String) {a : ArtifactKind} {r r' : Record a.kind}
    (h : Artifact.scope a r' = Artifact.scope a r) :
    Step.Related (InStep w₀ v₀) Eq (askDirectorOf sys a r) (askDirectorOf sys a r') := by
  rw [askDirectorOf, askDirectorOf, h]
  refine (Credentials.inStep_shared.directorEndpoint sys _).bind ?_
  rintro e _ rfl
  exact InStep.askDirector e

theorem askIdentityOf_inStep (sys : String) {r r' : Record .team} (h : r.Similar r') :
    Step.Related (InStep w₀ v₀) Eq (askIdentityOf sys r) (askIdentityOf sys r') := by
  rw [askIdentityOf, askIdentityOf, (Credentials.sameTeam_of_similar h).frozenDirector]
  refine (Step.Related.ofExcept _).bind ?_
  rintro name _ rfl
  refine (Credentials.inStep_shared.identityEndpoint sys name).bind ?_
  rintro e _ rfl
  exact InStep.askIdentity e

section

variable {a : ArtifactKind} {r r' : Record a.kind}

theorem scope_of_similar (h : r.Similar r') : Artifact.scope a r' = Artifact.scope a r := by
  refine Artifact.scope_eq h.key ?_
  rcases h with rfl | ⟨hf, spec, warning, version, rfl⟩
  · rfl
  · obtain ⟨frozen, hfrozen⟩ := Option.isSome_iff_exists.1 hf
    have hfrozen' : (r.redrafted spec warning version).frozen? = some frozen :=
      (Status.frozen?_withWarning warning r.status).trans hfrozen
    rw [hfrozen, hfrozen', Option.getD_some, Option.getD_some]

theorem establish_inStep (h : r.Similar r') :
    Step.Related (InStep w₀ v₀) Eq (Artifact.establish a r) (Artifact.establish a r') := by
  refine Step.Related.bind (InStep.onRecords
    (Artifact.object_related Store.Similar.exchanges a h.interchangeable)) ?_
  rintro o _ rfl
  exact InStep.onDirector fun _ _ => Director.callsRelated_since.ensure o

theorem remove_inStep (h : r.Similar r') :
    Step.Related (InStep w₀ v₀) Eq (Artifact.remove a r) (Artifact.remove a r') := by
  rw [Artifact.remove, Artifact.remove, Artifact.handle?_eq h.interchangeable]
  cases Artifact.handle? a r with
  | none => exact .pure rfl
  | some handle => exact InStep.onDirector fun _ _ => Director.callsRelated_since.remove handle

theorem publish_inStep {k : Kind} {r r' : Record k} (hr : w.records.Holds r)
    (hr' : v.records.Holds r') (hs : r.Similar r') (h : InStep w₀ v₀ w v) :
    Agree (InStep w₀ v₀) Eq (publish r w) (publish r' v) := by
  rw [publish_eq hr, publish_eq hr']
  exact ⟨rfl, h.keep hs.settled⟩

theorem dropFinalizer_inStep {k : Kind} {r r' : Record k} (hr : w.records.Holds r)
    (hr' : v.records.Holds r') (hs : r.Similar r') (h : InStep w₀ v₀ w v) :
    Agree (InStep w₀ v₀) Eq (dropFinalizer r w) (dropFinalizer r' v) := by
  rw [dropFinalizer_eq hr, dropFinalizer_eq hr']
  exact ⟨rfl, h.accept hs.released⟩

theorem establishArtifact_inStep (hr : w.records.Holds r) (hr' : v.records.Holds r')
    (hs : r.Similar r') (h : InStep w₀ v₀ w v) :
    Agree (InStep w₀ v₀) Eq (establishArtifact sys a r w) (establishArtifact sys a r' v) := by
  refine (askDirectorOf_inStep sys (scope_of_similar hs) w v h).bind ?_
  rintro _ _ w₁ v₁ hw hv - h
  obtain ⟨-, hr⟩ := (askDirectorOf_keepsRecords sys a r).holds hw hr
  obtain ⟨-, hr'⟩ := (askDirectorOf_keepsRecords sys a r').holds hv hr'
  rw [Step.bind_ok (freeze_eq hr sys), Step.bind_ok (freeze_eq hr' sys),
    Step.bind_ok (attachFinalizer_eq (World.holds_keep w₁ _)),
    Step.bind_ok (attachFinalizer_eq (World.holds_keep v₁ _))]
  have h := (h.keep (hs.frozenBy sys)).keep (hs.readied sys)
  refine (establish_inStep (hs.readied sys) _ _ h).bind ?_
  rintro _ _ w₂ v₂ hw hv - h
  obtain ⟨-, hr⟩ := (Artifact.establish_keepsRecords a _).holds hw (World.holds_keep _ _)
  obtain ⟨-, hr'⟩ := (Artifact.establish_keepsRecords a _).holds hv (World.holds_keep _ _)
  exact publish_inStep hr hr' (hs.readied sys) h

theorem removeArtifact_inStep (hr : w.records.Holds r) (hr' : v.records.Holds r')
    (hs : r.Similar r') (h : InStep w₀ v₀ w v) :
    Agree (InStep w₀ v₀) Eq (removeArtifact sys a r w) (removeArtifact sys a r' v) := by
  rw [removeArtifact, removeArtifact, hs.hasFinalizer]
  split
  · refine (askDirectorOf_inStep sys (scope_of_similar hs) w v h).bind ?_
    rintro _ _ w₁ v₁ hw hv - h
    obtain ⟨-, hr⟩ := (askDirectorOf_keepsRecords sys a r).holds hw hr
    obtain ⟨-, hr'⟩ := (askDirectorOf_keepsRecords sys a r').holds hv hr'
    refine (remove_inStep hs w₁ v₁ h).bind ?_
    rintro _ _ w₂ v₂ hw hv - h
    obtain ⟨-, hr⟩ := (Artifact.remove_keepsRecords a r).holds hw hr
    obtain ⟨-, hr'⟩ := (Artifact.remove_keepsRecords a r').holds hv hr'
    exact dropFinalizer_inStep hr hr' hs h
  · exact ⟨rfl, h⟩

theorem artifact_inStep (hr : w.records.Holds r) (hr' : v.records.Holds r')
    (hs : r.Similar r') (h : InStep w₀ v₀ w v) :
    Agree (InStep w₀ v₀) Eq (artifact sys a r w) (artifact sys a r' v) := by
  rw [artifact, artifact, hs.beingDeleted]
  split
  · exact removeArtifact_inStep hr hr' hs h
  · exact establishArtifact_inStep hr hr' hs h

end

section

variable {r r' : Record .team}

theorem establishTeam_inStep (hr : w.records.Holds r) (hr' : v.records.Holds r')
    (hs : r.Similar r') (h : InStep w₀ v₀ w v) :
    Agree (InStep w₀ v₀) Eq (establishTeam sys r w) (establishTeam sys r' v) := by
  have hs₁ := hs.frozenBy sys
  have hs₂ := hs.readied sys
  have hteam := Credentials.sameTeam_of_similar hs₂
  rw [establishTeam, establishTeam, Step.bind_ok (freeze_eq hr sys),
    Step.bind_ok (freeze_eq hr' sys)]
  refine (askIdentityOf_inStep sys hs₁ _ _ (h.keep hs₁)).bind ?_
  rintro _ _ w₁ v₁ hw hv - h
  obtain ⟨-, hr⟩ := (askIdentityOf_keepsRecords sys _).holds hw (World.holds_keep w _)
  obtain ⟨-, hr'⟩ := (askIdentityOf_keepsRecords sys _).holds hv (World.holds_keep v _)
  rw [Step.bind_ok (attachFinalizer_eq hr), Step.bind_ok (attachFinalizer_eq hr')]
  have hname : (r'.frozenBy sys).guarded.internalName = (r.frozenBy sys).guarded.internalName :=
    hteam.internalName
  have hns : (r'.frozenBy sys).guarded.secretNamespace =
      (r.frozenBy sys).guarded.secretNamespace :=
    hteam.secretNamespace
  rw [hname, hns]
  refine (InStep.onSecretSupply _ _ _ (h.keep hs₂)).bind ?_
  rintro secret _ w₂ v₂ hw hv rfl h
  obtain ⟨-, hr⟩ := (World.KeepsRecords.onSecretSupply _).holds hw (World.holds_keep _ _)
  obtain ⟨-, hr'⟩ := (World.KeepsRecords.onSecretSupply _).holds hv (World.holds_keep _ _)
  refine (InStep.onIdentity (fun _ _ => Identity.ensureTeamClient_since _ secret) w₂ v₂ h).bind ?_
  rintro _ _ w₃ v₃ hw hv - h
  obtain ⟨-, hr⟩ := (World.KeepsRecords.onIdentity _).holds hw hr
  obtain ⟨-, hr'⟩ := (World.KeepsRecords.onIdentity _).holds hv hr'
  exact publish_inStep hr hr' hs₂ h

theorem removeTeam_inStep (hr : w.records.Holds r) (hr' : v.records.Holds r')
    (hs : r.Similar r') (h : InStep w₀ v₀ w v) :
    Agree (InStep w₀ v₀) Eq (removeTeam sys r w) (removeTeam sys r' v) := by
  have hteam := Credentials.sameTeam_of_similar hs
  rw [removeTeam, removeTeam, hs.hasFinalizer, hteam.internalName, hteam.secretNamespace]
  split
  · refine (askIdentityOf_inStep sys hs w v h).bind ?_
    rintro _ _ w₁ v₁ hw hv - h
    obtain ⟨-, hr⟩ := (askIdentityOf_keepsRecords sys _).holds hw hr
    obtain ⟨-, hr'⟩ := (askIdentityOf_keepsRecords sys _).holds hv hr'
    refine (InStep.onIdentity (fun _ _ => Identity.removeClient_since _) w₁ v₁ h).bind ?_
    rintro _ _ w₂ v₂ hw hv - h
    obtain ⟨-, hr⟩ := (World.KeepsRecords.onIdentity _).holds hw hr
    obtain ⟨-, hr'⟩ := (World.KeepsRecords.onIdentity _).holds hv hr'
    refine (InStep.onSecrets _ w₂ v₂ h).bind ?_
    rintro _ _ w₃ v₃ hw hv - h
    obtain ⟨-, hr⟩ := (World.KeepsRecords.onSecrets _).holds hw hr
    obtain ⟨-, hr'⟩ := (World.KeepsRecords.onSecrets _).holds hv hr'
    exact dropFinalizer_inStep hr hr' hs h
  · exact ⟨rfl, h⟩

theorem team_inStep (hr : w.records.Holds r) (hr' : v.records.Holds r')
    (hs : r.Similar r') (h : InStep w₀ v₀ w v) :
    Agree (InStep w₀ v₀) Eq (team sys r w) (team sys r' v) := by
  rw [team, team, hs.beingDeleted]
  split
  · exact removeTeam_inStep hr hr' hs h
  · exact establishTeam_inStep hr hr' hs h

end

theorem director_inStep {r : Record .director} (hr : w.records.Holds r) (hr' : v.records.Holds r)
    (h : InStep w₀ v₀ w v) : Agree (InStep w₀ v₀) Eq (director r w) (director r v) := by
  rw [director]
  split
  · have hrecords : (withoutTeam r w).records.Similar (withoutTeam r v).records := by
      rw [withoutTeam, withoutTeam, h.now]
      exact h.records.delete w.now _
    have hwithout : InStep w₀ v₀ (withoutTeam r w) (withoutTeam r v) :=
      { h with records := hrecords }
    rw [removeDirector_eq hr, removeDirector_eq hr', hrecords.isSome_get?]
    split
    · split
      · exact ⟨rfl, hwithout⟩
      · exact ⟨rfl, hwithout.accept (.refl _)⟩
    · exact ⟨rfl, h⟩
  · rw [establishDirector_eq hr, establishDirector_eq hr']
    exact ⟨rfl, { h with records := (h.records.keep (.refl _)).create _ }⟩

end Reconcile

open Reconcile (Misplaced)

theorem Store.Similar.wellFormed {s t : Store} (h : s.Similar t) (hs : s.WellFormed) :
    t.WellFormed := by
  have hback : ∀ {key q'}, t.get? key = some q' → ∃ q, s.get? key = some q ∧ q.Similar q' := by
    intro key q' hq'
    cases hq : s.get? key with
    | none =>
      rw [h.get?_of_none hq] at hq'
      cases hq'
    | some q =>
      obtain ⟨p, hp, hsim⟩ := h.get?_of_some hq
      rw [hq'] at hp
      cases hp
      exact ⟨q, rfl, hsim⟩
  constructor
  · intro key q' hq'
    obtain ⟨q, hq, hsim⟩ := hback hq'
    rw [hsim.key, hs.key_eq hq]
  · intro key q' hq' hd
    obtain ⟨q, hq, hsim⟩ := hback hq'
    rw [hsim.finalizers]
    exact hs.marked hq (by rwa [← hsim.beingDeleted])

theorem reconcile_inStep (hw : w.records.WellFormed) (h : InStep w₀ v₀ w v) (sys : String)
    (key : Key) : Agree (InStep w₀ v₀) Eq (reconcile sys key w) (reconcile sys key v) := by
  cases hg : w.records.get? key with
  | none =>
    rw [reconcile_of_none hg, reconcile_of_none (h.records.get?_of_none hg)]
    exact ⟨rfl, h⟩
  | some q =>
    obtain ⟨k, r⟩ := q
    obtain ⟨r', hg', hs⟩ := h.records.record hg
    have hw' := h.records.wellFormed hw
    obtain rfl : r.key = key := hw.key_eq hg
    have hr : w.records.Holds r := hg
    have hr' : v.records.Holds r' := hw'.holds hg'
    by_cases hm : Misplaced sys r
    · have hm' : Misplaced sys r' := (Reconcile.misplaced_iff hs.key).2 hm
      rw [reconcile_of_misplaced hr hm, ← hs.key, reconcile_of_misplaced hr' hm',
        hs.interchangeable.ns]
      exact ⟨rfl, h⟩
    · have hm' : ¬Misplaced sys r' := mt (Reconcile.misplaced_iff hs.key).1 hm
      rw [reconcile_of_some hg, reconcile_of_some hg']
      induction k, r using Reconcile.kindCases with
      | director r =>
        obtain rfl := hs.eq_of_not_freezes rfl
        rw [Reconcile.record_director hm, Reconcile.record_director hm]
        exact Reconcile.director_inStep hr hr' h
      | role r => exact ⟨rfl, h⟩
      | team r => exact Reconcile.team_inStep hr hr' hs h
      | artifact a r =>
        rw [Reconcile.record_artifact hm hr (hw.marked hr),
          Reconcile.record_artifact hm' hr' (hw'.marked hr')]
        exact Reconcile.artifact_inStep (World.holds_keep _ _) (World.holds_keep _ _) hs.consumed
          (h.keep hs.consumed)

/-- A reconcile of one key, or a sweep. -/
inductive Round where
  | single (key : Key)
  | sweep

namespace Round

/-- Both are reported in the same way. -/
def run (sys : String) : Round → Step (World Store Secrets) StoreError SweepReport
  | single key => do return [← Sweep.visit sys key]
  | sweep => Reconciliation.sweep sys

end Round

/-- Well-formed on the left side, and hence on both. -/
def World.InOrder (w₀ v₀ w v : World Store Secrets) : Prop :=
  w.records.WellFormed ∧ InStep w₀ v₀ w v

open World (InOrder)

theorem visit_inOrder (sys : String) (key : Key) :
    Step.Related (InOrder w₀ v₀) Eq (Sweep.visit sys key) (Sweep.visit sys key) := by
  rintro w v ⟨hw, h⟩
  have hx := reconcile_inStep hw h sys key
  have hw' := reconcile_wellFormed hw sys key
  rw [Sweep.visit_apply, Sweep.visit_apply]
  rcases hy : reconcile sys key w with ⟨e | ⟨⟩, w'⟩ <;>
    rcases hz : reconcile sys key v with ⟨e' | ⟨⟩, v'⟩ <;> rw [hy] at hw' <;> rw [hy, hz] at hx
  · exact ⟨by rw [hx.1], hw', hx.2⟩
  · exact hx.elim
  · exact hx.elim
  · exact ⟨rfl, hw', hx.2⟩

theorem sweep_inOrder (sys : String) :
    Step.Related (InOrder w₀ v₀) Eq (sweep sys) (sweep sys) := by
  rintro w v ⟨hw, h⟩
  rw [sweep_eq_visits, sweep_eq_visits, Sweep.keys_of_similar h.records]
  exact Step.Related.mapM (visit_inOrder sys) _ w v ⟨hw, h⟩

theorem round_inOrder (sys : String) (round : Round) :
    Step.Related (InOrder w₀ v₀) Eq (round.run sys) (round.run sys) := by
  cases round with
  | sweep => exact sweep_inOrder sys
  | single key =>
    refine (visit_inOrder sys key).bind ?_
    rintro entry _ rfl
    exact .pure rfl

theorem rounds_ok (sys : String) (rounds : List Round) (w : World Store Secrets) :
    ∃ reports w', (rounds.mapM (Round.run sys)) w = (.ok reports, w') := by
  induction rounds generalizing w with
  | nil => exact ⟨[], w, rfl⟩
  | cons round rounds ih =>
    obtain ⟨report, u, hu⟩ : ∃ report u, round.run sys w = (.ok report, u) := by
      cases round with
      | single key => exact ⟨_, _, Step.bind_ok (Sweep.visit_apply sys key w) _⟩
      | sweep =>
        obtain ⟨report, hreport⟩ := Sweep.visits_apply sys (Sweep.keys w.records) w
        exact ⟨report, _, (sweep_eq_visits sys w).trans hreport⟩
    obtain ⟨reports, w', hw'⟩ := ih u
    rw [List.mapM_cons, Step.bind_ok hu, Step.bind_ok hw']
    exact ⟨_, _, rfl⟩

/-- From similar worlds, every row of reconciles and sweeps gives the same reports, with the same
outcome of each single reconcile, and makes the same calls to the Director and the identity service
and the same requests for clients; in the end the worlds are again similar. -/
theorem frozen_edits_go_unnoticed {w v : World Store Secrets} (hw : w.records.WellFormed)
    (h : w.Similar v) (sys : String) (rounds : List Round) :
    ∃ reports w' v', (rounds.mapM (Round.run sys)) w = (.ok reports, w') ∧
      (rounds.mapM (Round.run sys)) v = (.ok reports, v') ∧
      w'.Similar v' ∧ World.SameCalls w v w' v' := by
  obtain ⟨reports, w', hw'⟩ := rounds_ok sys rounds w
  have hrelated : Step.Related (InOrder w v) Eq (rounds.mapM (Round.run sys))
      (rounds.mapM (Round.run sys)) := .mapM (round_inOrder sys) rounds
  obtain ⟨_, v', hv', rfl, -, hstep⟩ := hrelated.ok ⟨hw, h.inStep⟩ hw'
  exact ⟨reports, w', v', hw', hv', hstep.similar, hstep.sameCalls⟩

namespace Small

/-- The team's owner now names another Director. -/
def redraftedTeam : Record .team := team.redrafted (⟨"e"⟩ : TeamSpec) mutationWarning 5

def rounds : List Round := [.single az.key, .sweep]

end Small

theorem frozen_edits_go_unnoticed_small :
    (Small.world.keep Small.team).Similar (Small.world.keep Small.redraftedTeam) ∧
      ∃ reports w' v',
        (Small.rounds.mapM (Round.run "sys")) (Small.world.keep Small.team) = (.ok reports, w') ∧
        (Small.rounds.mapM (Round.run "sys")) (Small.world.keep Small.redraftedTeam) =
          (.ok reports, v') ∧
        w'.Similar v' ∧ World.SameCalls (Small.world.keep Small.team)
          (Small.world.keep Small.redraftedTeam) w' v' := by
  have hteam : Small.team.Similar Small.redraftedTeam := .inr ⟨rfl, _, _, _, rfl⟩
  have hw : (Small.world.keep Small.team).records.WellFormed :=
    Small.wellFormed_world.keep fun h => by cases h
  have h : (Small.world.keep Small.team).Similar (Small.world.keep Small.redraftedTeam) :=
    { records := (Store.Similar.refl _).keep hteam
      secrets := rfl
      entropy := rfl
      director := rfl
      identity := rfl
      clients := rfl
      now := rfl }
  exact ⟨h, frozen_edits_go_unnoticed hw h "sys" Small.rounds⟩

end Reconciliation
