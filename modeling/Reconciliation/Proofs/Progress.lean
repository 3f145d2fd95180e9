import Reconciliation.Proofs.Provision
import Reconciliation.Proofs.Replay

/-! It brings its record up to date and, for a Director, founds the Director's own team; secrets
and clients are only added, and at most one object arrives at the Director. Hence the world stays
provided for, and what is settled stays settled. -/
namespace Reconciliation

open World (outcome)

namespace Record

variable {k : Kind} {sys : String}

/-- Under the same key, and asking for the same: the force flag of a deployment is no part of what
it asks for. -/
structure Continues (r q : Record k) : Prop where
  key : q.key = r.key
  beingDeleted : q.beingDeleted = r.beingDeleted
  effective : q.consumed.effective = r.consumed.effective

namespace Continues

variable {r q p : Record k}

theorem refl (r : Record k) : r.Continues r := ⟨rfl, rfl, rfl⟩

theorem trans (h : r.Continues q) (h' : q.Continues p) : r.Continues p :=
  ⟨h'.key.trans h.key, h'.beingDeleted.trans h.beingDeleted, h'.effective.trans h.effective⟩

theorem ns (h : r.Continues q) : q.metadata.ns = r.metadata.ns := ns_eq h.key

theorem effective_eq (h : r.Continues q) (hk : k ≠ .deployment) : q.effective = r.effective := by
  have he := h.effective
  cases k with
  | deployment => exact absurd rfl hk
  | _ => exact he

theorem spec_eq (h : r.Continues q) (hk : k = .director ∨ k = .role) : q.spec = r.spec := by
  rcases hk with rfl | rfl
  · exact h.effective
  · exact h.effective

theorem ownTeam_eq {d d' : Record .director} (h : d.Continues d') : d'.ownTeam = d.ownTeam := by
  have hk := h.key
  simp only [Record.key, Key.mk.injEq, true_and] at hk
  simp only [Record.ownTeam, hk]

theorem of_spec (hk : q.key = r.key) (hd : q.beingDeleted = r.beingDeleted) (hs : q.spec = r.spec)
    (he : q.effective = r.effective) : r.Continues q := by
  refine ⟨hk, hd, ?_⟩
  cases k with
  | deployment =>
    have hspec : ∀ p : Record .deployment, (p.consumed.effective : DeploymentSpec) =
        { (p.spec : DeploymentSpec) with forceReconciliation := false } := by
      intro p
      simp only [consumed]
      split
      · rfl
      · next hf =>
        have hf : (p.spec : DeploymentSpec).forceReconciliation = false := Bool.eq_false_iff.2 hf
        rw [← hf]
        rfl
    exact (hspec q).trans (.trans (by rw [hs]) (hspec r).symm)
  | _ => exact he

end Continues

theorem continues_consumed (r : Record k) : r.Continues r.consumed :=
  ⟨key_consumed r, beingDeleted_consumed r, by rw [consumed_consumed]⟩

theorem continues_frozenBy (sys : String) (r : Record k) : r.Continues (r.frozenBy sys) :=
  .of_spec (key_frozenBy sys r) (beingDeleted_frozenBy sys r) (spec_frozenBy sys r)
    (by rw [effective, spec_frozenBy, frozen?_getD_frozenBy]; rfl)

theorem continues_readied (sys : String) (r : Record k) : r.Continues (r.readied sys) :=
  .of_spec (key_readied sys r) (beingDeleted_readied sys r) (spec_readied sys r)
    (by rw [effective, spec_readied, frozen?_readied, frozen?_getD_frozenBy]; rfl)

theorem continues_settled (r : Record k) : r.Continues r.settled :=
  .of_spec (key_settled r) (beingDeleted_settled r) (spec_settled r)
    (by rw [effective, spec_settled, r.alike_settled.frozen?]; rfl)

theorem continues_brought (sys : String) (r : Record k) : r.Continues (r.brought sys) := by
  by_cases hk : k = .role
  · subst hk
    exact .refl r
  · rw [brought_of_ne hk]
    exact (continues_consumed r).trans ((continues_readied sys _).trans (continues_settled _))

end Record

theorem DeploymentSpec.composable_consumed {s : Store} {ns : String} {r : Record .deployment} :
    Composable s ns r.consumed.effective ↔ Composable s ns r.effective := by
  simp only [Record.consumed]
  split
  · exact ⟨fun h => ⟨h.1, h.2, h.3, h.4, h.5, h.6, h.7, h.8⟩,
      fun h => ⟨h.1, h.2, h.3, h.4, h.5, h.6, h.7, h.8⟩⟩
  · rfl

namespace Store

variable {s t u : Store} {k : Kind}

/-- Every record of `s` is continued in `t`, and what is new in `t` are own teams of Directors. -/
structure Onward (s t : Store) : Prop where
  kept : ∀ {k : Kind} {r : Record k}, s.Holds r → ∃ q : Record k, t.Holds q ∧ r.Continues q
  origin : ∀ {k : Kind} {q : Record k}, t.Holds q → (∃ r : Record k, s.Holds r ∧ r.Continues q) ∨
    ∃ (d : Record .director) (p : Record .team), t.Holds d ∧ (⟨k, q⟩ : AnyRecord) = ⟨.team, p⟩ ∧
      d.ownTeam.Continues p

namespace Onward

theorem refl (s : Store) : s.Onward s where
  kept hr := ⟨_, hr, .refl _⟩
  origin hq := .inl ⟨_, hq, .refl _⟩

theorem trans (h : s.Onward t) (h' : t.Onward u) : s.Onward u where
  kept hr := by
    obtain ⟨q, hq, hrq⟩ := h.kept hr
    obtain ⟨p, hp, hqp⟩ := h'.kept hq
    exact ⟨p, hp, hrq.trans hqp⟩
  origin hp := by
    rcases h'.origin hp with ⟨q, hq, hqp⟩ | hnew
    · rcases h.origin hq with ⟨r, hr, hrq⟩ | ⟨d, p', hd, heq, hp'⟩
      · exact .inl ⟨r, hr, hrq.trans hqp⟩
      · obtain ⟨d', hd', hdd⟩ := h'.kept hd
        cases heq
        exact .inr ⟨d', _, hd', rfl, hdd.ownTeam_eq ▸ hp'.trans hqp⟩
    · exact .inr hnew

theorem stored (h : s.Onward t) (hs : s.WellFormed) {key : Key} (hk : s.Stored key) :
    t.Stored key := by
  obtain ⟨k, r, hr, rfl⟩ := hs.exists_holds hk
  obtain ⟨q, hq, hrq⟩ := h.kept hr
  exact hrq.key ▸ hq.stored

theorem origin_of_ne (h : s.Onward t) (hk : k ≠ .team) {q : Record k} (hq : t.Holds q) :
    ∃ r : Record k, s.Holds r ∧ r.Continues q := by
  rcases h.origin hq with hr | ⟨d, p, -, heq, -⟩
  · exact hr
  · exact absurd (congrArg AnyRecord.kind heq) hk

theorem composable (h : s.Onward t) (hs : s.WellFormed) {ns : String} {d : DeploymentSpec}
    (hd : d.Composable s ns) : d.Composable t ns :=
  { hd with
    jobs := fun c hc => by
      obtain ⟨role, hrole, hkey, hrelease⟩ := hd.jobs c hc
      obtain ⟨q, hq, hc⟩ := h.kept hrole
      exact ⟨q, hq, hc.key.trans hkey, by rw [hc.spec_eq (.inr rfl)]; exact h.stored hs hrelease⟩
    imports := fun c hc link hlink => h.stored hs (hd.imports c hc link hlink)
    baseImage := h.stored hs hd.baseImage
    azs := fun az haz => h.stored hs (hd.azs az haz)
    extensions := fun e he => h.stored hs (hd.extensions e he)
    network := h.stored hs hd.network }

end Onward

theorem onward_keep {r q : Record k} (hr : s.Holds r) (h : r.Continues q) :
    s.Onward (s.keep q) where
  kept {k' r'} hr' := by
    by_cases hk : r'.key = r.key
    · cases hr.unique hr' hk
      exact ⟨q, holds_keep s q, h⟩
    · refine ⟨r', ?_, .refl r'⟩
      rw [Holds, get?_keep, if_neg (by rwa [h.key])]
      exact hr'
  origin {k' q'} hq' := by
    rw [Holds, get?_keep] at hq'
    split at hq'
    · cases hq'
      exact .inl ⟨r, hr, h⟩
    · exact .inl ⟨q', hq', .refl q'⟩

theorem onward_create {d : Record .director} (hd : s.Holds d) :
    s.Onward (create d.ownTeam s).2 where
  kept {k r} hr := ⟨r, get?_create_of_some hr d.ownTeam, .refl r⟩
  origin {k q} hq := by
    have hdirector : (create d.ownTeam s).2.Holds d := get?_create_of_some hd d.ownTeam
    rcases get?_of_create hq with hq | ⟨-, -, hq⟩
    · exact .inl ⟨q, hq, .refl q⟩
    · exact .inr ⟨d, _, hdirector, hq, ⟨rfl, rfl, rfl⟩⟩

end Store

namespace World

variable {w v u : World Store Secrets} {sys : String}

/-- The records ask for the same, secrets were only added, and the remote services answer as
before. -/
structure Onward (w v : World Store Secrets) : Prop where
  records : w.records.Onward v.records
  wellFormed : v.records.WellFormed
  secrets : ∀ {name : SecretName} {value : String}, w.secrets.get? name = some value →
    v.secrets.get? name = some value
  releaseSources : v.director.releaseSources = w.director.releaseSources
  stemcellSources : v.director.stemcellSources = w.director.stemcellSources
  director : v.director.failure = w.director.failure
  identity : v.identity.failure = w.identity.failure
  clients : v.clients.failure = w.clients.failure

theorem Onward.refl (hw : w.records.WellFormed) : w.Onward w :=
  ⟨.refl _, hw, fun h => h, rfl, rfl, rfl, rfl, rfl⟩

theorem Onward.trans (h : w.Onward v) (h' : v.Onward u) : w.Onward u where
  records := h.records.trans h'.records
  wellFormed := h'.wellFormed
  secrets hs := h'.secrets (h.secrets hs)
  releaseSources := h'.releaseSources.trans h.releaseSources
  stemcellSources := h'.stemcellSources.trans h.stemcellSources
  director := h'.director.trans h.director
  identity := h'.identity.trans h.identity
  clients := h'.clients.trans h.clients

theorem Onward.secret (h : w.Onward v) {name : SecretName}
    (hs : (w.secrets.get? name).isSome = true) : (v.secrets.get? name).isSome = true := by
  obtain ⟨value, hv⟩ := Option.isSome_iff_exists.1 hs
  rw [h.secrets hv]
  rfl

theorem Provided.onward (hw : w.Provided sys) (h : w.Onward v) : v.Provided sys where
  wellFormed := h.wellFormed
  live {k q} hq := by
    rcases h.records.origin hq with ⟨r, hr, hrq⟩ | ⟨d, p, -, heq, hp⟩
    · rw [hrq.beingDeleted, hw.live hr]
    · cases heq
      exact hp.beingDeleted
  directorUp := h.director.trans hw.directorUp
  identityUp := h.identity.trans hw.identityUp
  clientsUp := h.clients.trans hw.clientsUp
  directors {q} hq := by
    obtain ⟨r, hr, hrq⟩ := h.records.origin_of_ne Kind.noConfusion hq
    rw [hrq.ns, hrq.spec_eq (.inl rfl)]
    exact ⟨(hw.directors hr).1, h.secret (hw.directors hr).2⟩
  teams {q} hq := by
    rcases h.records.origin hq with ⟨r, hr, hrq⟩ | ⟨d, p, hd, heq, hp⟩
    · rw [hrq.effective_eq Kind.noConfusion]
      exact h.records.stored hw.wellFormed (hw.teams hr)
    · cases heq
      obtain ⟨d₀, hd₀, hdd⟩ := h.records.origin_of_ne Kind.noConfusion hd
      have hkey : d.key = ⟨.director, sys, d.metadata.name⟩ := by
        rw [← (hw.directors hd₀).1, ← hdd.ns]
        rfl
      have hstored : v.records.Stored ⟨.director, sys, d.metadata.name⟩ := hkey ▸ hd.stored
      rw [hp.effective_eq Kind.noConfusion]
      exact hstored
  compilations {q} hq := by
    obtain ⟨r, hr, hrq⟩ := h.records.origin_of_ne Kind.noConfusion hq
    rw [hrq.ns, hrq.effective_eq Kind.noConfusion]
    exact ⟨(hw.compilations hr).1, h.records.stored hw.wellFormed (hw.compilations hr).2⟩
  tenants {a q} ha hq := by
    have hk : a.kind ≠ .team := by cases a <;> exact Kind.noConfusion
    obtain ⟨r, hr, hrq⟩ := h.records.origin_of_ne hk hq
    obtain ⟨hns, team, hteam⟩ := hw.tenants ha hr
    rw [hrq.ns]
    refine ⟨hns, team, fun name => ⟨fun hname => ?_, fun hname => ?_⟩⟩
    · obtain ⟨t, ht, hkey⟩ := h.wellFormed.holds_of_stored hname
      rcases h.records.origin ht with ⟨t₀, ht₀, htt⟩ | ⟨d, p, hd, heq, hp⟩
      · exact (hteam name).1 (hkey ▸ htt.key ▸ ht₀.stored)
      · -- own teams are in the system namespace
        cases heq
        obtain ⟨d₀, hd₀, hdd⟩ := h.records.origin_of_ne Kind.noConfusion hd
        have htns : t.metadata.ns = r.metadata.ns := congrArg Key.ns hkey
        have hdns : t.metadata.ns = d.metadata.ns := hp.ns
        rw [hdns, hdd.ns, (hw.directors hd₀).1] at htns
        exact absurd htns.symm hns
    · exact h.records.stored hw.wellFormed ((hteam name).2 hname)
  networks {q} hq := by
    obtain ⟨r, hr, hrq⟩ := h.records.origin_of_ne Kind.noConfusion hq
    rw [hrq.ns, hrq.effective_eq Kind.noConfusion]
    exact fun subnet hsubnet az haz =>
      h.records.stored hw.wellFormed (hw.networks hr subnet hsubnet az haz)
  releases {q} hq := by
    obtain ⟨r, hr, hrq⟩ := h.records.origin_of_ne Kind.noConfusion hq
    rw [h.releaseSources, hrq.effective_eq Kind.noConfusion]
    exact hw.releases hr
  baseImages {q} hq := by
    obtain ⟨r, hr, hrq⟩ := h.records.origin_of_ne Kind.noConfusion hq
    rw [h.stemcellSources, hrq.effective_eq Kind.noConfusion]
    exact hw.baseImages hr
  deployments {q} hq := by
    obtain ⟨r, hr, hrq⟩ := h.records.origin_of_ne Kind.noConfusion hq
    rw [hrq.ns, ← DeploymentSpec.composable_consumed, hrq.effective,
      DeploymentSpec.composable_consumed]
    exact h.records.composable hw.wellFormed (hw.deployments hr)

end World

/-- The object that a stored record stands for, as far as it can be composed. -/
def AnyRecord.object? (s : Store) : AnyRecord → Option RemoteObject
  | ⟨.az, r⟩ => (Artifact.object .az r s).1.toOption
  | ⟨.network, r⟩ => (Artifact.object .network r s).1.toOption
  | ⟨.baseImage, r⟩ => (Artifact.object .baseImage r s).1.toOption
  | ⟨.release, r⟩ => (Artifact.object .release r s).1.toOption
  | ⟨.vmExtension, r⟩ => (Artifact.object .vmExtension r s).1.toOption
  | ⟨.compilation, r⟩ => (Artifact.object .compilation r s).1.toOption
  | ⟨.deployment, r⟩ => (Artifact.object .deployment r s).1.toOption
  | ⟨.director, _⟩ | ⟨.team, _⟩ | ⟨.role, _⟩ => none

theorem AnyRecord.object?_artifact (s : Store) (a : ArtifactKind) (r : Record a.kind) :
    object? s ⟨a.kind, r⟩ = (Artifact.object a r s).1.toOption := by
  cases a <;> rfl

namespace Store

variable {s : Store} {k : Kind} {r : Record k} {sys : String}

def objectAt (s : Store) (key : Key) : Option RemoteObject :=
  (s.get? key).bind (AnyRecord.object? s)

/-- The store after a record was brought up to date. -/
def bring (sys : String) (s : Store) : {k : Kind} → Record k → Store
  | .director, r => (create r.ownTeam (s.keep (r.brought sys))).2
  | _, r => s.keep (r.brought sys)

theorem bring_of_ne (hk : k ≠ .director) (sys : String) (s : Store) (r : Record k) :
    s.bring sys r = s.keep (r.brought sys) := by
  cases k with
  | director => exact absurd rfl hk
  | _ => rfl

theorem bring_artifact (sys : String) (s : Store) {a : ArtifactKind} (r : Record a.kind) :
    s.bring sys r = s.keep (r.consumed.readied sys).settled := by
  cases a <;> rfl

theorem holds_bring (sys : String) (s : Store) (r : Record k) :
    (s.bring sys r).Holds (r.brought sys) := by
  cases k with
  | director =>
    have hne : (r.brought sys).key ≠ r.ownTeam.key := by
      rw [Record.key_brought]
      exact (Reconcile.ownTeam_key_ne r).symm
    rw [bring, Holds, get?_create_of_ne hne]
    exact holds_keep s _
  | _ => exact holds_keep s _

theorem onward_bring (sys : String) (hr : s.Holds r) : s.Onward (s.bring sys r) := by
  have hkeep := onward_keep hr (r.continues_brought sys)
  cases k with
  | director =>
    have hown : (r.brought sys).ownTeam = r.ownTeam := Reconcile.key_ownTeam_guarded r
    have hcreate := onward_create (holds_keep s (r.brought sys))
    rw [hown] at hcreate
    exact hkeep.trans hcreate
  | _ => exact hkeep

theorem wellFormed_bring (hs : s.WellFormed) (hl : r.beingDeleted = false) :
    (s.bring sys r).WellFormed := by
  have hkeep : (s.keep (r.brought sys)).WellFormed :=
    Reconcile.wellFormed_keep_live hs (by rw [Record.beingDeleted_brought, hl])
  cases k with
  | director => exact hkeep.create _
  | _ => exact hkeep

/-- Other records are left as they are. -/
theorem get?_bring (sys : String) {key : Key} (h : s.Stored key) (hne : key ≠ r.key) :
    (s.bring sys r).get? key = s.get? key := by
  have hkeep : (s.keep (r.brought sys)).get? key = s.get? key := by
    rw [get?_keep, if_neg (by rwa [Record.key_brought])]
  cases k with
  | director =>
    obtain ⟨q, hq⟩ := Option.isSome_iff_exists.1 h
    rw [bring, get?_create_of_some (hkeep.trans hq), hq]
  | _ => exact hkeep

end Store

/-- What a reconcile that succeeds makes of the world, of the logs nothing said. -/
structure Progress (sys : String) (w : World Store Secrets) {k : Kind} (r : Record k)
    (u : World Store Secrets) : Prop where
  records : u.records = w.records.bring sys r
  secrets : ∀ {name : SecretName} {value : String}, w.secrets.get? name = some value →
    u.secrets.get? name = some value
  /-- A team may need one new secret. -/
  entropy : u.entropy = w.entropy ∨
    k = .team ∧ ∃ secret, Entropy.generate w.entropy = (.ok secret, u.entropy)
  director : u.director.Same (w.director.receive (u.records.objectAt r.key))
  identity : u.identity.failure = w.identity.failure
  members : ∀ {id : String}, w.identity.clients.contains id = true →
    u.identity.clients.contains id = true
  clients : u.clients.failure = w.clients.failure
  now : u.now = w.now
  equipped : u.Equips (r.brought sys)
  /-- Where nothing was left to write, nothing was written. -/
  idle : w.Settled sys r → u.secrets = w.secrets ∧ u.entropy = w.entropy ∧
    u.identity.Same w.identity

namespace Progress

variable {w u v : World Store Secrets} {sys : String} {k : Kind} {r : Record k}

theorem of_same (h : Progress sys w r u) (hv : v.Same u) : Progress sys w r v := by
  obtain ⟨hrecords, hsecrets, hentropy, hdirector, hidentity, hclients, hnow⟩ := World.same_iff.1 hv
  have hunlogged : v.identity.unlogged = u.identity.unlogged := hidentity
  have hfailure : v.identity.failure = u.identity.failure := (congrArg Identity.failure hunlogged :)
  have hmembers : v.identity.clients = u.identity.clients := (congrArg Identity.clients hunlogged :)
  refine ⟨hrecords.trans h.records, ?_, hentropy ▸ h.entropy, ?_, hfailure.trans h.identity, ?_,
    hclients.trans h.clients, hnow.trans h.now, ?_, fun hr => ?_⟩
  · rw [hsecrets]
    exact h.secrets
  · rw [hrecords]
    exact Eq.trans hdirector h.director
  · rw [hmembers]
    exact h.members
  · have he := h.equipped
    cases k with
    | director => rwa [World.Equips, hrecords]
    | team => rwa [World.Equips, hsecrets, hmembers]
    | _ => trivial
  · obtain ⟨hs, he, hi⟩ := h.idle hr
    exact ⟨hsecrets.trans hs, hentropy.trans he, Eq.trans hidentity hi⟩

end Progress

theorem Store.objectAt_of_holds {s : Store} {k : Kind} {r : Record k} (h : s.Holds r) :
    s.objectAt r.key = AnyRecord.object? s ⟨k, r⟩ := by
  rw [objectAt, show s.get? r.key = some ⟨k, r⟩ from h, Option.bind_some]

theorem Store.objectAt_bring (sys : String) (s : Store) {k : Kind} (r : Record k) :
    (s.bring sys r).objectAt r.key = AnyRecord.object? (s.bring sys r) ⟨k, r.brought sys⟩ := by
  have h := objectAt_of_holds (holds_bring sys s r)
  rwa [Record.key_brought] at h

/-- The object of a record that was brought up to date is made of the record as it was when it was
ready. -/
theorem Store.objectAt_bring_artifact (sys : String) (s : Store) {a : ArtifactKind}
    (r : Record a.kind) : (s.bring sys r).objectAt r.key =
      (Artifact.object a (r.consumed.readied sys)
        (s.keep (r.consumed.readied sys))).1.toOption := by
  have halike := (r.consumed.readied sys).alike_settled
  have hreplaced : Replaced (r.consumed.readied sys) (r.consumed.readied sys).settled
      (s.keep (r.consumed.readied sys)) (s.bring sys r) := by
    refine ⟨holds_keep _ _, ?_⟩
    rw [bring_artifact, keep_keep s halike.key]
  rw [objectAt_bring, AnyRecord.object?_artifact, Record.brought_artifact,
    Artifact.object_of_replaced a halike hreplaced]

variable {w v : World Store Secrets} {sys : String}

theorem World.Provided.not_misplaced (hw : w.Provided sys) {k : Kind} {r : Record k}
    (hr : w.records.Holds r) : ¬Reconcile.Misplaced sys r := by
  rintro ⟨rfl | rfl, hns⟩
  · exact hns (hw.directors hr).1
  · exact hns (hw.compilations hr).1

theorem World.onward_keep {k : Kind} {r q : Record k} (hw : w.Provided sys)
    (hr : w.records.Holds r) (h : r.Continues q) : w.Onward (w.keep q) where
  records := Store.onward_keep hr h
  wellFormed := Reconcile.wellFormed_keep_live hw.wellFormed
    (h.beingDeleted.trans (hw.live hr))
  secrets hs := hs
  releaseSources := rfl
  stemcellSources := rfl
  director := rfl
  identity := rfl
  clients := rfl

theorem World.Settled.keep {k k' : Kind} {r : Record k} (h : w.Settled sys r) {q : Record k'}
    (hne : r.key ≠ q.key) : (w.keep q).Settled sys r where
  holds := by
    rw [Store.Holds, World.records_keep, Store.get?_keep, if_neg hne]
    exact h.holds
  brought := h.brought
  equipped := by
    have he := h.equipped
    cases k with
    | director =>
      rw [World.Equips, Store.Stored, World.records_keep, Store.get?_keep]
      split
      · rfl
      · exact he
    | team => exact he
    | _ => trivial

/-- Writing the record itself leaves it ready. -/
theorem World.Ready.keep {k : Kind} {r q : Record k} (h : w.Ready sys r.key)
    (hk : q.key = r.key) : (w.keep q).Ready sys q.key := by
  intro key' hstored hns hne hplace
  have hother : key' ≠ q.key := by
    rintro rfl
    exact Nat.lt_irrefl _ hplace
  rw [Store.Stored, World.records_keep, Store.get?_keep, if_neg hother] at hstored
  rw [hk] at hns hplace
  obtain ⟨k', p, rfl, hp⟩ := h hstored hns hne hplace
  exact ⟨k', p, rfl, hp.keep hother⟩

namespace Reconcile

open World

theorem director_progress {r : Record .director} (hw : w.Provided sys) (hr : w.records.Holds r) :
    ∃ u, reconcile sys r.key w = (.ok (), u) ∧ Progress sys w r u := by
  have hrun := reconcile_of_live_director hr (hw.not_misplaced hr) (hw.live hr)
  refine ⟨_, hrun.trans (establishDirector_eq hr), ?_⟩
  exact
    { records := rfl
      secrets := fun h => h
      entropy := .inl rfl
      director := by
        show w.director.Same (w.director.receive ((w.records.bring sys r).objectAt r.key))
        rw [Store.objectAt_bring]
        rfl
      identity := rfl
      members := fun h => h
      clients := rfl
      now := rfl
      equipped := by
        have hown : (r.brought sys).ownTeam = r.ownTeam := key_ownTeam_guarded r
        rw [Equips, hown]
        exact Store.isSome_get?_create _ _
      idle := fun _ => ⟨rfl, rfl, rfl⟩ }

theorem role_progress {r : Record .role} (hr : w.records.Holds r) :
    ∃ u, reconcile sys r.key w = (.ok (), u) ∧ Progress sys w r u := by
  refine ⟨w, reconcile_of_role hr, ?_⟩
  exact
    { records := (Store.keep_of_holds hr).symm
      secrets := fun h => h
      entropy := .inl rfl
      director := by
        rw [Store.objectAt_of_holds hr]
        rfl
      identity := rfl
      members := fun h => h
      clients := rfl
      now := rfl
      equipped := trivial
      idle := fun _ => ⟨rfl, rfl, rfl⟩ }

theorem team_progress {r : Record .team} (hw : w.Provided sys) (hr : w.records.Holds r)
    (hsupply : w.Settled sys r ∨ ∃ secret rest, Entropy.generate w.entropy = (.ok secret, rest)) :
    ∃ u, reconcile sys r.key w = (.ok (), u) ∧ Progress sys w r u := by
  have hname : (r.readied sys).internalName = r.internalName :=
    Record.internalName_eq (r.key_readied sys)
  have hspace : (r.readied sys).secretNamespace = (r.brought sys).secretNamespace :=
    (Record.secretNamespace_settled _).symm
  have hname' : (r.brought sys).internalName = r.internalName :=
    Record.internalName_eq (r.key_brought sys)
  have hsecret : (w.secrets.get?
        ⟨(r.readied sys).secretNamespace, (r.readied sys).internalName⟩).isSome = true ∨
      ∃ secret rest, Entropy.generate w.entropy = (.ok secret, rest) :=
    hsupply.imp_left fun h => by
      rw [hspace, h.brought, hname]
      exact h.equipped.1
  obtain ⟨value, t, hs, hvalue, ht⟩ := SecretStore.getOrGenerate_ok hsecret
  have hask := askIdentityOf_ok
    (hw.onward (onward_keep hw hr (r.continues_frozenBy sys)))
    (holds_keep w (r.frozenBy sys)) (Record.isSome_frozen?_frozenBy rfl sys r)
  have hi := Identity.registered_of_none hw.identityUp (r.readied sys).internalName value
  have hout := establishTeam_outcome sys hr
  simp only [hask, hs, hi] at hout
  obtain ⟨v, hv, hsame⟩ := World.eq_of_outcome hout
  refine ⟨v, (reconcile_of_live_team hr (hw.live hr)).trans hv, Progress.of_same ?_ hsame⟩
  exact
    { records := rfl
      secrets := fun h => SecretStore.get?_of_getOrGenerate hs h
      entropy := ht.imp_right fun h => ⟨rfl, h⟩
      director := by
        show w.director.Same (w.director.receive ((w.records.bring sys r).objectAt r.key))
        rw [Store.objectAt_bring]
        rfl
      identity := Identity.failure_withTeamClient _ _
      members := fun h => by
        show (w.identity.withTeamClient _ value).clients.contains _ = true
        rw [Identity.contains_withTeamClient, h, Bool.or_true]
      clients := rfl
      now := rfl
      equipped := by
        rw [Equips, ← hspace, hname', ← hname]
        refine ⟨Option.isSome_iff_exists.2 ⟨value, hvalue⟩, ?_⟩
        show (w.identity.withTeamClient _ value).clients.contains _ = true
        rw [Identity.contains_withTeamClient]
        simp
      idle := fun h => by
        have hequipped := h.equipped
        rw [Equips, ← h.brought, ← hspace, hname', ← hname] at hequipped
        obtain ⟨value', hvalue'⟩ := Option.isSome_iff_exists.1 hequipped.1
        rw [SecretStore.getOrGenerate_of_some hvalue'] at hs
        cases hs
        refine ⟨rfl, rfl, ?_⟩
        show (w.identity.withTeamClient _ value).unlogged = w.identity.unlogged
        rw [Identity.withTeamClient, if_pos hequipped.2] }

theorem artifact_progress {a : ArtifactKind} {r : Record a.kind} (hw : w.Provided sys)
    (hr : w.records.Holds r) (hready : w.Ready sys r.key) :
    ∃ u, reconcile sys r.key w = (.ok (), u) ∧ Progress sys w r u := by
  have hat := w.records.objectAt_bring_artifact sys r
  have hrun := reconcile_of_live_artifact hw.wellFormed hr (hw.not_misplaced hr) (hw.live hr)
  have hkey := r.key_consumed
  have hcont := r.continues_consumed
  have hbring := w.records.bring_artifact sys r
  generalize r.consumed = c at *
  have hq : r.Continues (c.readied sys) := hcont.trans (c.continues_readied sys)
  -- the credentials are asked for once the force flag is consumed, the object is composed once the
  -- record is frozen and guarded
  have hask := askDirectorOf_ok (hw.onward (onward_keep hw hr hcont)) (holds_keep w c)
    (hready.keep hkey)
  have hfrozen : a.kind.freezes = true → (c.readied sys).frozen?.isSome = true := by
    intro hk
    rw [Record.frozen?_readied_of_freezes hk]
    rfl
  obtain ⟨o, ho, harrived⟩ := (hw.onward (onward_keep hw hr hq)).object
    (holds_keep w (c.readied sys)) hfrozen (hready.keep hq.key)
  obtain ⟨d, hd⟩ := Option.isSome_iff_exists.1 harrived
  have hd : w.director.arrived? o = some d := hd
  have ho : Artifact.object a (c.readied sys) (w.records.keep (c.readied sys)) = (.ok o, _) := ho
  have hkept : (w.keep c).records.keep (c.readied sys) = w.records.keep (c.readied sys) :=
    Store.keep_keep w.records (c.key_readied sys)
  have hout := establishArtifact_outcome sys (World.holds_keep w c)
  simp only [hask, hkept, ho,
    Director.established_of_arrived (d := (w.keep c).director) hw.directorUp hd] at hout
  obtain ⟨v, hv, hsame⟩ := World.eq_of_outcome hout
  have hsettled : (c.readied sys).settled.key = c.key := by simp
  have hrecords : (w.records.keep c).keep (c.readied sys).settled = w.records.bring sys r := by
    rw [hbring, Store.keep_keep w.records hsettled]
  refine ⟨v, hrun.trans hv, Progress.of_same ?_ hsame⟩
  exact
    { records := hrecords
      secrets := fun h => h
      entropy := .inl rfl
      director := by
        have hat : (w.records.bring sys r).objectAt r.key = some o := by
          rw [hat, ho]
          rfl
        show d.unlogged.unlogged =
          (w.director.receive (((w.records.keep c).keep _).objectAt r.key)).unlogged
        rw [hrecords, hat, Director.receive, Option.bind_some, hd]
        rfl
      identity := rfl
      members := fun h => h
      clients := rfl
      now := rfl
      equipped := by cases a <;> trivial
      idle := fun _ => ⟨rfl, rfl, rfl⟩ }

end Reconcile

/-- In a provided world, the reconcile of a record that is ready succeeds, as long as the supply of
random bytes lasts. -/
theorem reconcile_progress {k : Kind} {r : Record k} (hw : w.Provided sys) (hr : w.records.Holds r)
    (hready : w.Ready sys r.key) (hsupply : k = .team → w.Settled sys r ∨
      ∃ secret rest, Entropy.generate w.entropy = (.ok secret, rest)) :
    ∃ u, reconcile sys r.key w = (.ok (), u) ∧ Progress sys w r u := by
  induction k, r using Reconcile.kindCases with
  | director r => exact Reconcile.director_progress hw hr
  | team r => exact Reconcile.team_progress hw hr (hsupply rfl)
  | role r => exact Reconcile.role_progress hr
  | artifact a r => exact Reconcile.artifact_progress hw hr hready

namespace Store

variable {s : Store} {k : Kind} {r : Record k} {sys : String}

theorem stored_bring (r : Record k) {key : Key} (h : s.Stored key) :
    (s.bring sys r).Stored key := by
  by_cases hk : key = r.key
  · have hstored := (holds_bring sys s r).stored
    rwa [Record.key_brought, ← hk] at hstored
  · rwa [Stored, get?_bring sys h hk]

/-- A settled record is not written. -/
theorem bring_settled {w : World Store Secrets} (h : w.Settled sys r) :
    w.records.bring sys r = w.records := by
  have hkeep : w.records.keep (r.brought sys) = w.records := by
    rw [h.brought, keep_of_holds h.holds]
  cases k with
  | director =>
    obtain ⟨q, hq⟩ := Option.isSome_iff_exists.1 h.equipped
    have hq : (w.records.keep (r.brought sys)).get? r.ownTeam.key = some q := by rw [hkeep, hq]
    rw [bring, create_of_stored hq, hkeep]
  | _ => exact hkeep

end Store

namespace Progress

variable {u : World Store Secrets} {k : Kind} {r : Record k}

theorem onward (hw : w.Provided sys) (hr : w.records.Holds r) (h : Progress sys w r u) :
    w.Onward u := by
  obtain ⟨calls, hd⟩ := Director.same_iff.1 h.director
  obtain ⟨hreleases, hstemcells, hfailure⟩ :=
    w.director.sources_receive (u.records.objectAt r.key)
  rw [hd] at hreleases hstemcells hfailure
  exact
    { records := h.records ▸ Store.onward_bring sys hr
      wellFormed := h.records ▸ Store.wellFormed_bring hw.wellFormed (hw.live hr)
      secrets := h.secrets
      releaseSources := hreleases
      stemcellSources := hstemcells
      director := hfailure
      identity := h.identity
      clients := h.clients }

theorem settled (h : Progress sys w r u) : u.Settled sys (r.brought sys) where
  holds := h.records ▸ Store.holds_bring sys w.records r
  brought := r.brought_brought sys
  equipped := h.equipped

theorem done (h : Progress sys w r u) : u.Done sys r.key :=
  ⟨k, _, r.key_brought sys, h.settled⟩

theorem stays_settled (h : Progress sys w r u) (hr : w.records.Holds r) {k' : Kind} {q : Record k'}
    (hq : w.Settled sys q) : u.Settled sys q := by
  by_cases hk : q.key = r.key
  · cases hr.unique hq.holds hk
    have hsettled := h.settled
    rwa [hq.brought] at hsettled
  · refine ⟨?_, hq.brought, ?_⟩
    · rw [Store.Holds, h.records, Store.get?_bring sys hq.holds.stored hk]
      exact hq.holds
    · have he := hq.equipped
      cases k' with
      | director =>
        rw [World.Equips, h.records]
        exact Store.stored_bring r he
      | team =>
        obtain ⟨value, hv⟩ := Option.isSome_iff_exists.1 he.1
        exact ⟨Option.isSome_iff_exists.2 ⟨value, h.secrets hv⟩, h.members he.2⟩
      | _ => trivial

theorem stays_done (h : Progress sys w r u) (hr : w.records.Holds r) {key : Key}
    (hk : w.Done sys key) : u.Done sys key := by
  obtain ⟨k', q, rfl, hq⟩ := hk
  exact ⟨k', q, rfl, h.stays_settled hr hq⟩

theorem records_of_settled (h : Progress sys w r u) (hr : w.Settled sys r) :
    u.records = w.records :=
  h.records.trans (Store.bring_settled hr)

end Progress

end Reconciliation
