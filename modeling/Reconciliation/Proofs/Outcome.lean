import Reconciliation.Proofs.Composition
import Reconciliation.Proofs.Logs

namespace Reconciliation

open World (outcome)

namespace Director

variable {d : Director}

/-- The Director after an object was brought into place. -/
def established (d : Director) (o : RemoteObject) : Except RemoteError Director :=
  match ensure o d with
  | (.ok (), d') => .ok d'.unlogged
  | (.error e, _) => .error e

/-- The Director after an object, if there was one to speak of, was taken away. -/
def removed (d : Director) : Option RemoteHandle → Except RemoteError Director
  | none => .ok d.unlogged
  | some h =>
    match remove h d with
    | (.ok (), d') => .ok d'.unlogged
    | (.error e, _) => .error e

theorem established_of_same {e : Director} (h : d.Same e) (o : RemoteObject) :
    e.established o = d.established o := by
  have hr := ensure_related o d e h
  rw [established, established]
  rcases hd : ensure o d with ⟨x | ⟨⟩, d'⟩ <;> rcases he : ensure o e with ⟨y | ⟨⟩, e'⟩ <;>
    rw [hd, he] at hr
  · exact congrArg Except.error hr.1.symm
  · exact hr.elim
  · exact hr.elim
  · exact congrArg Except.ok hr.2.symm

theorem established_ok {o : RemoteObject} {d' : Director} (h : d.established o = .ok d') :
    ∃ d₁, d.arrived? o = some d₁ ∧ d' = d₁.unlogged := by
  rw [established] at h
  rcases he : ensure o d with ⟨e | ⟨⟩, d''⟩ <;> rw [he] at h
  · cases h
  · cases h
    obtain ⟨-, d₁, calls, ha, rfl⟩ := ensure_ok he
    exact ⟨d₁, ha, rfl⟩

theorem established_of_arrived {o : RemoteObject} {d₁ : Director} (hf : d.failure = none)
    (h : d.arrived? o = some d₁) : d.established o = .ok d₁.unlogged := by
  rcases ensure_of_none hf o with ⟨d₂, calls, ha, he⟩ | ⟨e, calls, ha, -⟩
  · cases h.symm.trans ha
    rw [established, he]
    rfl
  · rw [h] at ha
    cases ha

theorem removed_ok {o : RemoteHandle} {d' : Director} (h : d.removed (some o) = .ok d') :
    d' = (d.without o).unlogged := by
  simp only [removed] at h
  rcases he : remove o d with ⟨e | ⟨⟩, d''⟩ <;> rw [he] at h
  · cases h
  · cases h
    obtain ⟨calls, rfl⟩ := remove_ok he
    rfl

/-- A Director takes away what it is asked to, unless it is failing. -/
theorem removed_eq_ok_iff {o : RemoteHandle} {d' : Director} :
    d.removed (some o) = .ok d' ↔ d.failure = none ∧ d' = (d.without o).unlogged := by
  rcases Option.eq_none_or_eq_some d.failure with hf | ⟨reason, hf⟩
  · obtain ⟨calls, he⟩ := remove_of_none hf o
    have hd : d.removed (some o) = .ok (d.without o).unlogged := by
      simp only [removed, he]
      rfl
    rw [hd, hf]
    simp [eq_comm]
  · obtain ⟨calls, he⟩ := remove_of_some hf o
    simp [removed, he, hf]

/-- Bringing an object into place once more changes nothing. -/
theorem established_again {o : RemoteObject} {d' : Director} (h : d.established o = .ok d') :
    d'.established o = .ok d' := by
  rw [established] at h
  rcases he : ensure o d with ⟨e | ⟨⟩, d''⟩ <;> rw [he] at h
  · cases h
  · cases h
    obtain ⟨calls, hagain⟩ := ensure_again he
    rw [established_of_same (d := d'') (e := d''.unlogged) rfl, established, hagain]
    rfl

end Director

namespace Identity

variable {i : Identity}

/-- The service after a team's client was registered. -/
def registered (i : Identity) (id secret : String) : Except RemoteError Identity :=
  match ensureTeamClient id secret i with
  | (.ok (), i') => .ok i'.unlogged
  | (.error e, _) => .error e

/-- The service after a client was taken away. -/
def dismissed (i : Identity) (id : String) : Except RemoteError Identity :=
  match removeClient id i with
  | (.ok (), i') => .ok i'.unlogged
  | (.error e, _) => .error e

theorem registered_of_same {j : Identity} (h : i.Same j) (id secret : String) :
    j.registered id secret = i.registered id secret := by
  have hr := ensureTeamClient_related id secret i j h
  rw [registered, registered]
  rcases hi : ensureTeamClient id secret i with ⟨x | ⟨⟩, i'⟩ <;>
    rcases hj : ensureTeamClient id secret j with ⟨y | ⟨⟩, j'⟩ <;> rw [hi, hj] at hr
  · exact congrArg Except.error hr.1.symm
  · exact hr.elim
  · exact hr.elim
  · exact congrArg Except.ok hr.2.symm

theorem registered_ok {id secret : String} {i' : Identity} (h : i.registered id secret = .ok i') :
    i' = (i.withTeamClient id secret).unlogged := by
  rw [registered] at h
  rcases he : ensureTeamClient id secret i with ⟨e | ⟨⟩, i''⟩ <;> rw [he] at h
  · cases h
  · cases h
    obtain ⟨-, calls, rfl⟩ := ensureTeamClient_ok he
    rfl

theorem registered_of_none (hf : i.failure = none) (id secret : String) :
    i.registered id secret = .ok (i.withTeamClient id secret).unlogged := by
  obtain ⟨calls, he⟩ := ensureTeamClient_of_none hf id secret
  rw [registered, he]
  rfl

theorem dismissed_ok {id : String} {i' : Identity} (h : i.dismissed id = .ok i') :
    i' = ({ i with clients := i.clients.erase id } : Identity).unlogged := by
  rw [dismissed] at h
  rcases he : removeClient id i with ⟨e | ⟨⟩, i''⟩ <;> rw [he] at h
  · cases h
  · cases h
    obtain ⟨calls, rfl⟩ := removeClient_ok he
    rfl

theorem registered_again {id secret : String} {i' : Identity}
    (h : i.registered id secret = .ok i') (secret' : String) :
    i'.registered id secret' = .ok i' := by
  rw [registered] at h
  rcases he : ensureTeamClient id secret i with ⟨e | ⟨⟩, i''⟩ <;> rw [he] at h
  · cases h
  · cases h
    obtain ⟨calls, hagain⟩ :
        ∃ calls, ensureTeamClient id secret' i'' = (.ok (), { i'' with calls := calls }) :=
      ensureTeamClient_again he
    rw [registered_of_same (i := i'') (j := i''.unlogged) rfl, registered, hagain]
    rfl

end Identity

variable {w : World Store Secrets}

namespace Artifact

theorem establish_outcome (a : ArtifactKind) (r : Record a.kind) (w : World Store Secrets) :
    outcome (establish a r) w =
      match (object a r w.records).1 with
      | .error e => (.error e, w.unlogged)
      | .ok o =>
        match w.director.established o with
        | .error e => (.error (.remote e), w.unlogged)
        | .ok d => (.ok (), (w.withDirector d).unlogged) := by
  rcases ho : object a r w.records with ⟨e | o, s⟩
  · obtain rfl := (object_reads a r).eq ho
    exact World.outcome_of_eq (Step.bind_error (World.onRecords_error ho) _)
  · obtain rfl := (object_reads a r).eq ho
    have hobject : World.onRecords id (object a r) w = (.ok o, w) := World.onRecords_ok ho
    have hx : establish a r w = World.onDirector (Director.ensure o) w := Step.bind_ok hobject _
    rw [World.outcome, hx]
    rcases hd : Director.ensure o w.director with ⟨e | ⟨⟩, d⟩
    · obtain ⟨calls, rfl⟩ := Director.ensure_error hd
      simp only [Director.established, hd, World.onDirector, Step.onPart_error hd]
      rfl
    · simp only [Director.established, hd, World.onDirector, Step.onPart_ok hd]
      rfl

theorem remove_outcome (a : ArtifactKind) (r : Record a.kind) (w : World Store Secrets) :
    outcome (remove a r) w =
      match w.director.removed (handle? a r) with
      | .error e => (.error (.remote e), w.unlogged)
      | .ok d => (.ok (), (w.withDirector d).unlogged) := by
  rw [World.outcome, remove]
  cases handle? a r with
  | none => rfl
  | some h =>
    rcases hd : Director.remove h w.director with ⟨e | ⟨⟩, d⟩
    · obtain ⟨calls, rfl⟩ := Director.remove_error hd
      simp only [Director.removed, hd, World.onDirector, Step.onPart_error hd]
      rfl
    · simp only [Director.removed, hd, World.onDirector, Step.onPart_ok hd]
      rfl

end Artifact

namespace Reconcile

open Record (key_guarded)

theorem askDirectorOf_outcome (sys : String) (a : ArtifactKind) (r : Record a.kind)
    (w : World Store Secrets) :
    outcome (askDirectorOf sys a r) w = ((askDirectorOf sys a r w).1, w.unlogged) := by
  obtain ⟨c, hf, hc⟩ := askDirectorOf_snd sys a r w
  rw [outcome, hc]
  simp only [World.unlogged, Clients.unlogged, hf]

/-- The remote half of establishing an artifact, from where its record is ready. -/
theorem establish_publish_outcome {a : ArtifactKind} {r : Record a.kind}
    (hr : w.records.Holds r) :
    outcome (do
        Artifact.establish a r
        publish r) w =
      match (Artifact.object a r w.records).1 with
      | .error e => (.error e, w.unlogged)
      | .ok o =>
        match w.director.established o with
        | .error e => (.error (.remote e), w.unlogged)
        | .ok d => (.ok (), ((w.withDirector d).keep r.settled).unlogged) := by
  have he := Artifact.establish_outcome a r w
  cases ho : (Artifact.object a r w.records).1 with
  | error e =>
    simp only [ho] at he
    exact World.outcome_bind_error he _
  | ok o =>
    simp only [ho] at he
    cases hd : w.director.established o with
    | error e =>
      simp only [hd] at he ⊢
      exact World.outcome_bind_error he _
    | ok d =>
      simp only [hd] at he ⊢
      rw [World.outcome_bind_ok he (publish_ignoresLogs r)]
      exact World.outcome_of_eq (publish_eq (w := w.withDirector d) hr)

section

variable {sys : String} {a : ArtifactKind} {r : Record a.kind} {e : ReconcileError}

/-! Without a client, an artifact's reconcile ends before it writes anything. -/

theorem establishArtifact_of_refused (h : (askDirectorOf sys a r w).1 = .error e) :
    outcome (establishArtifact sys a r) w = (.error e, w.unlogged) := by
  have hask := askDirectorOf_outcome sys a r w
  rw [h] at hask
  exact World.outcome_bind_error hask _

theorem establishArtifact_of_granted (h : (askDirectorOf sys a r w).1 = .ok ()) :
    outcome (establishArtifact sys a r) w = outcome (do
      let r ← freeze sys r
      let r ← attachFinalizer r
      Artifact.establish a r
      publish r) w := by
  have hask := askDirectorOf_outcome sys a r w
  rw [h] at hask
  have hrest : World.IgnoresLogs (do
      let r ← freeze (σ := Store) (τ := Secrets) sys r
      let r ← attachFinalizer r
      Artifact.establish a r
      publish r) :=
    (freeze_ignoresLogs sys r).bind fun r => (attachFinalizer_ignoresLogs r).bind fun r =>
      (Artifact.establish_ignoresLogs a r).bind fun _ => publish_ignoresLogs r
  exact World.outcome_bind_ok hask hrest

theorem removeArtifact_of_refused (hf : r.hasFinalizer = true)
    (h : (askDirectorOf sys a r w).1 = .error e) :
    outcome (removeArtifact sys a r) w = (.error e, w.unlogged) := by
  have hask := askDirectorOf_outcome sys a r w
  rw [h] at hask
  rw [removeArtifact, if_pos hf]
  exact World.outcome_bind_error hask _

theorem removeArtifact_of_granted (hf : r.hasFinalizer = true)
    (h : (askDirectorOf sys a r w).1 = .ok ()) :
    outcome (removeArtifact sys a r) w = outcome (do
      Artifact.remove a r
      dropFinalizer r) w := by
  have hask := askDirectorOf_outcome sys a r w
  rw [h] at hask
  have hrest : World.IgnoresLogs (do
      Artifact.remove (σ := Store) (τ := Secrets) a r
      dropFinalizer r) :=
    (Artifact.remove_ignoresLogs a r).bind fun _ => dropFinalizer_ignoresLogs r
  rw [removeArtifact, if_pos hf]
  exact World.outcome_bind_ok hask hrest

end

theorem establishArtifact_outcome (sys : String) {a : ArtifactKind} {r : Record a.kind}
    (hr : w.records.Holds r) :
    outcome (establishArtifact sys a r) w =
      match (askDirectorOf sys a r w).1 with
      | .error e => (.error e, w.unlogged)
      | .ok () =>
        match (Artifact.object a (r.readied sys) (w.records.keep (r.readied sys))).1 with
        | .error e => (.error e, (w.keep (r.readied sys)).unlogged)
        | .ok o =>
          match w.director.established o with
          | .error e => (.error (.remote e), (w.keep (r.readied sys)).unlogged)
          | .ok d => (.ok (), ((w.withDirector d).keep (r.readied sys).settled).unlogged) := by
  cases hx : (askDirectorOf sys a r w).1 with
  | error e => exact establishArtifact_of_refused hx
  | ok _ =>
    rw [establishArtifact_of_granted hx, World.outcome_bind_of_eq (freeze_eq hr sys),
      World.outcome_bind_of_eq (attachFinalizer_frozenBy sys r w),
      establish_publish_outcome (World.holds_keep w (r.readied sys))]
    simp only [World.keep, World.withDirector, Store.keep_keep _ (r.readied sys).key_settled]

theorem removeArtifact_outcome (sys : String) {a : ArtifactKind} {r : Record a.kind}
    (hr : w.records.Holds r) :
    outcome (removeArtifact sys a r) w =
      if r.hasFinalizer then
        match (askDirectorOf sys a r w).1 with
        | .error e => (.error e, w.unlogged)
        | .ok () =>
          match w.director.removed (Artifact.handle? a r) with
          | .error e => (.error (.remote e), w.unlogged)
          | .ok d => (.ok (), ((w.withDirector d).accept r.released).unlogged)
      else (.ok (), w.unlogged) := by
  split
  · next hf =>
    cases hx : (askDirectorOf sys a r w).1 with
    | error e => exact removeArtifact_of_refused hf hx
    | ok _ =>
      rw [removeArtifact_of_granted hf hx]
      have he := Artifact.remove_outcome a r w
      cases hd : w.director.removed (Artifact.handle? a r) with
      | error e =>
        simp only [hd] at he ⊢
        exact World.outcome_bind_error he _
      | ok d =>
        simp only [hd] at he ⊢
        rw [World.outcome_bind_ok he (dropFinalizer_ignoresLogs r)]
        exact World.outcome_of_eq (dropFinalizer_eq (w := w.withDirector d) hr)
  · next hf =>
    rw [removeArtifact, if_neg hf]
    rfl

/-- How an attempt to establish an artifact may end. -/
inductive ArtifactEstablished (sys : String) (a : ArtifactKind) (r : Record a.kind)
    (w : World Store Secrets) : Except ReconcileError Unit → World Store Secrets → Prop
  | refused {e : ReconcileError} : ArtifactEstablished sys a r w (.error e) w.unlogged
  | stopped {e : ReconcileError} (hask : (askDirectorOf sys a r w).1 = .ok ()) :
    ArtifactEstablished sys a r w (.error e) (w.keep (r.readied sys)).unlogged
  | done {o : RemoteObject} {d : Director} (hask : (askDirectorOf sys a r w).1 = .ok ())
      (ho : (Artifact.object a (r.readied sys) (w.records.keep (r.readied sys))).1 = .ok o)
      (hd : w.director.established o = .ok d) :
    ArtifactEstablished sys a r w (.ok ())
      ((w.withDirector d).keep (r.readied sys).settled).unlogged

/-- How an attempt to remove an artifact may end. -/
inductive ArtifactRemoved (a : ArtifactKind) (r : Record a.kind) (w : World Store Secrets) :
    Except ReconcileError Unit → World Store Secrets → Prop
  | unchanged {x : Except ReconcileError Unit} : ArtifactRemoved a r w x w.unlogged
  | done {d : Director} (hf : r.hasFinalizer = true)
      (hd : w.director.removed (Artifact.handle? a r) = .ok d) :
    ArtifactRemoved a r w (.ok ()) ((w.withDirector d).accept r.released).unlogged

section

variable {u : World Store Secrets} {x : Except ReconcileError Unit} {a : ArtifactKind}
  {r : Record a.kind}

theorem artifactEstablished (hr : w.records.Holds r)
    (h : outcome (establishArtifact sys a r) w = (x, u)) : ArtifactEstablished sys a r w x u := by
  rw [establishArtifact_outcome sys hr] at h
  cases hask : (askDirectorOf sys a r w).1 with
  | error e =>
    simp only [hask] at h
    cases h
    exact .refused
  | ok _ =>
    simp only [hask] at h
    cases ho : (Artifact.object a (r.readied sys) (w.records.keep (r.readied sys))).1 with
    | error e =>
      simp only [ho] at h
      cases h
      exact .stopped hask
    | ok o =>
      simp only [ho] at h
      cases hd : w.director.established o with
      | error e =>
        simp only [hd] at h
        cases h
        exact .stopped hask
      | ok d =>
        simp only [hd] at h
        cases h
        exact .done hask ho hd

theorem artifactRemoved (hr : w.records.Holds r)
    (h : outcome (removeArtifact sys a r) w = (x, u)) : ArtifactRemoved a r w x u := by
  rw [removeArtifact_outcome sys hr] at h
  split at h
  · next hf =>
    cases hask : (askDirectorOf sys a r w).1 with
    | error e =>
      simp only [hask] at h
      cases h
      exact .unchanged
    | ok _ =>
      simp only [hask] at h
      cases hd : w.director.removed (Artifact.handle? a r) with
      | error e =>
        simp only [hd] at h
        cases h
        exact .unchanged
      | ok d =>
        simp only [hd] at h
        cases h
        exact .done hf hd
  · cases h
    exact .unchanged

end

theorem askIdentityOf_outcome (sys : String) (r : Record .team) (w : World Store Secrets) :
    outcome (askIdentityOf sys r) w = ((askIdentityOf sys r w).1, w.unlogged) := by
  obtain ⟨c, hf, hc⟩ := askIdentityOf_snd sys r w
  rw [outcome, hc]
  simp only [World.unlogged, Clients.unlogged, hf]

theorem ensureTeamClient_outcome (id secret : String) (w : World Store Secrets) :
    outcome (World.onIdentity (Identity.ensureTeamClient id secret)) w =
      match w.identity.registered id secret with
      | .error e => (.error (.remote e), w.unlogged)
      | .ok i => (.ok (), (w.withIdentity i).unlogged) := by
  rw [outcome]
  rcases hi : Identity.ensureTeamClient id secret w.identity with ⟨e | ⟨⟩, i⟩
  · obtain ⟨calls, rfl⟩ := Identity.ensureTeamClient_error hi
    simp only [Identity.registered, hi, World.onIdentity, Step.onPart_error hi]
    rfl
  · simp only [Identity.registered, hi, World.onIdentity, Step.onPart_ok hi]
    rfl

theorem removeClient_outcome (id : String) (w : World Store Secrets) :
    outcome (World.onIdentity (Identity.removeClient id)) w =
      match w.identity.dismissed id with
      | .error e => (.error (.remote e), w.unlogged)
      | .ok i => (.ok (), (w.withIdentity i).unlogged) := by
  rw [outcome]
  rcases hi : Identity.removeClient id w.identity with ⟨e | ⟨⟩, i⟩
  · obtain ⟨calls, rfl⟩ := Identity.removeClient_error hi
    simp only [Identity.dismissed, hi, World.onIdentity, Step.onPart_error hi]
    rfl
  · simp only [Identity.dismissed, hi, World.onIdentity, Step.onPart_ok hi]
    rfl

/-- What a ready team gets: a secret, and then a client. -/
theorem equip_outcome {r : Record .team} (hr : w.records.Holds r) :
    outcome (do
        let secret ← World.onSecretSupply
          (SecretStore.getOrGenerate ⟨r.secretNamespace, r.internalName⟩)
        World.onIdentity (Identity.ensureTeamClient r.internalName secret)
        publish r) w =
      match SecretStore.getOrGenerate ⟨r.secretNamespace, r.internalName⟩
          (w.secrets, w.entropy) with
      | (.error e, s) => (.error (.secret e), (w.supplied s).unlogged)
      | (.ok secret, s) =>
        match w.identity.registered r.internalName secret with
        | .error e => (.error (.remote e), (w.supplied s).unlogged)
        | .ok i => (.ok (), (((w.supplied s).withIdentity i).keep r.settled).unlogged) := by
  rcases hs : SecretStore.getOrGenerate ⟨r.secretNamespace, r.internalName⟩ (w.secrets, w.entropy)
    with ⟨e | secret, s⟩
  · exact World.outcome_of_eq (Step.bind_error (World.onSecretSupply_error hs) _)
  · rw [World.outcome_bind_of_eq (World.onSecretSupply_ok hs)]
    have hc := ensureTeamClient_outcome r.internalName secret (w.supplied s)
    have hi : (w.supplied s).identity = w.identity := rfl
    rw [hi] at hc
    cases hreg : w.identity.registered r.internalName secret with
    | error e =>
      simp only [hreg] at hc ⊢
      exact World.outcome_bind_error hc _
    | ok i =>
      simp only [hreg] at hc ⊢
      rw [World.outcome_bind_ok hc (publish_ignoresLogs r)]
      exact World.outcome_of_eq (publish_eq (w := (w.supplied s).withIdentity i) hr)

theorem establishTeam_outcome (sys : String) {r : Record .team} (hr : w.records.Holds r) :
    outcome (establishTeam sys r) w =
      match (askIdentityOf sys (r.frozenBy sys) (w.keep (r.frozenBy sys))).1 with
      | .error e => (.error e, (w.keep (r.frozenBy sys)).unlogged)
      | .ok () =>
        match SecretStore.getOrGenerate
            ⟨(r.readied sys).secretNamespace, (r.readied sys).internalName⟩
            (w.secrets, w.entropy) with
        | (.error e, s) => (.error (.secret e), ((w.supplied s).keep (r.readied sys)).unlogged)
        | (.ok secret, s) =>
          match w.identity.registered (r.readied sys).internalName secret with
          | .error e => (.error (.remote e), ((w.supplied s).keep (r.readied sys)).unlogged)
          | .ok i =>
            (.ok (), (((w.supplied s).withIdentity i).keep (r.readied sys).settled).unlogged) := by
  have hask := askIdentityOf_outcome sys (r.frozenBy sys) (w.keep (r.frozenBy sys))
  rw [establishTeam, World.outcome_bind_of_eq (freeze_eq hr sys)]
  cases hx : (askIdentityOf sys (r.frozenBy sys) (w.keep (r.frozenBy sys))).1 with
  | error e =>
    rw [hx] at hask
    exact World.outcome_bind_error hask _
  | ok u =>
    rw [hx] at hask
    have hrest : World.IgnoresLogs (do
        let r ← attachFinalizer (σ := Store) (τ := Secrets) (r.frozenBy sys)
        let secret ← World.onSecretSupply
          (SecretStore.getOrGenerate ⟨r.secretNamespace, r.internalName⟩)
        World.onIdentity (Identity.ensureTeamClient r.internalName secret)
        publish r) :=
      (attachFinalizer_ignoresLogs _).bind fun r =>
        (World.IgnoresLogs.onSecretSupply _).bind fun secret =>
          (World.IgnoresLogs.onIdentity (Identity.ensureTeamClient_related _ secret)).bind fun _ =>
            publish_ignoresLogs r
    rw [World.outcome_bind_ok hask hrest,
      World.outcome_bind_of_eq (attachFinalizer_frozenBy sys r w),
      equip_outcome (World.holds_keep w (r.readied sys))]
    simp only [World.keep, World.supplied, World.withIdentity,
      Store.keep_keep _ (r.readied sys).key_settled]

theorem removeTeam_outcome (sys : String) {r : Record .team} (hr : w.records.Holds r) :
    outcome (removeTeam sys r) w =
      if r.hasFinalizer then
        match (askIdentityOf sys r w).1 with
        | .error e => (.error e, w.unlogged)
        | .ok () =>
          match w.identity.dismissed r.internalName with
          | .error e => (.error (.remote e), w.unlogged)
          | .ok i =>
            (.ok (), ({ w.withIdentity i with
              secrets := w.secrets.erase ⟨r.secretNamespace, r.internalName⟩ }.accept
                r.released).unlogged)
      else (.ok (), w.unlogged) := by
  rw [removeTeam]
  split
  · have hask := askIdentityOf_outcome sys r w
    cases hx : (askIdentityOf sys r w).1 with
    | error e =>
      rw [hx] at hask
      exact World.outcome_bind_error hask _
    | ok u =>
      rw [hx] at hask
      have hdrop : World.IgnoresLogs (do
          World.onSecrets (σ := Store) (τ := Secrets)
            (SecretStore.deleteIfStored ⟨r.secretNamespace, r.internalName⟩)
          dropFinalizer r) :=
        (World.IgnoresLogs.onSecrets _).bind fun _ => dropFinalizer_ignoresLogs r
      have hrest : World.IgnoresLogs (do
          World.onIdentity (σ := Store) (τ := Secrets) (Identity.removeClient r.internalName)
          World.onSecrets (SecretStore.deleteIfStored ⟨r.secretNamespace, r.internalName⟩)
          dropFinalizer r) :=
        (World.IgnoresLogs.onIdentity (Identity.removeClient_related _)).bind fun _ => hdrop
      rw [World.outcome_bind_ok hask hrest]
      have hc := removeClient_outcome r.internalName w
      cases hd : w.identity.dismissed r.internalName with
      | error e =>
        simp only [hd] at hc ⊢
        exact World.outcome_bind_error hc _
      | ok i =>
        simp only [hd] at hc ⊢
        have hs := World.onSecrets_ok (w := w.withIdentity i)
          (SecretStore.deleteIfStored_apply ⟨r.secretNamespace, r.internalName⟩ w.secrets)
        rw [World.outcome_bind_ok hc hdrop, World.outcome_bind_of_eq hs]
        exact World.outcome_of_eq (dropFinalizer_eq (w := { w.withIdentity i with
          secrets := w.secrets.erase ⟨r.secretNamespace, r.internalName⟩ }) hr)
  · rfl

/-- How an attempt to establish a team may end. -/
inductive TeamEstablished (sys : String) (r : Record .team) (w : World Store Secrets) :
    Except ReconcileError Unit → World Store Secrets → Prop
  | refused {e : ReconcileError} :
    TeamEstablished sys r w (.error e) (w.keep (r.frozenBy sys)).unlogged
  | stopped {e : ReconcileError} {x : Except SecretError String} {s : Secrets × Entropy}
      (hask : (askIdentityOf sys (r.frozenBy sys) (w.keep (r.frozenBy sys))).1 = .ok ())
      (hs : SecretStore.getOrGenerate
        ⟨(r.readied sys).secretNamespace, (r.readied sys).internalName⟩ (w.secrets, w.entropy) =
        (x, s)) :
    TeamEstablished sys r w (.error e) ((w.supplied s).keep (r.readied sys)).unlogged
  | done {secret : String} {s : Secrets × Entropy} {i : Identity}
      (hask : (askIdentityOf sys (r.frozenBy sys) (w.keep (r.frozenBy sys))).1 = .ok ())
      (hs : SecretStore.getOrGenerate
        ⟨(r.readied sys).secretNamespace, (r.readied sys).internalName⟩ (w.secrets, w.entropy) =
        (.ok secret, s))
      (hi : w.identity.registered (r.readied sys).internalName secret = .ok i) :
    TeamEstablished sys r w (.ok ())
      (((w.supplied s).withIdentity i).keep (r.readied sys).settled).unlogged

/-- How an attempt to remove a team may end. -/
inductive TeamRemoved (r : Record .team) (w : World Store Secrets) :
    Except ReconcileError Unit → World Store Secrets → Prop
  | unchanged {x : Except ReconcileError Unit} : TeamRemoved r w x w.unlogged
  | done {i : Identity} (hf : r.hasFinalizer = true)
      (hi : w.identity.dismissed r.internalName = .ok i) :
    TeamRemoved r w (.ok ()) ({ w.withIdentity i with
      secrets := w.secrets.erase ⟨r.secretNamespace, r.internalName⟩ }.accept r.released).unlogged

section

variable {u : World Store Secrets} {x : Except ReconcileError Unit} {r : Record .team}

theorem teamEstablished (hr : w.records.Holds r)
    (h : outcome (establishTeam sys r) w = (x, u)) : TeamEstablished sys r w x u := by
  rw [establishTeam_outcome sys hr] at h
  cases hask : (askIdentityOf sys (r.frozenBy sys) (w.keep (r.frozenBy sys))).1 with
  | error e =>
    simp only [hask] at h
    cases h
    exact .refused
  | ok _ =>
    rcases hs : SecretStore.getOrGenerate
        ⟨(r.readied sys).secretNamespace, (r.readied sys).internalName⟩ (w.secrets, w.entropy)
      with ⟨y, s⟩
    simp only [hask, hs] at h
    cases y with
    | error e =>
      cases h
      exact .stopped hask hs
    | ok secret =>
      simp only at h
      cases hi : w.identity.registered (r.readied sys).internalName secret with
      | error e =>
        simp only [hi] at h
        cases h
        exact .stopped hask hs
      | ok i =>
        simp only [hi] at h
        cases h
        exact .done hask hs hi

theorem teamRemoved (hr : w.records.Holds r) (h : outcome (removeTeam sys r) w = (x, u)) :
    TeamRemoved r w x u := by
  rw [removeTeam_outcome sys hr] at h
  split at h
  · next hf =>
    cases hask : (askIdentityOf sys r w).1 with
    | error e =>
      simp only [hask] at h
      cases h
      exact .unchanged
    | ok _ =>
      simp only [hask] at h
      cases hi : w.identity.dismissed r.internalName with
      | error e =>
        simp only [hi] at h
        cases h
        exact .unchanged
      | ok i =>
        simp only [hi] at h
        cases h
        exact .done hf hi
  · cases h
    exact .unchanged

end

theorem ownTeam_key_ne (r : Record .director) : r.ownTeam.key ≠ r.key :=
  fun h => Kind.noConfusion (congrArg Key.kind h)

theorem key_ownTeam_guarded (r : Record .director) : r.guarded.ownTeam = r.ownTeam := by
  have hk := key_guarded r
  simp only [Record.key, Key.mk.injEq, true_and] at hk
  simp only [Record.ownTeam, hk]

section

variable {τ : Type} {w : World Store τ}

theorem establishDirector_eq {r : Record .director} (hr : w.records.Holds r) :
    establishDirector r w = (.ok (), { w with
      records := (Store.create r.ownTeam (w.records.keep r.guarded)).2 }) := by
  rw [establishDirector, Step.bind_ok (attachFinalizer_eq hr)]
  exact World.onRecords_ok (w := w.keep r.guarded) (Store.createUnlessStored_apply _ _)

/-- The world after the deletion of a Director's own team was requested. -/
def withoutTeam (r : Record .director) (w : World Store τ) : World Store τ :=
  { w with records := (Store.delete w.now r.ownTeam.key w.records).2 }

theorem holds_withoutTeam {r : Record .director} (hr : w.records.Holds r) :
    (withoutTeam r w).records.Holds r := by
  rw [Store.Holds, withoutTeam, Store.get?_delete_of_ne _ (ownTeam_key_ne r).symm]
  exact hr

theorem removeDirector_eq {r : Record .director} (hr : w.records.Holds r) :
    removeDirector r w =
      if r.hasFinalizer then
        if ((withoutTeam r w).records.get? r.ownTeam.key).isSome then (.ok (), withoutTeam r w)
        else (.ok (), (withoutTeam r w).accept r.released)
      else (.ok (), w) := by
  rw [removeDirector]
  split
  · have hd : World.deleteIfStored r.ownTeam.key w = (.ok (), withoutTeam r w) := by
      rw [World.deleteIfStored, Step.mk_apply,
        World.onRecords_ok (Store.deleteIfStored_apply w.now r.ownTeam.key w.records)]
      rfl
    rw [Step.bind_ok hd]
    cases hg : (withoutTeam r w).records.get? r.ownTeam.key with
    | none =>
      have hget : World.get r.ownTeam.key (withoutTeam r w) =
          (.error (.store (.notFound r.ownTeam.key)), withoutTeam r w) :=
        World.onRecords_error (Store.get_of_none hg)
      rw [Step.bind_ok (Step.attempt_of hget), if_neg (by simp)]
      exact dropFinalizer_eq (holds_withoutTeam hr)
    | some t =>
      have hget : World.get r.ownTeam.key (withoutTeam r w) = (.ok t, withoutTeam r w) :=
        World.onRecords_ok (Store.get_of_some hg)
      rw [Step.bind_ok (Step.attempt_of hget), if_pos (Option.isSome_some)]
      rfl
  · rfl

end

/-- A record is a Director, a team or a role, or it stands for an artifact. -/
@[elab_as_elim]
theorem kindCases {motive : ∀ k : Kind, Record k → Prop}
    (director : ∀ r, motive .director r) (team : ∀ r, motive .team r) (role : ∀ r, motive .role r)
    (artifact : ∀ (a : ArtifactKind) (r : Record a.kind), motive a.kind r) (k : Kind)
    (r : Record k) : motive k r := by
  cases k with
  | director => exact director r
  | team => exact team r
  | role => exact role r
  | az => exact artifact .az r
  | network => exact artifact .network r
  | baseImage => exact artifact .baseImage r
  | release => exact artifact .release r
  | vmExtension => exact artifact .vmExtension r
  | compilation => exact artifact .compilation r
  | deployment => exact artifact .deployment r

/-- The record is of a kind that is only allowed in the system namespace, and is not there. -/
def Misplaced (sys : String) {k : Kind} (r : Record k) : Prop :=
  (k = .director ∨ k = .compilation) ∧ r.metadata.ns ≠ sys

variable {τ : Type} [SecretStore τ] {w : World Store τ}

theorem record_of_misplaced {sys : String} {k : Kind} {r : Record k} (h : Misplaced sys r)
    (w : World Store τ) : record sys ⟨k, r⟩ w =
      (.error (.configuration (.misplaced k sys r.metadata.ns)), w) := by
  obtain ⟨rfl | rfl, hns⟩ := h
  · have hreq : requireSystem (σ := Store) (τ := τ) sys r w =
        (.error (.configuration (.misplaced .director sys r.metadata.ns)), w) := by
      rw [requireSystem, if_neg hns]
      rfl
    exact Step.bind_error hreq _
  · have hreq : requireSystem (σ := Store) (τ := τ) sys r w =
        (.error (.configuration (.misplaced .compilation sys r.metadata.ns)), w) := by
      rw [requireSystem, if_neg hns]
      rfl
    exact Step.bind_error hreq _

theorem record_director {sys : String} {r : Record .director} (h : ¬Misplaced sys r) :
    record sys ⟨.director, r⟩ w = director r w := by
  have hns : r.metadata.ns = sys := by simpa [Misplaced] using h
  have hreq : requireSystem (σ := Store) (τ := τ) sys r w = (.ok (), w) := by
    rw [requireSystem, if_pos hns]
    rfl
  exact Step.bind_ok hreq _

/-- A record with an object on a Director first has its force flag consumed. -/
theorem record_artifact {sys : String} {a : ArtifactKind} {r : Record a.kind}
    (h : ¬Misplaced sys r) (hr : w.records.Holds r)
    (hm : r.beingDeleted = true → r.metadata.finalizers ≠ []) :
    record sys ⟨a.kind, r⟩ w = artifact sys a r.consumed (w.keep r.consumed) := by
  cases a with
  | compilation =>
    have hns : r.metadata.ns = sys := by simpa [Misplaced] using h
    have hreq : requireSystem (σ := Store) (τ := τ) sys r w = (.ok (), w) := by
      rw [requireSystem, if_pos hns]
      rfl
    rw [World.keep_of_holds (r := r.consumed) hr]
    exact Step.bind_ok hreq _
  | deployment => exact Step.bind_ok (consumeForce_eq hr hm) _
  | az | network | baseImage | release | vmExtension =>
    rw [World.keep_of_holds (r := r.consumed) hr]
    rfl

end Reconcile

section

variable {τ : Type} [SecretStore τ] {w : World Store τ}

theorem reconcile_of_none {sys : String} {key : Key} (h : w.records.get? key = none) :
    reconcile sys key w = (.ok (), w) := by
  have hget : World.get key w = (.error (.store (.notFound key)), w) :=
    World.onRecords_error (Store.get_of_none h)
  rw [reconcile, Step.bind_ok (Step.attempt_of hget)]
  rfl

theorem reconcile_of_some {sys : String} {key : Key} {r : AnyRecord}
    (h : w.records.get? key = some r) : reconcile sys key w = Reconcile.record sys r w := by
  have hget : World.get key w = (.ok r, w) := World.onRecords_ok (Store.get_of_some h)
  rw [reconcile, Step.bind_ok (Step.attempt_of hget)]

theorem reconcile_of_misplaced {sys : String} {k : Kind} {r : Record k}
    (hr : w.records.Holds r) (h : Reconcile.Misplaced sys r) : reconcile sys r.key w =
      (.error (.configuration (.misplaced k sys r.metadata.ns)), w) := by
  rw [reconcile_of_some hr, Reconcile.record_of_misplaced h]

theorem reconcile_of_director {sys : String} {r : Record .director} (hr : w.records.Holds r)
    (h : ¬Reconcile.Misplaced sys r) : reconcile sys r.key w = Reconcile.director r w := by
  rw [reconcile_of_some hr, Reconcile.record_director h]

theorem reconcile_of_team {sys : String} {r : Record .team} (hr : w.records.Holds r) :
    reconcile sys r.key w = Reconcile.team sys r w :=
  reconcile_of_some hr

theorem reconcile_of_artifact {sys : String} {a : ArtifactKind} {r : Record a.kind}
    (hw : w.records.WellFormed) (hr : w.records.Holds r) (h : ¬Reconcile.Misplaced sys r) :
    reconcile sys r.key w = Reconcile.artifact sys a r.consumed (w.keep r.consumed) := by
  rw [reconcile_of_some hr, Reconcile.record_artifact h hr (hw.marked hr)]

theorem reconcile_of_live_artifact {sys : String} {a : ArtifactKind} {r : Record a.kind}
    (hw : w.records.WellFormed) (hr : w.records.Holds r) (h : ¬Reconcile.Misplaced sys r)
    (hl : r.beingDeleted = false) : reconcile sys r.key w =
      Reconcile.establishArtifact sys a r.consumed (w.keep r.consumed) := by
  rw [reconcile_of_artifact hw hr h, Reconcile.artifact, r.beingDeleted_consumed, hl]
  rfl

theorem reconcile_of_deleted_artifact {sys : String} {a : ArtifactKind} {r : Record a.kind}
    (hw : w.records.WellFormed) (hr : w.records.Holds r) (h : ¬Reconcile.Misplaced sys r)
    (hd : r.beingDeleted = true) : reconcile sys r.key w =
      Reconcile.removeArtifact sys a r.consumed (w.keep r.consumed) := by
  rw [reconcile_of_artifact hw hr h, Reconcile.artifact, r.beingDeleted_consumed, if_pos hd]

theorem reconcile_of_role {sys : String} {r : Record .role} (hr : w.records.Holds r) :
    reconcile sys r.key w = (.ok (), w) := by
  rw [reconcile_of_some hr, Reconcile.record]
  rfl

end

namespace Small

def director : Record .director :=
  Record.new "sys" "d"
    ({ url := "u", caCert := "p", uaaUrl := "v", uaaCaCert := "q", uaaClient := "admin",
       uaaClientSecret := "s" } : DirectorSpec)

def newTeam : Record .team := Record.new "team-a" "t" (⟨"d"⟩ : TeamSpec)

/-- The team after its own reconcile. -/
def team : Record .team :=
  { newTeam with status := (⟨⟨"", some ⟨"d"⟩, true⟩, "sys"⟩ : TeamStatus) }

def az : Record .az := Record.new "team-a" "z" ({} : AzSpec)

/-- A Director, a team bound to it, and an AZ of the team that was never reconciled; the system
namespace is `sys`. -/
def world : World Store Secrets where
  records := (Store.create az (Store.create team (Store.create director ∅).2).2).2
  secrets := ((∅ : Secrets).insert ⟨"sys", "s"⟩ "x").insert ⟨"sys", "team.team-a.t"⟩ "y"
  now := ⟨0, 0⟩

theorem wellFormed_world : world.records.WellFormed :=
  ((Store.wellFormed_empty.create director).create team).create az

end Small

end Reconciliation
