import Reconciliation.Proofs.Confinement
import Reconciliation.Proofs.Orphans

namespace Reconciliation

open World (outcome)

namespace TeamStatus

variable {sys : String} {spec : TeamSpec} {s : TeamStatus}

theorem secretNamespace_prepared_empty (spec : TeamSpec) (s : TeamStatus) :
    (s.prepared "" spec).secretNamespace = s.secretNamespace := by
  by_cases h : s.secretNamespace = "" <;> simp [prepared, h]

theorem placed_of_needsPreparing (h : s.needsPreparing sys spec = false)
    (hn : s.secretNamespace = "") : sys = "" := by
  simp only [needsPreparing, hn, Bool.or_eq_false_iff] at h
  simpa using h.2

end TeamStatus

namespace Record

variable {k : Kind} {sys : String} {r q p : Record k}

/-- The namespace of the secret will stay what it is. -/
def Placed (sys : String) (r : Record k) : Prop :=
  Status.secretNamespace k r.status = "" → sys = ""

/-- The same record later on: it still holds its finalizer, and its secret has not moved. -/
structure Endures (sys : String) (r q : Record k) : Prop where
  key : q.key = r.key
  finalizer : r.hasFinalizer = true → q.hasFinalizer = true
  secret : r.Placed sys →
    Status.secretNamespace k q.status = Status.secretNamespace k r.status

theorem Endures.refl (r : Record k) : r.Endures sys r := ⟨rfl, id, fun _ => rfl⟩

theorem Endures.placed (h : r.Endures sys q) (hr : r.Placed sys) : q.Placed sys := by
  rw [Placed, h.secret hr]
  exact hr

theorem Endures.trans (h : r.Endures sys q) (h' : q.Endures sys p) : r.Endures sys p where
  key := h'.key.trans h.key
  finalizer hf := h'.finalizer (h.finalizer hf)
  secret hr := (h'.secret (h.placed hr)).trans (h.secret hr)

theorem Endures.of_status (hk : q.key = r.key)
    (hf : r.hasFinalizer = true → q.hasFinalizer = true) (hs : q.status = r.status) :
    r.Endures sys q :=
  ⟨hk, hf, fun _ => by rw [hs]⟩

theorem endures_frozenBy (sys : String) (r : Record k) : r.Endures sys (r.frozenBy sys) where
  key := key_frozenBy sys r
  finalizer hf := by rwa [hasFinalizer_frozenBy]
  secret hr := by
    unfold frozenBy
    split
    · by_cases hn : Status.secretNamespace k r.status = ""
      · obtain rfl := hr hn
        cases k with
        | team => exact TeamStatus.secretNamespace_prepared_empty r.spec r.status
        | _ => rfl
      · exact Status.secretNamespace_prepared hn
    · rfl

theorem endures_readied (sys : String) (r : Record k) : r.Endures sys (r.readied sys) :=
  (endures_frozenBy sys r).trans
    (.of_status (key_guarded _) (fun _ => hasFinalizer_guarded _) (status_guarded _))

theorem endures_settled (sys : String) (r : Record k) : r.Endures sys r.settled where
  key := key_settled r
  finalizer hf := by rwa [hasFinalizer_settled]
  secret _ := by
    unfold settled
    split
    · rfl
    · exact Status.secretNamespace_published r.status

theorem placed_readied (sys : String) (r : Record .team) : (r.readied sys).Placed sys :=
  TeamStatus.placed_of_needsPreparing (needsPreparing_readied sys r)

end Record

namespace Store

variable {k : Kind} {sys : String} {s t u : Store}

/-- Teams with their finalizer stay stored, with it and with the namespace of their secret. -/
def Retains (sys : String) (s t : Store) : Prop :=
  ∀ r : Record .team, s.Holds r → r.hasFinalizer = true → ∃ q, t.Holds q ∧ r.Endures sys q

namespace Retains

theorem of_get? (h : ∀ key, key.kind = .team → t.get? key = s.get? key) : s.Retains sys t :=
  fun r hr _ => ⟨r, (h r.key rfl).trans hr, .refl r⟩

theorem trans (h : s.Retains sys t) (h' : t.Retains sys u) : s.Retains sys u := by
  intro r hr hf
  obtain ⟨q, hq, hrq⟩ := h r hr hf
  obtain ⟨p, hp, hqp⟩ := h' q hq (hrq.finalizer hf)
  exact ⟨p, hp, hrq.trans hqp⟩

/-- A write under the key of one record. -/
theorem of_write {r q : Record k} (hr : s.Holds r) (hq : r.Endures sys q)
    (hself : q.hasFinalizer = true → t.Holds q)
    (hother : ∀ key, key ≠ q.key → t.get? key = s.get? key) : s.Retains sys t := by
  intro p hp hf
  by_cases hk : p.key = r.key
  · cases hr.unique hp hk
    exact ⟨q, hself (hq.finalizer hf), hq⟩
  · exact ⟨p, (hother p.key (hq.key.symm ▸ hk)).trans hp, .refl p⟩

theorem keep {r q : Record k} (hr : s.Holds r) (hq : r.Endures sys q) :
    s.Retains sys (s.keep q) :=
  of_write hr hq (fun _ => s.holds_keep q) fun key hk => by rw [get?_keep, if_neg hk]

theorem accept {r q : Record k} (hr : s.Holds r) (hq : r.Endures sys q) :
    s.Retains sys (s.accept q) := by
  refine of_write hr hq (fun hf => ?_) fun key hk => get?_accept_of_ne s hk
  rw [accept_eq_keep s fun _ => Record.finalizers_ne_nil hf]
  exact s.holds_keep q

theorem create (r : AnyRecord) (s : Store) : s.Retains sys (Store.create r s).2 := by
  intro p hp _
  exact ⟨p, get?_create_of_some hp r, .refl p⟩

theorem delete (hs : s.WellFormed) (now : Instant) (key : Key) :
    s.Retains sys (Store.delete now key s).2 := by
  rcases delete_eq hs now key with h | ⟨k, r, hr, h⟩
  · rw [h]
    exact of_get? fun _ _ => rfl
  · rw [h]
    exact accept hr (.of_status rfl id rfl)

/-- An update that does not take a team's finalizer away. -/
theorem update (hs : s.WellFormed) {r : AnyRecord} (h : r.kind = .team →
      ∀ q, s.get? r.key = some q → q.hasFinalizer = true → r.hasFinalizer = true) :
    s.Retains sys (Store.update r s).2 := by
  rcases update_eq hs r with hu | ⟨k, p, incoming, hp, rfl, hk, hu⟩
  · rw [hu]
    exact of_get? fun _ _ => rfl
  · rw [hu]
    have hp : s.get? p.key = some ⟨k, p⟩ := hp
    by_cases hkind : k = .team
    · exact accept hp (.of_status hk (h hkind ⟨k, p⟩ (by rw [← hp, ← hk]; rfl)) rfl)
    · refine of_get? fun key hkey => get?_accept_of_ne s ?_
      rintro rfl
      exact hkind hkey

end Retains

end Store

namespace World

variable {sys id : String} {client : IdentityClient} {w v : World Store Secrets}

/-- A stored team stands behind a client: it holds its finalizer, and its secret is the client's. -/
structure Backs (sys : String) (w : World Store Secrets) (id : String) (client : IdentityClient)
    (r : Record .team) : Prop where
  holds : w.records.Holds r
  name : r.internalName = id
  finalizer : r.hasFinalizer = true
  placed : r.Placed sys
  secret : w.secrets.get? ⟨r.secretNamespace, id⟩ = some client.secret

/-- A team stands behind every client. -/
def Agrees (sys : String) (w : World Store Secrets) : Prop :=
  ∀ id client, w.identity.clients.get? id = some client → ∃ r, w.Backs sys id client r

/-- The teams stay, with their secrets, and no client is new. -/
theorem Agrees.of_retains (h : w.Agrees sys) (hr : w.records.Retains sys v.records)
    (hc : v.identity.clients = w.identity.clients)
    (hs : ∀ r : Record .team, w.records.Holds r → ∀ ns value,
      w.secrets.get? ⟨ns, r.internalName⟩ = some value →
        v.secrets.get? ⟨ns, r.internalName⟩ = some value) : v.Agrees sys := by
  intro id client hclient
  rw [hc] at hclient
  obtain ⟨r, hb⟩ := h id client hclient
  obtain ⟨q, hq, hrq⟩ := hr r hb.holds hb.finalizer
  have hname : q.internalName = id := (Record.internalName_eq hrq.key).trans hb.name
  have hsecret := hs r hb.holds r.secretNamespace client.secret (hb.name ▸ hb.secret)
  have hns : q.secretNamespace = r.secretNamespace := hrq.secret hb.placed
  refine ⟨q, hq, hname, hrq.finalizer hb.finalizer, hrq.placed hb.placed, ?_⟩
  rw [hns, ← hb.name, hsecret]

theorem agrees_unlogged : w.unlogged.Agrees sys ↔ w.Agrees sys :=
  ⟨fun h => h.of_retains (.of_get? fun _ _ => rfl) rfl fun _ _ _ _ hv => hv,
    fun h => h.of_retains (.of_get? fun _ _ => rfl) rfl fun _ _ _ _ hv => hv⟩

/-- A client is registered with the secret that is stored. -/
theorem Agrees.register {r : Record .team} {secret : String} {i : Identity} (h : w.Agrees sys)
    (hr : w.records.Holds r) (hf : r.hasFinalizer = true) (hp : r.Placed sys)
    (hs : w.secrets.get? ⟨r.secretNamespace, r.internalName⟩ = some secret)
    (hi : w.identity.registered r.internalName secret = .ok i) : (w.withIdentity i).Agrees sys := by
  obtain rfl := Identity.registered_ok hi
  intro id client hclient
  have hclient : (w.identity.withTeamClient r.internalName secret).clients.get? id = some client :=
    hclient
  have hold : w.identity.clients.get? id = some client →
      ∃ q, w.Backs sys id client q := h id client
  unfold Identity.withTeamClient at hclient
  split at hclient
  · obtain ⟨q, hq⟩ := hold hclient
    exact ⟨q, hq.holds, hq.name, hq.finalizer, hq.placed, hq.secret⟩
  · rw [Table.get?_insert] at hclient
    split at hclient
    · next hid =>
      cases hclient
      exact ⟨r, hr, hid.symm, hf, hp, hid.symm ▸ hs⟩
    · obtain ⟨q, hq⟩ := hold hclient
      exact ⟨q, hq.holds, hq.name, hq.finalizer, hq.placed, hq.secret⟩

/-- A client goes away before its secret and its team do. -/
theorem Agrees.dismiss {r : Record .team} {i : Identity} (h : w.Agrees sys)
    (hi : w.identity.dismissed r.internalName = .ok i) : ({ w.withIdentity i with
      secrets := w.secrets.erase ⟨r.secretNamespace, r.internalName⟩ }.accept
        r.released).Agrees sys := by
  obtain rfl := Identity.dismissed_ok hi
  intro id client hclient
  have hclient : (w.identity.clients.erase r.internalName).get? id = some client := hclient
  rw [Table.get?_erase] at hclient
  split at hclient
  · cases hclient
  · next hid =>
    obtain ⟨q, hq⟩ := h id client hclient
    have hkey : q.key ≠ r.released.key := fun hk =>
      hid (hq.name.symm.trans (Record.internalName_eq hk))
    refine ⟨q, (Store.get?_accept_of_ne w.records hkey).trans hq.holds, hq.name, hq.finalizer,
      hq.placed, ?_⟩
    have hsecret := hq.secret
    rw [← hsecret]
    refine (Table.get?_erase _ _ _).trans (if_neg fun he => hid (congrArg SecretName.name he))

end World

namespace Effect

variable {w u : World Store Secrets} {key : Key}

/-- Only a team's own reconcile touches clients. -/
theorem clients_eq (h : Effect w key u) (hk : key.kind ≠ .team) :
    u.identity.clients = w.identity.clients := by
  cases h with
  | registered | dismissed => exact absurd rfl hk
  | unchanged | advanced | established | removed | adopted | disowned | abandoned => rfl

/-- Only a team's own reconcile takes its finalizer away. -/
theorem retains (hw : w.records.WellFormed) (sys : String) (h : Effect w key u)
    (hk : key.kind ≠ .team) : w.records.Retains sys u.records := by
  have hkeep : ∀ {k : Kind} {r q : Record k} {s : Store}, r.key.kind ≠ .team → q.key = r.key →
      s.Retains sys (s.keep q) := by
    intro k r q s hk hq
    refine .of_get? fun key hkey => ?_
    rw [Store.get?_keep, if_neg]
    rintro rfl
    exact hk (hq ▸ hkey)
  have haccept : ∀ {k : Kind} {r q : Record k} {s : Store}, r.key.kind ≠ .team → q.key = r.key →
      s.Retains sys (s.accept q) := by
    intro k r q s hk hq
    refine .of_get? fun key hkey => Store.get?_accept_of_ne s ?_
    rintro rfl
    exact hk (hq ▸ hkey)
  cases h with
  | registered | dismissed => exact absurd rfl hk
  | unchanged => exact .of_get? fun _ _ => rfl
  | advanced s hr hq => exact hkeep hk hq.key
  | established hr hq => exact hkeep hk hq.key
  | @removed a r q d hr hq => exact haccept (q := q.released) hk hq.key
  | adopted hr => exact (hkeep hk (Record.key_guarded _)).trans (.create _ _)
  | disowned hr => exact .delete hw _ _
  | abandoned hr => exact .trans (.delete hw _ _) (haccept hk (Record.key_released _))

end Effect

namespace Reconcile

variable {w u : World Store Secrets} {sys : String} {x : Except ReconcileError Unit}
  {r : Record .team}

theorem establishTeam_agrees (hw : w.Agrees sys) (hr : w.records.Holds r)
    (h : outcome (establishTeam sys r) w = (x, u)) : u.Agrees sys := by
  cases teamEstablished hr h with
  | refused =>
    exact hw.of_retains (.keep hr (r.endures_frozenBy sys)) rfl fun _ _ _ _ hv => hv
  | @stopped e y s hask hs =>
    exact hw.of_retains (.keep hr (r.endures_readied sys)) rfl fun _ _ _ _ hv =>
      SecretStore.get?_of_getOrGenerate hs hv
  | @done secret s i hask hs hi =>
    let q := (r.readied sys).settled
    have hq := Record.endures_settled sys (r.readied sys)
    have hkept : ((w.supplied s).keep q).Agrees sys :=
      hw.of_retains (.keep hr ((r.endures_readied sys).trans hq)) rfl fun _ _ _ _ hv =>
        SecretStore.get?_of_getOrGenerate hs hv
    have hplaced := r.placed_readied sys
    have hname : q.internalName = (r.readied sys).internalName := Record.internalName_eq hq.key
    have hns : q.secretNamespace = (r.readied sys).secretNamespace := hq.secret hplaced
    have hsecret : s.1.get? ⟨q.secretNamespace, q.internalName⟩ = some secret := by
      rw [hns, hname]
      exact SecretStore.get?_of_getOrGenerate_ok hs
    exact World.agrees_unlogged.2 (hkept.register (World.holds_keep _ q)
      (hq.finalizer (Record.hasFinalizer_guarded _)) (hq.placed hplaced) hsecret (hname.symm ▸ hi))

theorem removeTeam_agrees (hw : w.Agrees sys) (hr : w.records.Holds r)
    (h : outcome (removeTeam sys r) w = (x, u)) : u.Agrees sys := by
  cases teamRemoved hr h with
  | unchanged => exact World.agrees_unlogged.2 hw
  | done hf hi => exact World.agrees_unlogged.2 (hw.dismiss hi)

end Reconcile

variable {w : World Store Secrets} {sys : String}

/-- Whatever its outcome, a reconcile leaves a team behind every client. -/
theorem reconcile_agrees (hwf : w.records.WellFormed) (hw : w.Agrees sys) (key : Key) :
    (reconcile sys key w).2.Agrees sys := by
  by_cases hk : key.kind = .team
  · cases hg : w.records.get? key with
    | none =>
      rw [reconcile_of_none hg]
      exact hw
    | some q =>
      obtain ⟨k, r⟩ := q
      obtain rfl : r.key = key := hwf.key_eq hg
      obtain rfl : k = .team := hk
      rw [← World.agrees_unlogged, reconcile_of_team hg, Reconcile.team]
      split
      · exact Reconcile.removeTeam_agrees hw hg rfl
      · exact Reconcile.establishTeam_agrees hw hg rfl
  · have he := reconcile_effect hwf sys key
    refine hw.of_retains (he.retains hwf sys hk) (he.clients_eq hk) fun r _ ns value hv => ?_
    -- names of different kinds differ, also where a namespace is no DNS label
    have hname : r.internalName ≠ key.internalName :=
      Key.internalName_ne_of_kind fun hkind => hk hkind.symm
    have hsecret := congrFun (congrArg Named.secret (reconcile_named hwf sys hname)) ns
    exact hsecret.trans hv

/-- Teams are stored in namespaces that are DNS labels. -/
def Store.TeamsLabelled (s : Store) : Prop :=
  ∀ r : Record .team, s.Holds r → isDnsLabel r.metadata.ns = true

/-- Owners do what they like, except that they do not take the finalizer of a team away. -/
def Event.SparesTeams (w : World Store Secrets) : Event → Prop
  | .move (.update r) => r.kind = .team →
    ∀ q, w.records.get? r.key = some q → q.hasFinalizer = true → r.hasFinalizer = true
  | .move _ | .sweep => True

/-- Others do what they like outside of the record store, except that they leave alone the clients
and the secrets that are named after stored teams. -/
structure World.SparesTeams (w v : World Store Secrets) : Prop where
  records : v.records = w.records
  clients : v.identity.clients = w.identity.clients
  secrets : ∀ r : Record .team, w.records.Holds r → ∀ ns,
    v.secrets.get? ⟨ns, r.internalName⟩ = w.secrets.get? ⟨ns, r.internalName⟩

/-- The worlds that a run can reach from one without clients. -/
inductive Attained (sys : String) : World Store Secrets → Prop
  | start {w : World Store Secrets} (hw : w.records.WellFormed) (hl : w.records.TeamsLabelled)
    (hc : w.identity.clients = ∅) : Attained sys w
  | event {w : World Store Secrets} (h : Attained sys w) (e : Event) (he : e.SparesTeams w)
    (hl : (e.act sys w).records.TeamsLabelled) : Attained sys (e.act sys w)
  | others {w v : World Store Secrets} (h : Attained sys w) (hv : w.SparesTeams v) :
    Attained sys v

theorem act_agrees {m : Move} (hwf : w.records.WellFormed) (hw : w.Agrees sys)
    (hm : (Event.move m).SparesTeams w) : (m.act sys w).Agrees sys := by
  have hsame : w.records.Retains sys w.records := .of_get? fun _ _ => rfl
  cases m with
  | create r => exact hw.of_retains (.create r _) rfl fun _ _ _ _ hv => hv
  | update r => exact hw.of_retains (.update hwf hm) rfl fun _ _ _ _ hv => hv
  | delete key => exact hw.of_retains (.delete hwf _ _) rfl fun _ _ _ _ hv => hv
  | reconcile key => exact reconcile_agrees hwf hw key
  | directorFails | identityFails | clock => exact hw.of_retains hsame rfl fun _ _ _ _ hv => hv

theorem event_agrees {e : Event} (hwf : w.records.WellFormed) (hw : w.Agrees sys)
    (he : e.SparesTeams w) : (e.act sys w).records.WellFormed ∧ (e.act sys w).Agrees sys := by
  cases e with
  | move m => exact ⟨act_wellFormed sys m hwf, act_agrees hwf hw he⟩
  | sweep =>
    rw [act_eq_after]
    refine after_invariant (I := fun v => v.records.WellFormed ∧ v.Agrees sys)
      (fun m hm v hv => ?_) ⟨hwf, hw⟩
    obtain ⟨key, -, rfl⟩ := List.mem_map.1 hm
    exact ⟨act_wellFormed sys _ hv.1, reconcile_agrees hv.1 hv.2 key⟩

theorem Attained.agrees (h : Attained sys w) :
    w.records.WellFormed ∧ w.records.TeamsLabelled ∧ w.Agrees sys := by
  induction h with
  | start hw hl hc =>
    refine ⟨hw, hl, fun id client hclient => ?_⟩
    rw [hc, Table.get?_empty] at hclient
    cases hclient
  | event h e he hl ih =>
    obtain ⟨hwf, -, hw⟩ := ih
    obtain ⟨hwf', hw'⟩ := event_agrees hwf hw he
    exact ⟨hwf', hl, hw'⟩
  | others h hv ih =>
    obtain ⟨hwf, hl, hw⟩ := ih
    have hkept := hw.of_retains (.of_get? fun _ _ => by rw [hv.records]) hv.clients
      fun r hr ns value hsecret => (hv.secrets r hr ns).trans hsecret
    rw [hv.records]
    exact ⟨hwf, hl, hkept⟩

/-- In every world that is attained, each client is that of a stored team, and the secret it was
registered with is stored under its name, in the namespace that the status of the team names. -/
theorem registered_secrets_stored (h : Attained sys w) :
    (∀ id client, w.identity.clients.get? id = some client → ∃ r : Record .team,
      w.records.Holds r ∧ r.internalName = id ∧
        w.secrets.get? ⟨r.secretNamespace, id⟩ = some client.secret) ∧
    ∀ ns name client, isDnsLabel ns = true →
      w.identity.clients.get? (Kind.team.internalName ns name) = some client →
        ∃ r : Record .team, w.records.Holds r ∧ r.key = ⟨.team, ns, name⟩ ∧
          w.secrets.get? ⟨r.secretNamespace, Kind.team.internalName ns name⟩ =
            some client.secret := by
  obtain ⟨-, hl, hw⟩ := h.agrees
  refine ⟨fun id client hclient => ?_, fun ns name client hns hclient => ?_⟩
  · obtain ⟨r, hb⟩ := hw id client hclient
    exact ⟨r, hb.holds, hb.name, hb.secret⟩
  · obtain ⟨r, hb⟩ := hw _ client hclient
    have hkey : r.key = ⟨.team, ns, name⟩ :=
      Key.internalName_injective (hl r hb.holds) hns hb.name
    exact ⟨r, hb.holds, hkey, hb.secret⟩

theorem Store.teamsLabelled_of_all {s : Store} (h : (s.records.toList.all fun e : Key × AnyRecord =>
    e.1.kind != .team || isDnsLabel e.1.ns) = true) : s.TeamsLabelled := by
  intro r hr
  have hr := List.all_eq_true.1 h _ (Table.get?_eq_some_iff.1 hr)
  simpa [Record.key] using hr

namespace Small

/-- The world after the team of a Director was created and reconciled. -/
def enrolled : World Store Secrets :=
  run "sys"
    [.move (.create director), .move (.create newTeam), .move (.reconcile newTeam.key)] blank

theorem attained_enrolled : Attained "sys" enrolled := by
  have h0 : Attained "sys" blank :=
    .start Store.wellFormed_empty (Store.teamsLabelled_of_all (by rfl)) rfl
  have h1 := h0.event (.move (.create director)) trivial (Store.teamsLabelled_of_all (by rfl))
  have h2 := h1.event (.move (.create newTeam)) trivial (Store.teamsLabelled_of_all (by rfl))
  exact h2.event (.move (.reconcile newTeam.key)) trivial (Store.teamsLabelled_of_all (by rfl))

end Small

theorem registered_secrets_stored_small : ∃ r : Record .team,
    Small.enrolled.records.Holds r ∧ r.key = ⟨.team, "team-a", "t"⟩ ∧
      Small.enrolled.secrets.get? ⟨r.secretNamespace, "team.team-a.t"⟩ =
        some "00000000000000000000" := by
  have hclient : Small.enrolled.identity.clients.get? (Kind.team.internalName "team-a" "t") =
      some ⟨"00000000000000000000", Identity.teamAuthorities⟩ := by rfl
  have hlabel : isDnsLabel "team-a" = true := by decide
  exact (registered_secrets_stored Small.attained_enrolled).2 "team-a" "t" _ hlabel hclient

end Reconciliation
