import Reconciliation.Proofs.Noninterference

/-! A reconcile of a record outside the system namespace reads the records of its own namespace and
the Directors of the system namespace. Two worlds that have these in common, with the same secrets
and remote services, are reconciled in lockstep: nothing in the namespace of another tenant decides
what is deployed or with whose credentials. Nor is anything written there. -/
namespace Reconciliation

open Step (Related Agree)

namespace Store

/-- A namespace with the same records of a kind in both stores lists the same. -/
theorem list_congr {s t : Store} {k : Kind} {ns : String}
    (h : ∀ name, t.get? ⟨k, ns, name⟩ = s.get? ⟨k, ns, name⟩) :
    t.list k (some ns) = s.list k (some ns) := by
  refine congrArg (List.map Prod.snd) (Entries.eq_of_mem_iff (t.records.ascending.filter _)
    (s.records.ascending.filter _) fun ⟨⟨k', ns', name⟩, r⟩ => ?_)
  simp only [List.mem_filter, Bool.and_eq_true, Option.all_some, beq_iff_eq]
  refine and_congr_left fun ⟨hk, hns⟩ => ?_
  subst hk hns
  have hmem : ∀ u : Store, (⟨k', ns, name⟩, r) ∈ u.records.toList ↔
      u.get? ⟨k', ns, name⟩ = some r := fun _ => Table.get?_eq_some_iff.symm
  rw [hmem t, hmem s, h name]

/-- Stores that `R` relates have the records under the keys in `N` in common, and `R` relates them
again after the same write of such a record. -/
structure Agreement (N : Key → Prop) (R : Store → Store → Prop) : Prop where
  wellFormed : ∀ {s t}, R s t → s.WellFormed
  get? : ∀ {s t key}, R s t → N key → t.get? key = s.get? key
  keep : ∀ {s t k} {r : Record k}, R s t → N r.key →
    (r.beingDeleted = true → r.metadata.finalizers ≠ []) → R (s.keep r) (t.keep r)
  accept : ∀ {s t k} {r : Record k}, R s t → N r.key → R (s.accept r) (t.accept r)

namespace Agreement

variable {N M : Key → Prop} {R : Store → Store → Prop} (hR : Agreement N R) {k : Kind}

include hR

theorem get {key : Key} (hkey : N key) :
    Related R (fun r r' => r = r' ∧ r.key = key)
      (RecordStore.get key : Step Store StoreError _) (RecordStore.get key) := by
  intro s t h
  have hget := hR.get? h hkey
  cases hr : s.get? key with
  | none =>
    rw [get_of_none hr, get_of_none (hget.trans hr)]
    exact ⟨rfl, h⟩
  | some r =>
    rw [get_of_some hr, get_of_some (hget.trans hr)]
    exact ⟨⟨rfl, (hR.wellFormed h).key_eq hr⟩, h⟩

theorem fetch {ns name : String} (hkey : N ⟨k, ns, name⟩) :
    Related R Eq
      (RecordStore.fetch k ns name : Step Store StoreError _) (RecordStore.fetch k ns name) := by
  refine (hR.get hkey).bind ?_
  rintro r _ ⟨rfl, -⟩
  exact .ofExcept _

theorem fetchAll {ns : String} (hkey : ∀ name, N ⟨k, ns, name⟩) :
    Related R Eq
      (RecordStore.fetchAll k ns : Step Store StoreError _) (RecordStore.fetchAll k ns) := by
  refine Related.bind (V := Eq) ?_ ?_
  · intro s t h
    exact ⟨(list_congr fun name => hR.get? h (hkey name)).symm, h⟩
  · rintro l _ rfl
    exact .ofExcept _

/-- A write is answered by the record under its key, which both stores have in common. -/
theorem holds {s t : Store} (h : R s t) {r : Record k} {stored : AnyRecord} (hr : N r.key)
    (hget : s.get? r.key = some stored) :
    ∃ p : Record k, s.Holds p ∧ t.Holds p ∧ r.key = p.key := by
  obtain ⟨_, p, _, -, hp, hincoming, hkey⟩ := (hR.wellFormed h).exists_target (r := ⟨k, r⟩) hget
  cases hincoming
  have hp' : t.Holds p := (hR.get? h (hkey ▸ hr)).trans hp
  exact ⟨p, hp, hp', hkey⟩

/-- Both writes check the version and then put what they make of the stored record in its place. -/
theorem answered {x : Step Store StoreError AnyRecord} {r : Record k} (next : Record k → Record k)
    (place : Store → Record k → Store) (hr : N r.key) (hm : M r.key)
    (hnone : ∀ {s : Store}, s.get? r.key = none → x s = (.error (.notFound r.key), s))
    (hstored : ∀ {s : Store} {p : Record k}, s.Holds p → r.key = p.key → x s =
      if r.metadata.version = p.metadata.version then (.ok ⟨k, next p⟩, place s (next p))
      else (.error (.conflict p.key r.metadata.version p.metadata.version), s))
    (hkey : ∀ {p}, r.key = p.key → (next p).key = r.key)
    (hplace : ∀ {s t : Store} {p}, R s t → s.Holds p → N (next p).key →
      R (place s (next p)) (place t (next p))) :
    Related R (Record.Common M)
      (x >>= fun q => Step.ofExcept (RecordStore.typed r.key k q))
      (x >>= fun q => Step.ofExcept (RecordStore.typed r.key k q)) := by
  intro s t h
  cases hget : s.get? r.key with
  | none =>
    have hget' : t.get? r.key = none := (hR.get? h hr).trans hget
    rw [Step.bind_error (hnone hget), Step.bind_error (hnone hget')]
    exact ⟨rfl, h⟩
  | some stored =>
    obtain ⟨p, hp, hp', hk⟩ := hR.holds h hr hget
    have hs := hstored hp hk
    have ht := hstored hp' hk
    by_cases hv : r.metadata.version = p.metadata.version
    · rw [if_pos hv] at hs ht
      rw [Step.bind_ok hs, Step.bind_ok ht]
      simp only [RecordStore.typed, AnyRecord.ofKind?_mk, Step.ofExcept_apply]
      exact ⟨⟨rfl, (hkey hk).symm ▸ hm⟩, hplace h hp ((hkey hk).symm ▸ hr)⟩
    · rw [if_neg hv] at hs ht
      rw [Step.bind_error hs, Step.bind_error ht]
      exact ⟨rfl, h⟩

theorem write {r : Record k} (hr : N r.key) (hm : M r.key) :
    Related R (Record.Common M)
      (RecordStore.write r : Step Store StoreError _) (RecordStore.write r) :=
  hR.answered (fun p => p.merged r) Store.accept hr hm
    (update_of_none (r := ⟨k, r⟩)) update_of_stored (fun _ => rfl) fun h _ hn => hR.accept h hn

theorem writeStatus {r : Record k} (hr : N r.key) (hm : M r.key) :
    Related R (Record.Common M)
      (RecordStore.writeStatus r : Step Store StoreError _) (RecordStore.writeStatus r) :=
  hR.answered (fun p => p.restated r) Store.keep hr hm
    (updateStatus_of_none (r := ⟨k, r⟩)) updateStatus_of_stored (fun hk => hk.symm)
    fun h hp hn => hR.keep h hn fun hd => (hR.wellFormed h).marked hp hd

end Agreement

/-- Both stores have the same records in the namespace and in the system namespace. -/
def SharesTenant (sys ns : String) (s t : Store) : Prop :=
  ∀ ⦃key : Key⦄, key.ns = ns ∨ key.ns = sys → t.get? key = s.get? key

namespace SharesTenant

variable {sys ns : String} {s t : Store} {k : Kind} {r : Record k}

theorem keep (h : s.SharesTenant sys ns t) (r : Record k) :
    (s.keep r).SharesTenant sys ns (t.keep r) := by
  intro key hkey
  rw [get?_keep, get?_keep, h hkey]

theorem without (h : s.SharesTenant sys ns t) (key : Key) :
    (s.without key).SharesTenant sys ns (t.without key) := by
  intro key' hkey
  rw [get?_without, get?_without, h hkey]

theorem accept (h : s.SharesTenant sys ns t) (r : Record k) :
    (s.accept r).SharesTenant sys ns (t.accept r) := by
  unfold Store.accept
  split
  · exact h.without _
  · exact h.keep r

end SharesTenant

/-- Well-formed stores that share a tenant. -/
structure Neighbours (sys ns : String) (s t : Store) : Prop where
  wellFormed : s.WellFormed
  wellFormed' : t.WellFormed
  shares : s.SharesTenant sys ns t

namespace Neighbours

variable {sys ns : String} {k : Kind}

theorem keep {s t : Store} (h : s.Neighbours sys ns t) {r : Record k}
    (hr : r.beingDeleted = true → r.metadata.finalizers ≠ []) :
    (s.keep r).Neighbours sys ns (t.keep r) :=
  ⟨h.wellFormed.keep hr, h.wellFormed'.keep hr, h.shares.keep r⟩

theorem accept {s t : Store} (h : s.Neighbours sys ns t) (r : Record k) :
    (s.accept r).Neighbours sys ns (t.accept r) :=
  ⟨h.wellFormed.accept r, h.wellFormed'.accept r, h.shares.accept r⟩

theorem agreement : Agreement (fun key => key.ns = ns ∨ key.ns = sys) (Neighbours sys ns) where
  wellFormed h := h.wellFormed
  get? h hkey := h.shares hkey
  keep h _ hr := h.keep hr
  accept h _ := h.accept _

theorem object {a : ArtifactKind} {r : Record a.kind} (hr : r.key.ns = ns) :
    Related (Neighbours sys ns) Eq (Artifact.object a r : Step Store ReconcileError _)
      (Artifact.object a r) := by
  refine Artifact.object_related_in a (.of_fetch fun k _ name s t h => ?_) (.refl r)
  exact fetch_agree h (h.shares (.inl hr))

end Neighbours

end Store

/-- A namespace has the same team where the teams listed are the same. -/
theorem Credentials.teamFor_related_of {σ τ : Type} [RecordStore σ]
    {Q : World σ τ → World σ τ → Prop} {ns : String}
    (h : Related Q Eq (World.onRecords ReconcileError.store (RecordStore.fetchAll .team ns))
      (World.onRecords ReconcileError.store (RecordStore.fetchAll .team ns))) :
    Related Q Eq (teamFor ns) (teamFor ns) := by
  refine h.bind ?_
  rintro teams _ rfl
  rcases teams with _ | ⟨team, _ | _⟩
  · exact .throw _
  · exact .pure rfl
  · exact .throw _

namespace World

/-- The worlds differ at most in the time and in what is stored outside of a shared tenant. -/
def Neighbours (sys ns : String) (w v : World Store Secrets) : Prop :=
  ∃ t now, v = { w with records := t, now := now } ∧ w.records.Neighbours sys ns t

variable {sys ns : String} {α : Type}

namespace Neighbours

theorem onRecords {ε : Type} {wrap : ε → ReconcileError} {x : Step Store ε α} {V : α → α → Prop}
    (h : Related (Store.Neighbours sys ns) V x x) :
    Related (Neighbours sys ns) V (World.onRecords wrap x) (World.onRecords wrap x) := by
  refine Related.onPart h (fun _ => rfl) ?_ ?_
  · rintro w _ ⟨t, now, rfl, h⟩
    exact h
  · rintro w _ s t' ⟨t, now, rfl, -⟩ h
    exact ⟨t', now, rfl, h⟩

/-- A step on a part of the world other than the records. -/
theorem onPart {π ε : Type} {part : World Store Secrets → π}
    {replace : World Store Secrets → π → World Store Secrets} {wrap : ε → ReconcileError}
    (x : Step π ε α) (hpart : ∀ w t now, part { w with records := t, now := now } = part w)
    (hreplace : ∀ w t now p, replace { w with records := t, now := now } p =
      { replace w p with records := t, now := now })
    (hrecords : ∀ w p, (replace w p).records = w.records) :
    Related (Neighbours sys ns) Eq (Step.onPart part replace wrap x)
      (Step.onPart part replace wrap x) := by
  refine Related.onPart (.of_eq x) (fun _ => rfl) ?_ ?_
  · rintro w _ ⟨t, now, rfl, -⟩
    exact (hpart w t now).symm
  · rintro w _ p _ ⟨t, now, rfl, h⟩ rfl
    exact ⟨t, now, hreplace w t now p, (hrecords w p).symm ▸ h⟩

theorem askClient (log : Clients → Clients) :
    Related (Neighbours sys ns) Eq (World.askClient log) (World.askClient log) := by
  rintro w _ ⟨t, now, rfl, h⟩
  simp only [World.askClient, Step.mk_apply]
  cases w.clients.failure with
  | some reason => exact ⟨rfl, t, now, rfl, h⟩
  | none => exact ⟨rfl, t, now, rfl, h⟩

end Neighbours

/-- The records of a tenant are reconciled in lockstep in worlds that share it. -/
theorem lockstep_neighbours (hns : ns ≠ sys) :
    Lockstep sys (·.ns = ns) (Neighbours sys ns) where
  get {key} hkey := by
    refine Neighbours.onRecords fun s t h => ?_
    refine (Store.Neighbours.agreement.get (.inl hkey) s t h).imp ?_
    rintro r _ ⟨rfl, hr⟩
    exact ⟨rfl, hr ▸ hkey⟩
  write hr := Neighbours.onRecords (Store.Neighbours.agreement.write (.inl hr) hr)
  writeStatus hr := Neighbours.onRecords (Store.Neighbours.agreement.writeStatus (.inl hr) hr)
  director hr hsys := absurd (hr.symm.trans hsys) hns
  teamFor {key} hkey := by
    exact Credentials.teamFor_related_of
      (Neighbours.onRecords (Store.Neighbours.agreement.fetchAll fun _ => .inl hkey))
  directorSpec name := by
    refine Neighbours.onRecords ((Store.Neighbours.agreement.fetch (.inr rfl)).bind ?_)
    rintro r _ rfl
    exact .pure rfl
  object hr := Neighbours.onRecords (Store.Neighbours.object hr)
  onSecrets x := Neighbours.onPart x (fun _ _ _ => rfl) (fun _ _ _ _ => rfl) fun _ _ => rfl
  onSecretSupply x := Neighbours.onPart x (fun _ _ _ => rfl) (fun _ _ _ _ => rfl) fun _ _ => rfl
  ensure _ := Neighbours.onPart _ (fun _ _ _ => rfl) (fun _ _ _ _ => rfl) fun _ _ => rfl
  remove _ := Neighbours.onPart _ (fun _ _ _ => rfl) (fun _ _ _ _ => rfl) fun _ _ => rfl
  ensureTeamClient _ _ := Neighbours.onPart _ (fun _ _ _ => rfl) (fun _ _ _ _ => rfl) fun _ _ => rfl
  removeClient _ := Neighbours.onPart _ (fun _ _ _ => rfl) (fun _ _ _ _ => rfl) fun _ _ => rfl
  askDirector _ := Neighbours.askClient _
  askIdentity _ := Neighbours.askClient _

/-- The same secrets and remote services, and a shared tenant; the logs may differ. -/
structure SharesTenant (sys ns : String) (w v : World Store Secrets) : Prop where
  records : w.records.SharesTenant sys ns v.records
  secrets : v.secrets = w.secrets
  entropy : v.entropy = w.entropy
  director : w.director.Same v.director
  identity : w.identity.Same v.identity
  clients : v.clients.failure = w.clients.failure

end World

/-- Outside of the system namespace a reconcile writes no record but its own. -/
theorem reconcile_get?_of_ne {w : World Store Secrets} (hw : w.records.WellFormed) {sys : String}
    {key key' : Key} (hns : key.ns ≠ sys) (hne : key' ≠ key) :
    (reconcile sys key w).2.records.get? key' = w.records.get? key' := by
  by_cases hkind : key.kind = .director
  · cases hg : w.records.get? key with
    | none => rw [reconcile_of_none hg]
    | some q =>
      obtain ⟨k, r⟩ := q
      obtain rfl : r.key = key := hw.key_eq hg
      rw [reconcile_of_misplaced hg ⟨.inl hkind, hns⟩]
  · exact (reconcile_effect hw sys key).get?_of_ne hkind hne

/-- Two worlds with the same secrets and remote services and the same records in a tenant's
namespace and the system namespace may differ arbitrarily elsewhere: a reconcile of the tenant has
the same outcome in both, with the same calls and the same requests for clients, it leaves the
worlds alike in the same way, and changes no record of another key. -/
theorem tenant_isolation {sys ns : String} (hns : ns ≠ sys) {w v : World Store Secrets}
    (hw : w.records.WellFormed) (hv : v.records.WellFormed) (h : w.SharesTenant sys ns v)
    {key : Key} (hkey : key.ns = ns) :
    (reconcile sys key v).1 = (reconcile sys key w).1 ∧
      World.SameCalls w v (reconcile sys key w).2 (reconcile sys key v).2 ∧
      (reconcile sys key w).2.SharesTenant sys ns (reconcile sys key v).2 ∧
      ∀ key', key' ≠ key →
        (reconcile sys key w).2.records.get? key' = w.records.get? key' ∧
          (reconcile sys key v).2.records.get? key' = v.records.get? key' := by
  -- `u` has the records of `v` and all else of `w`
  let u : World Store Secrets := { w with records := v.records, now := v.now }
  have hwu : World.Neighbours sys ns w u := ⟨v.records, v.now, rfl, hw, hv, h.records⟩
  have hrecords := Lockstep.reconcile (World.lockstep_neighbours hns) hkey w u hwu
  obtain ⟨t, now, hu, -, -, hshared⟩ := hrecords.snd
  -- from `u` to `v` only the logs change
  have huv : u.Same v := World.same_iff.2
    ⟨rfl, h.secrets.symm, h.entropy.symm, h.director, h.identity, h.clients.symm, rfl⟩
  have hlogs := reconcile_ignoresLogs sys key u v huv
  obtain ⟨hr, hsecrets, hentropy, hdirector, hidentity, hclients, -⟩ := World.same_iff.1 hlogs.snd
  have hsimilar : u.Similar v :=
    ⟨.refl _, h.secrets, h.entropy, h.director, h.identity, h.clients, rfl⟩
  have hcalls := (reconcile_inStep (w := u) hv hsimilar.inStep sys key).snd.sameCalls
  rw [hu] at hcalls hr hsecrets hentropy hdirector hidentity hclients
  have hends : (reconcile sys key w).2.SharesTenant sys ns (reconcile sys key v).2 :=
    ⟨hr ▸ hshared, hsecrets.symm, hentropy.symm, hdirector, hidentity, hclients.symm⟩
  refine ⟨hlogs.fst.trans hrecords.fst, ⟨hcalls.director, hcalls.identity, hcalls.directorClients,
    hcalls.identityClients⟩, hends, fun key' hne => ?_⟩
  subst hkey
  exact ⟨reconcile_get?_of_ne hw hns hne, reconcile_get?_of_ne hv hns hne⟩

namespace Small

def otherZone : Record .az :=
  Record.new "team-b" "z" ({ cloudProperties := some (.str "b") } : AzSpec)

def otherTeam : Record .team := Record.new "team-b" "t" (⟨"e"⟩ : TeamSpec)

/-- The same tenant beside another one, who has a zone and a team of the same names. -/
def crowded : World Store Secrets := (world.keep otherZone).keep otherTeam

theorem wellFormed_crowded : crowded.records.WellFormed :=
  (wellFormed_world.keep (r := otherZone) nofun).keep (r := otherTeam) nofun

theorem sharesTenant_crowded : world.SharesTenant "sys" "team-a" crowded where
  records := by
    intro key hkey
    have hne : key.ns ≠ "team-b" := by
      rcases hkey with h | h
      · rw [h]
        decide
      · rw [h]
        decide
    have hother : ∀ {k : Kind} {s : Store} {r : Record k}, r.metadata.ns = "team-b" →
        (s.keep r).get? key = s.get? key := by
      intro k s r hr
      rw [Store.get?_keep, if_neg]
      rintro rfl
      exact hne hr
    exact (hother rfl).trans (hother rfl)
  secrets := rfl
  entropy := rfl
  director := rfl
  identity := rfl
  clients := rfl

end Small

theorem tenant_isolation_small :
    (reconcile "sys" Small.az.key Small.crowded).1 = .ok () ∧
      World.SameCalls Small.world Small.crowded (reconcile "sys" Small.az.key Small.world).2
        (reconcile "sys" Small.az.key Small.crowded).2 := by
  have hns : "team-a" ≠ "sys" := by decide
  have hok : (reconcile "sys" Small.az.key Small.world).1 = .ok () := by rfl
  have hkey : Small.az.key.ns = "team-a" := rfl
  obtain ⟨houtcome, hcalls, -⟩ := tenant_isolation hns Small.wellFormed_world
    Small.wellFormed_crowded Small.sharesTenant_crowded hkey
  exact ⟨houtcome.trans hok, hcalls⟩

end Reconciliation
