import Reconciliation.Proofs.Confinement
import Reconciliation.Proofs.Deletion
import Reconciliation.Proofs.Isolation
import Reconciliation.Proofs.Visits

/-! The object of an AZ, a VM extension or a compilation worker is a fragment under the record's
own name, made of its own frozen spec. Its reconcile reads one record of these kinds, its own, and
writes no other record and no other fragment. So worlds that differ in one such record and its
fragment are reconciled in lockstep under all other keys, and the order in which records of these
kinds are reconciled does not matter. -/
namespace Reconciliation

open Step (Related Agree)
open World (outcome)

/-- The object of such a record is a fragment made of the record alone, and no credentials depend on
the record. -/
def Kind.independent : Kind → Bool
  | .az | .vmExtension | .compilation => true
  | .director | .team | .network | .baseImage | .release | .role | .deployment => false

namespace Director

/-- Equal but for the fragment under one name and the logs. -/
def Beside (n : String) (d e : Director) : Prop :=
  (∃ calls configs, e = { d with calls := calls, configs := configs }) ∧
    ∀ n', n' ≠ n → e.configs.get? n' = d.configs.get? n'

/-- In addition, the logs have grown by the same calls since they were these two. -/
def BesideSince (n : String) (l m : List DirectorCall) (d e : Director) : Prop :=
  d.Beside n e ∧ ∃ calls, d.calls = l ++ calls ∧ e.calls = m ++ calls

variable {n : String} {d e f : Director}

theorem Beside.refl (n : String) (d : Director) : d.Beside n d := ⟨⟨_, _, rfl⟩, fun _ _ => rfl⟩

theorem Beside.symm (h : d.Beside n e) : e.Beside n d := by
  obtain ⟨⟨calls, configs, rfl⟩, hc⟩ := h
  exact ⟨⟨_, _, rfl⟩, fun n' hn => (hc n' hn).symm⟩

theorem Beside.trans (h : d.Beside n e) (h' : e.Beside n f) : d.Beside n f := by
  obtain ⟨⟨calls, configs, rfl⟩, hc⟩ := h
  obtain ⟨⟨calls', configs', rfl⟩, hc'⟩ := h'
  exact ⟨⟨_, _, rfl⟩, fun n' hn => (hc' n' hn).trans (hc n' hn)⟩

theorem Beside.logged (h : d.Beside n e) (calls calls' : List DirectorCall) :
    Beside n { d with calls := calls } { e with calls := calls' } := by
  obtain ⟨⟨_, configs, rfl⟩, hc⟩ := h
  exact ⟨⟨_, _, rfl⟩, hc⟩

/-- Directors that are equal but for one fragment, whichever of two it is, have all fragments in
common. -/
theorem Beside.same {n' : String} (h : d.Beside n e) (h' : d.Beside n' e) (hn : n ≠ n') :
    d.Same e := by
  obtain ⟨⟨calls, configs, rfl⟩, hc⟩ := h
  have hconfigs : configs = d.configs := by
    refine Table.ext_get? fun m => ?_
    by_cases hm : m = n
    · exact h'.2 m (hm ▸ hn)
    · exact hc m hm
  exact same_iff.2 ⟨calls, by rw [hconfigs]⟩

variable {α : Type} {l m : List DirectorCall}

theorem answer_besideSince (call : DirectorCall)
    {f : Director → Except RemoteError α × Director}
    (hf : ∀ d e, d.Beside n e → Agree (Beside n) Eq (f d) (f e))
    (hcalls : ∀ d, (f d).2.calls = d.calls) :
    Related (BesideSince n l m) Eq (answer call f) (answer call f) := by
  rintro d e ⟨h, calls, hd, he⟩
  have hlogged := h.logged (d.calls ++ [call]) (e.calls ++ [call])
  have hd' : d.calls ++ [call] = l ++ (calls ++ [call]) := by rw [hd, List.append_assoc]
  have he' : e.calls ++ [call] = m ++ (calls ++ [call]) := by rw [he, List.append_assoc]
  have hfailure : e.failure = d.failure := by
    obtain ⟨⟨_, _, rfl⟩, -⟩ := h
    rfl
  rcases Option.eq_none_or_eq_some d.failure with hn | ⟨reason, hs⟩
  · rw [answer_of_none hn, answer_of_none (hfailure.trans hn)]
    have hagree := hf _ _ hlogged
    exact hagree.of_snd ⟨hagree.snd, _, (hcalls _).trans hd', (hcalls _).trans he'⟩
  · rw [answer_of_some hs, answer_of_some (hfailure.trans hs)]
    exact ⟨rfl, hlogged, _, hd', he'⟩

/-- A call that has nothing to do with fragments. -/
theorem answer_besideSince_of_blind (call : DirectorCall)
    {f : Director → Except RemoteError α × Director}
    (hf : ∀ d calls configs, f { d with calls := calls, configs := configs } =
      ((f d).1, { (f d).2 with calls := calls, configs := configs })) :
    Related (BesideSince n l m) Eq (answer call f) (answer call f) := by
  -- at the log and the fragments of `d` itself, `hf` says that the step leaves both as they are
  have hself : ∀ d, f d = ((f d).1, { (f d).2 with calls := d.calls, configs := d.configs }) :=
    fun d => hf d d.calls d.configs
  refine answer_besideSince call ?_ fun d => congrArg (fun p => p.2.calls) (hself d)
  rintro d _ ⟨⟨calls, configs, rfl⟩, hc⟩
  have hconfigs : (f d).2.configs = d.configs := congrArg (fun p => p.2.configs) (hself d)
  have hbeside : Beside n (f d).2 { (f d).2 with calls := calls, configs := configs } :=
    ⟨⟨_, _, rfl⟩, fun n' hn => (hc n' hn).trans (congrArg (·.get? n') hconfigs).symm⟩
  rw [hf d calls configs]
  generalize f d = p at hbeside
  obtain ⟨e | a, d'⟩ := p
  · exact ⟨rfl, hbeside⟩
  · exact ⟨rfl, hbeside⟩

theorem callsRelated_besideSince : CallsRelated (BesideSince n l m) where
  hasRelease _ := answer_besideSince_of_blind _ fun _ _ _ => rfl
  hasStemcell _ := answer_besideSince_of_blind _ fun _ _ _ => rfl
  uploadRelease url _ := by
    refine answer_besideSince_of_blind _ fun d _ _ => ?_
    cases d.releaseSources.get? url <;> rfl
  uploadStemcell url _ := by
    refine answer_besideSince_of_blind _ fun d _ _ => ?_
    cases d.stemcellSources.get? url <;> rfl
  deleteRelease _ := answer_besideSince_of_blind _ fun _ _ _ => rfl
  deleteStemcell _ := answer_besideSince_of_blind _ fun _ _ _ => rfl
  updateCloudConfig name config := by
    refine answer_besideSince _ ?_ fun _ => rfl
    rintro d _ ⟨⟨calls, configs, rfl⟩, hc⟩
    refine ⟨rfl, ⟨_, _, rfl⟩, fun n' hn => ?_⟩
    rw [Table.get?_insert, Table.get?_insert, hc n' hn]
  deleteCloudConfig name := by
    refine answer_besideSince _ ?_ fun _ => rfl
    rintro d _ ⟨⟨calls, configs, rfl⟩, hc⟩
    refine ⟨rfl, ⟨_, _, rfl⟩, fun n' hn => ?_⟩
    rw [Table.get?_erase, Table.get?_erase, hc n' hn]
  deploy _ _ := answer_besideSince_of_blind _ fun _ _ _ => rfl
  deleteDeployment _ := answer_besideSince_of_blind _ fun _ _ _ => rfl

end Director

namespace Store

/-- The same records under all other keys. -/
structure Beside (key : Key) (s t : Store) : Prop where
  issued : t.issued = s.issued
  get? : ∀ key', key' ≠ key → t.get? key' = s.get? key'

namespace Beside

variable {key : Key} {s t u : Store} {k : Kind}

theorem refl (key : Key) (s : Store) : s.Beside key s := ⟨rfl, fun _ _ => rfl⟩

theorem symm (h : s.Beside key t) : t.Beside key s :=
  ⟨h.issued.symm, fun key' hne => (h.get? key' hne).symm⟩

theorem trans (h : s.Beside key t) (h' : t.Beside key u) : s.Beside key u :=
  ⟨h'.issued.trans h.issued, fun key' hne => (h'.get? key' hne).trans (h.get? key' hne)⟩

theorem eq {key' : Key} (h : s.Beside key t) (h' : s.Beside key' t) (hne : key ≠ key') : s = t := by
  have hrecords : s.records = t.records := by
    refine Table.ext_get? fun key'' => ?_
    by_cases hkey : key'' = key
    · exact (h'.get? key'' (hkey ▸ hne)).symm
    · exact (h.get? key'' hkey).symm
  obtain ⟨records, issued⟩ := s
  obtain ⟨records', issued'⟩ := t
  rw [mk.injEq]
  exact ⟨hrecords, h.issued.symm⟩

theorem keep (h : s.Beside key t) (r : Record k) : (s.keep r).Beside key (t.keep r) where
  issued := h.issued
  get? key' hne := by
    rw [get?_keep, get?_keep, h.get? key' hne]

theorem accept (h : s.Beside key t) (r : Record k) : (s.accept r).Beside key (t.accept r) := by
  unfold Store.accept
  split
  · refine ⟨h.issued, fun key' hne => ?_⟩
    rw [get?_without, get?_without, h.get? key' hne]
  · exact h.keep r

theorem of_accept (s : Store) (r : Record k) : s.Beside r.key (s.accept r) where
  issued := by
    unfold Store.accept
    split <;> rfl
  get? key' hne := get?_accept_of_ne s hne

theorem of_keep (s : Store) (r : Record k) : s.Beside r.key (s.keep r) where
  issued := rfl
  get? key' hne := by
    rw [get?_keep, if_neg hne]

/-- All records but one are in common. -/
theorem agreement : Agreement (· ≠ key) fun s t => s.WellFormed ∧ s.Beside key t where
  wellFormed h := h.1
  get? h hne := h.2.get? _ hne
  keep h _ hr := ⟨h.1.keep hr, h.2.keep _⟩
  accept h _ := ⟨h.1.accept _, h.2.accept _⟩

end Beside

end Store

namespace World

/-- The worlds differ at most in one record, the fragment under its name, and the logs. -/
structure Beside (key : Key) (w v : World Store Secrets) : Prop where
  records : w.records.Beside key v.records
  secrets : v.secrets = w.secrets
  entropy : v.entropy = w.entropy
  director : w.director.Beside key.internalName v.director
  identity : w.identity.Same v.identity
  clients : v.clients.failure = w.clients.failure
  now : v.now = w.now

/-- In addition, they have logged the same since they were `w₀` and `v₀`. -/
structure BesideSince (key : Key) (w₀ v₀ w v : World Store Secrets) : Prop where
  records : w.records.WellFormed ∧ w.records.Beside key v.records
  secrets : v.secrets = w.secrets
  entropy : v.entropy = w.entropy
  director : Director.BesideSince key.internalName w₀.director.calls v₀.director.calls w.director
    v.director
  identity : Identity.Since w₀.identity.calls v₀.identity.calls w.identity v.identity
  clients : Clients.Since w₀.clients v₀.clients w.clients v.clients
  now : v.now = w.now

variable {key : Key} {w v u w₀ v₀ : World Store Secrets}

namespace Beside

theorem refl (key : Key) (w : World Store Secrets) : w.Beside key w :=
  ⟨.refl _ _, rfl, rfl, .refl _ _, rfl, rfl, rfl⟩

theorem symm (h : w.Beside key v) : v.Beside key w where
  records := h.records.symm
  secrets := h.secrets.symm
  entropy := h.entropy.symm
  director := h.director.symm
  identity := Eq.symm h.identity
  clients := h.clients.symm
  now := h.now.symm

theorem trans (h : w.Beside key v) (h' : v.Beside key u) : w.Beside key u where
  records := h.records.trans h'.records
  secrets := h'.secrets.trans h.secrets
  entropy := h'.entropy.trans h.entropy
  director := h.director.trans h'.director
  identity := Eq.trans h.identity h'.identity
  clients := h'.clients.trans h.clients
  now := h'.now.trans h.now

/-- Worlds that differ at most in one record, whichever of two it is, do not differ. -/
theorem same {key' : Key} (h : w.Beside key v) (h' : w.Beside key' v) (hne : key ≠ key')
    (hname : key.internalName ≠ key'.internalName) : w.Same v :=
  same_iff.2 ⟨h.records.eq h'.records hne, h.secrets.symm, h.entropy.symm,
    h.director.same h'.director hname, h.identity, h.clients.symm, h.now.symm⟩

theorem unlogged (h : w.Beside key u) : w.Beside key u.unlogged where
  records := h.records
  secrets := h.secrets
  entropy := h.entropy
  director := h.director.trans ⟨⟨_, _, rfl⟩, fun _ _ => rfl⟩
  identity := Eq.trans h.identity rfl
  clients := h.clients
  now := h.now

theorem of_unlogged (h : w.Beside key u.unlogged) : w.Beside key u where
  records := h.records
  secrets := h.secrets
  entropy := h.entropy
  director := h.director.trans ⟨⟨_, _, rfl⟩, fun _ _ => rfl⟩
  identity := Eq.trans h.identity rfl
  clients := h.clients
  now := h.now

theorem withDirector {d : Director} (h : w.director.Beside key.internalName d) :
    w.Beside key (w.withDirector d) :=
  { refl key w with director := h }

theorem keep {k : Kind} {r : Record k} (h : w.Beside key u) (hr : r.key = key) :
    w.Beside key (u.keep r) :=
  { h with records := h.records.trans (hr ▸ .of_keep u.records r) }

theorem accept {k : Kind} {r : Record k} (h : w.Beside key u) (hr : r.key = key) :
    w.Beside key (u.accept r) :=
  { h with records := h.records.trans (hr ▸ .of_accept u.records r) }

theorem since (h : w.Beside key v) (hw : w.records.WellFormed) : BesideSince key w v w v where
  records := ⟨hw, h.records⟩
  secrets := h.secrets
  entropy := h.entropy
  director := ⟨h.director, [], by simp, by simp⟩
  identity := Identity.since_of_same h.identity
  clients := .refl h.clients
  now := h.now

end Beside

namespace BesideSince

theorem beside (h : BesideSince key w₀ v₀ w v) : w.Beside key v where
  records := h.records.2
  secrets := h.secrets
  entropy := h.entropy
  director := h.director.1
  identity := h.identity.same
  clients := h.clients.failure
  now := h.now

theorem sameCalls (h : BesideSince key w₀ v₀ w v) : SameCalls w₀ v₀ w v where
  director := h.director.2
  identity := by
    obtain ⟨calls, hi, hj⟩ := h.identity
    exact ⟨calls, hi, by rw [hj]⟩
  directorClients := h.clients.directors
  identityClients := h.clients.identities

theorem onRecords {ε α : Type} {wrap : ε → ReconcileError} {x : Step Store ε α} {V : α → α → Prop}
    (h : Related (fun s t => s.WellFormed ∧ s.Beside key t) V x x) :
    Related (BesideSince key w₀ v₀) V (World.onRecords wrap x) (World.onRecords wrap x) :=
  Related.onPart h (fun _ => rfl) (fun _ _ h => h.records)
    fun _ _ _ _ h hs => { h with records := hs }

theorem onSecrets {α : Type} (x : Step Secrets SecretError α) :
    Related (BesideSince key w₀ v₀) Eq (World.onSecrets x) (World.onSecrets x) :=
  Related.onPart (.of_eq x) (fun _ => rfl) (fun _ _ h => h.secrets.symm)
    fun _ _ _ _ h hs => { h with secrets := hs.symm }

theorem onSecretSupply {α : Type} (x : Step (Secrets × Entropy) SecretError α) :
    Related (BesideSince key w₀ v₀) Eq (World.onSecretSupply x) (World.onSecretSupply x) := by
  refine Related.onPart (.of_eq x) (fun _ => rfl) ?_ ?_
  · intro w v h
    rw [h.secrets, h.entropy]
  · rintro w v s _ h rfl
    exact { h with secrets := rfl, entropy := rfl }

theorem onDirector {α : Type} {x : Step Director RemoteError α}
    (hx : ∀ n l m, Related (Director.BesideSince n l m) Eq x x) :
    Related (BesideSince key w₀ v₀) Eq (World.onDirector x) (World.onDirector x) :=
  Related.onPart (hx _ _ _) (fun _ => rfl) (fun _ _ h => h.director)
    fun _ _ _ _ h hd => { h with director := hd }

theorem onIdentity {α : Type} {x : Step Identity RemoteError α}
    (hx : ∀ l m, Related (Identity.Since l m) Eq x x) :
    Related (BesideSince key w₀ v₀) Eq (World.onIdentity x) (World.onIdentity x) :=
  Related.onPart (hx _ _) (fun _ => rfl) (fun _ _ h => h.identity)
    fun _ _ _ _ h hi => { h with identity := hi }

theorem askClient {log : Clients → Clients}
    (hl : ∀ {c d : Clients}, Clients.Since w₀.clients v₀.clients c d →
      Clients.Since w₀.clients v₀.clients (log c) (log d)) :
    Related (BesideSince key w₀ v₀) Eq (World.askClient log) (World.askClient log) := by
  intro w v h
  simp only [World.askClient, Step.mk_apply, h.clients.failure]
  cases w.clients.failure with
  | some reason => exact ⟨rfl, h⟩
  | none => exact ⟨rfl, { h with clients := hl h.clients }⟩

end BesideSince

end World

/-- The object of an independent record is made of the record alone. -/
theorem Artifact.object_of_independent {a : ArtifactKind} (ha : a.kind.independent = true)
    (r : Record a.kind) : ∃ o, (object a r : Step Store ReconcileError _) = Step.ofExcept o := by
  cases a with
  | az => exact ⟨azFragment r >>= fun c => .ok (.fragment _ c), (Step.ofExcept_bind _ _).symm⟩
  | vmExtension =>
    exact ⟨vmExtensionFragment r >>= fun c => .ok (.fragment _ c), (Step.ofExcept_bind _ _).symm⟩
  | compilation =>
    exact ⟨compilationFragment r >>= fun c => .ok (.fragment _ c), (Step.ofExcept_bind _ _).symm⟩
  | network | baseImage | release | deployment => cases ha

namespace World

variable {key : Key} {w₀ v₀ : World Store Secrets} {sys : String}

theorem lockstep_besideSince (hk : key.kind.independent = true) :
    Lockstep sys (fun key' => key'.kind.independent = true ∧ key' ≠ key)
      (BesideSince key w₀ v₀) where
  get {key'} hkey' := by
    refine BesideSince.onRecords fun s t h => ?_
    refine (Store.Beside.agreement.get hkey'.2 s t h).imp ?_
    rintro r _ ⟨rfl, hr⟩
    exact ⟨rfl, hr ▸ hkey'⟩
  write hr := BesideSince.onRecords (Store.Beside.agreement.write hr.2 hr)
  writeStatus hr := BesideSince.onRecords (Store.Beside.agreement.writeStatus hr.2 hr)
  director hr := Bool.noConfusion hr.1
  teamFor _ := Credentials.teamFor_related_of <| BesideSince.onRecords <|
    Store.Beside.agreement.fetchAll fun _ he => by
      rw [← he] at hk
      cases hk
  directorSpec name := by
    have hne : (⟨.director, sys, name⟩ : Key) ≠ key := by
      rintro rfl
      cases hk
    refine BesideSince.onRecords ((Store.Beside.agreement.fetch hne).bind ?_)
    rintro r _ rfl
    exact .pure rfl
  object {a r} hr := by
    obtain ⟨o, ho⟩ := Artifact.object_of_independent hr.1 r
    rw [ho]
    exact BesideSince.onRecords (.ofExcept o)
  onSecrets x := BesideSince.onSecrets x
  onSecretSupply x := BesideSince.onSecretSupply x
  ensure o := BesideSince.onDirector fun _ _ _ => Director.callsRelated_besideSince.ensure o
  remove h := BesideSince.onDirector fun _ _ _ => Director.callsRelated_besideSince.remove h
  ensureTeamClient id secret :=
    BesideSince.onIdentity fun _ _ => Identity.ensureTeamClient_since id secret
  removeClient id := BesideSince.onIdentity fun _ _ => Identity.removeClient_since id
  askDirector _ := BesideSince.askClient fun h => h.usingDirector _
  askIdentity _ := BesideSince.askClient fun h => h.usingIdentity _

end World

namespace Director

variable {n : String} {d d' : Director}

theorem beside_established {config : CloudConfig}
    (h : d.established (.fragment n config) = .ok d') : d.Beside n d' := by
  obtain ⟨d₁, ha, rfl⟩ := established_ok h
  cases ha
  refine ⟨⟨_, _, rfl⟩, fun n' hn => ?_⟩
  exact (Table.get?_insert _ _ _ _).trans (if_neg hn)

theorem beside_removed (h : d.removed (some (.fragment n)) = .ok d') : d.Beside n d' := by
  obtain rfl := removed_ok h
  refine ⟨⟨_, _, rfl⟩, fun n' hn => ?_⟩
  exact (Table.get?_erase _ _ _).trans (if_neg hn)

end Director

theorem Artifact.handle?_of_independent {a : ArtifactKind} (ha : a.kind.independent = true)
    (r : Record a.kind) : handle? a r = some (.fragment r.internalName) := by
  cases a with
  | az | vmExtension | compilation => rfl
  | network | baseImage | release | deployment => cases ha

theorem Artifact.fragment_of_independent {a : ArtifactKind} (ha : a.kind.independent = true)
    {r : Record a.kind} {s : Store} {o : RemoteObject} (ho : (object a r s).1 = .ok o) :
    ∃ config, o = .fragment r.internalName config := by
  have hhandle := (object_ok (d := {}) ho).1
  rw [handle?_of_independent ha] at hhandle
  cases o with
  | fragment name config =>
    cases hhandle
    exact ⟨config, rfl⟩
  | release | stemcell | deployment => cases hhandle

variable {w v : World Store Secrets} {sys : String}

namespace Reconcile

variable {a : ArtifactKind} {r : Record a.kind} {x : Except ReconcileError Unit}
  {u : World Store Secrets}

theorem establishArtifact_beside (ha : a.kind.independent = true) (hr : w.records.Holds r)
    (h : outcome (establishArtifact sys a r) w = (x, u)) : w.Beside r.key u := by
  cases artifactEstablished hr h with
  | refused => exact (World.Beside.refl _ w).unlogged
  | stopped hask => exact ((World.Beside.refl _ w).keep (r.key_readied sys)).unlogged
  | done hask ho hd =>
    obtain ⟨config, rfl⟩ := Artifact.fragment_of_independent ha ho
    rw [Record.internalName_eq (r.key_readied sys)] at hd
    refine ((World.Beside.withDirector (Director.beside_established hd)).keep ?_).unlogged
    rw [Record.key_settled, Record.key_readied]

theorem removeArtifact_beside (ha : a.kind.independent = true) (hr : w.records.Holds r)
    (h : outcome (removeArtifact sys a r) w = (x, u)) : w.Beside r.key u := by
  cases artifactRemoved hr h with
  | unchanged => exact (World.Beside.refl _ w).unlogged
  | done hf hd =>
    rw [Artifact.handle?_of_independent ha] at hd
    exact ((World.Beside.withDirector (Director.beside_removed hd)).accept r.key_released).unlogged

end Reconcile

/-- A reconcile of an independent record changes nothing but this record, its fragment and the
logs. -/
theorem reconcile_beside (hw : w.records.WellFormed) (sys : String) {key : Key}
    (hk : key.kind.independent = true) : w.Beside key (reconcile sys key w).2 := by
  cases hg : w.records.get? key with
  | none =>
    rw [reconcile_of_none hg]
    exact .refl key w
  | some q =>
    obtain ⟨k, r⟩ := q
    obtain rfl : r.key = key := hw.key_eq hg
    by_cases hm : Reconcile.Misplaced sys r
    · rw [reconcile_of_misplaced hg hm]
      exact .refl _ w
    · induction k, r using Reconcile.kindCases with
      | director r => exact absurd hk Bool.false_ne_true
      | team r => exact absurd hk Bool.false_ne_true
      | role r => exact absurd hk Bool.false_ne_true
      | artifact a r =>
        have ha : a.kind.independent = true := hk
        have hne : a.kind ≠ .deployment := by
          intro he
          rw [he] at ha
          cases ha
        rw [reconcile_of_artifact hw hg hm, Record.consumed_of_ne hne, World.keep_of_holds hg,
          Reconcile.artifact]
        refine .of_unlogged ?_
        split
        · exact Reconcile.removeArtifact_beside ha hg rfl
        · exact Reconcile.establishArtifact_beside ha hg rfl

namespace World

/-- The worlds differ at most in the order of what they have logged. -/
structure Reordered (w v : World Store Secrets) : Prop where
  same : w.Same v
  directorCalls : w.director.calls.Perm v.director.calls
  identityCalls : w.identity.calls.Perm v.identity.calls
  directorClients : w.clients.directors.Perm v.clients.directors
  identityClients : w.clients.identities.Perm v.clients.identities

variable {u w' v' : World Store Secrets}

namespace Reordered

theorem refl (w : World Store Secrets) : w.Reordered w := ⟨rfl, .rfl, .rfl, .rfl, .rfl⟩

theorem trans (h : w.Reordered v) (h' : v.Reordered u) : w.Reordered u where
  same := Eq.trans h.same h'.same
  directorCalls := h.directorCalls.trans h'.directorCalls
  identityCalls := h.identityCalls.trans h'.identityCalls
  directorClients := h.directorClients.trans h'.directorClients
  identityClients := h.identityClients.trans h'.identityClients

/-- Logging the same keeps the order of either log. -/
theorem sameCalls (h : w.Reordered v) (hs : w'.Same v') (hc : SameCalls w v w' v') :
    w'.Reordered v' := by
  have hgrown {α : Type} {l m l' m' : List α} (hlm : l.Perm m)
      (hl : ∃ calls, l' = l ++ calls ∧ m' = m ++ calls) : l'.Perm m' := by
    obtain ⟨calls, rfl, rfl⟩ := hl
    exact hlm.append_right calls
  exact ⟨hs, hgrown h.directorCalls hc.director, hgrown h.identityCalls hc.identity,
    hgrown h.directorClients hc.directorClients, hgrown h.identityClients hc.identityClients⟩

/-- Two steps that log the same in either order. -/
theorem of_crossed {wa wb wab wba : World Store Secrets} (hs : wab.Same wba)
    (hb : SameCalls w wa wb wab) (ha : SameCalls w wb wa wba) : wab.Reordered wba := by
  have hcrossed {α : Type} {l la lb lab lba : List α}
      (hb : ∃ calls, lb = l ++ calls ∧ lab = la ++ calls)
      (ha : ∃ calls, la = l ++ calls ∧ lba = lb ++ calls) : lab.Perm lba := by
    obtain ⟨calls, rfl, rfl⟩ := hb
    obtain ⟨calls', rfl, rfl⟩ := ha
    rw [List.append_assoc, List.append_assoc]
    exact List.perm_append_comm.append_left l
  exact ⟨hs, hcrossed hb.director ha.director, hcrossed hb.identity ha.identity,
    hcrossed hb.directorClients ha.directorClients, hcrossed hb.identityClients ha.identityClients⟩

end Reordered

end World

/-- A reconcile does not notice the order of the logs. -/
theorem reconcile_reordered (hw : w.records.WellFormed) (h : w.Reordered v) (sys : String)
    (key : Key) : (reconcile sys key v).1 = (reconcile sys key w).1 ∧
      (reconcile sys key w).2.Reordered (reconcile sys key v).2 := by
  have hlogs := reconcile_ignoresLogs sys key w v h.same
  obtain ⟨hr, hsecrets, hentropy, hdirector, hidentity, hclients, hnow⟩ := World.same_iff.1 h.same
  have hsimilar : w.Similar v :=
    ⟨hr ▸ .refl _, hsecrets.symm, hentropy.symm, hdirector, hidentity, hclients.symm, hnow.symm⟩
  have hcalls := (reconcile_inStep hw hsimilar.inStep sys key).snd.sameCalls
  exact ⟨hlogs.fst, h.sameCalls hlogs.snd hcalls⟩

/-- An independent record is reconciled in the same way after another one as before. -/
theorem reconcile_past (hw : w.records.WellFormed) (sys : String) {a b : Key}
    (ha : a.kind.independent = true) (hb : b.kind.independent = true) (hne : b ≠ a) :
    (reconcile sys b (reconcile sys a w).2).1 = (reconcile sys b w).1 ∧
      (reconcile sys b w).2.Beside a (reconcile sys b (reconcile sys a w).2).2 ∧
      World.SameCalls w (reconcile sys a w).2 (reconcile sys b w).2
        (reconcile sys b (reconcile sys a w).2).2 := by
  have hlockstep : World.Lockstep sys (fun key => key.kind.independent = true ∧ key ≠ a)
      (World.BesideSince a w (reconcile sys a w).2) := World.lockstep_besideSince ha
  have hrun := Lockstep.reconcile hlockstep ⟨hb, hne⟩ w _
    ((reconcile_beside hw sys ha).since hw)
  exact ⟨hrun.fst, hrun.snd.beside, hrun.snd.sameCalls⟩

/-- A missing record is missing after an independent reconcile of another one, too. -/
theorem reconcile_skipped (hw : w.records.WellFormed) (sys : String) {a b : Key}
    (ha : a.kind.independent = true) (hne : b ≠ a) (hb : w.records.get? b = none) :
    (reconcile sys b (reconcile sys a w).2).2 = (reconcile sys a w).2 := by
  have hget := (reconcile_beside hw sys ha).records.get? b hne
  rw [reconcile_of_none (hget.trans hb)]

/-- Two independent reconciles commute. -/
theorem reconcile_comm (hw : w.records.WellFormed) (hl : w.records.Labelled) (sys : String)
    {a b : Key} (ha : a.kind.independent = true) (hb : b.kind.independent = true) (hne : a ≠ b) :
    (reconcile sys b (reconcile sys a w).2).1 = (reconcile sys b w).1 ∧
      (reconcile sys a (reconcile sys b w).2).1 = (reconcile sys a w).1 ∧
      (reconcile sys b (reconcile sys a w).2).2.Reordered
        (reconcile sys a (reconcile sys b w).2).2 := by
  obtain ⟨houtcome, hbeside, hcalls⟩ := reconcile_past hw sys ha hb hne.symm
  obtain ⟨houtcome', hbeside', hcalls'⟩ := reconcile_past hw sys hb ha hne
  refine ⟨houtcome, houtcome', ?_⟩
  rcases Option.eq_none_or_eq_some (w.records.get? a) with hna | ⟨p, hp⟩
  · rw [reconcile_skipped hw sys hb hne hna, reconcile_of_none hna]
    exact .refl _
  rcases Option.eq_none_or_eq_some (w.records.get? b) with hnb | ⟨q, hq⟩
  · rw [reconcile_skipped hw sys ha hne.symm hnb, reconcile_of_none hnb]
    exact .refl _
  have hname : a.internalName ≠ b.internalName := by
    intro he
    refine hne (Key.internalName_injective (hl a ?_) (hl b ?_) he)
    · rw [Store.Stored, hp, Option.isSome_some]
    · rw [Store.Stored, hq, Option.isSome_some]
  -- each end is, but for `b`, where `a` alone has led, and but for `a`, where `b` alone has led
  have hb' := reconcile_beside (reconcile_wellFormed hw sys a) sys hb
  have ha' := reconcile_beside (reconcile_wellFormed hw sys b) sys ha
  have hends := (hbeside.symm.trans ha').same (hb'.symm.trans hbeside') hne hname
  exact .of_crossed hends hcalls hcalls'

/-- An independent reconcile stores no record under a new key. -/
theorem reconcile_labelled (hw : w.records.WellFormed) (hl : w.records.Labelled) (sys : String)
    {key : Key} (hk : key.kind.independent = true) :
    (reconcile sys key w).2.records.Labelled := by
  intro key' hs
  by_cases hne : key' = key
  · subst hne
    cases hg : w.records.get? key' with
    | none =>
      rw [reconcile_of_none hg, Store.Stored, hg] at hs
      cases hs
    | some q => exact hl key' (by rw [Store.Stored, hg, Option.isSome_some])
  · refine hl key' ?_
    rwa [Store.Stored, (reconcile_beside hw sys hk).records.get? key' hne] at hs

namespace Sweep

/-- Visits do not notice the order of the logs. -/
theorem outcomes_reordered (hw : w.records.WellFormed) (h : w.Reordered v) (sys : String)
    (ks : List Key) : outcomes sys ks v = outcomes sys ks w ∧
      (after sys (ks.map .reconcile) w).Reordered (after sys (ks.map .reconcile) v) := by
  induction ks generalizing w v with
  | nil => exact ⟨rfl, h⟩
  | cons key ks ih =>
    obtain ⟨houtcome, hnext⟩ := reconcile_reordered hw h sys key
    obtain ⟨houtcomes, hends⟩ := ih (reconcile_wellFormed hw sys key) hnext
    refine ⟨?_, hends⟩
    rw [outcomes, outcomes, houtcome, houtcomes]

/-- Distinct independent records have the same outcomes in any order, and in the end the worlds are
the same. -/
theorem outcomes_perm (hw : w.records.WellFormed) (hl : w.records.Labelled) (sys : String)
    {ks ks' : List Key} (hp : ks.Perm ks') (hn : ks.Nodup)
    (hi : ∀ key ∈ ks, key.kind.independent = true) :
    (outcomes sys ks w).Perm (outcomes sys ks' w) ∧
      (after sys (ks.map .reconcile) w).Reordered (after sys (ks'.map .reconcile) w) := by
  induction hp generalizing w with
  | nil => exact ⟨.nil, .refl w⟩
  | cons key hp ih =>
    obtain ⟨hkey, hi⟩ := List.forall_mem_cons.1 hi
    obtain ⟨houtcomes, hends⟩ := ih (reconcile_wellFormed hw sys key)
      (reconcile_labelled hw hl sys hkey) (List.nodup_cons.1 hn).2 hi
    exact ⟨houtcomes.cons _, hends⟩
  | swap a b ks =>
    have hne : b ≠ a := fun he => (List.nodup_cons.1 hn).1 (he ▸ List.mem_cons_self)
    obtain ⟨ha, hb, hswapped⟩ := reconcile_comm hw hl sys (hi b List.mem_cons_self)
      (hi a (List.mem_cons_of_mem _ List.mem_cons_self)) hne
    have hwell := reconcile_wellFormed (reconcile_wellFormed hw sys b) sys a
    obtain ⟨houtcomes, hends⟩ := outcomes_reordered hwell hswapped sys ks
    refine ⟨?_, hends⟩
    simp only [outcomes, ha, hb, houtcomes]
    exact .swap _ _ _
  | trans hp hp' ih ih' =>
    obtain ⟨houtcomes, hends⟩ := ih hw hl hn hi
    obtain ⟨houtcomes', hends'⟩ := ih' hw hl (hp.nodup_iff.1 hn)
      fun key hmem => hi key (hp.mem_iff.2 hmem)
    exact ⟨houtcomes.trans houtcomes', hends.trans hends'⟩

/-- The outcome of an independent record among others is that of its reconcile alone. -/
theorem mem_outcomes_alone (hw : w.records.WellFormed) (hl : w.records.Labelled) (sys : String)
    {ks : List Key} (hn : ks.Nodup) (hi : ∀ key ∈ ks, key.kind.independent = true) {key : Key}
    (hmem : key ∈ ks) : (key, (reconcile sys key w).1) ∈ outcomes sys ks w := by
  have hfirst : (key, (reconcile sys key w).1) ∈ outcomes sys (key :: ks.erase key) w :=
    List.mem_cons_self
  exact (outcomes_perm hw hl sys (List.perm_cons_erase hmem) hn hi).1.mem_iff.2 hfirst

end Sweep

/-- Distinct AZs, VM extensions and compilation workers, live or to be deleted, may be reconciled in
any order: each has the same outcome, which is that of its reconcile alone, and in the end there are
the same records in the same versions, the same secrets and the same objects on the Director. Even
the calls are the same, but for their order. -/
theorem reconciles_commute {w : World Store Secrets} (hw : w.records.WellFormed)
    (hl : w.records.Labelled) (sys : String) {ks ks' : List Key} (hp : ks.Perm ks')
    (hn : ks.Nodup) (hi : ∀ key ∈ ks, key.kind.independent = true) :
    ∃ (report report' : SweepReport) (v v' : World Store Secrets),
      ks.mapM (Sweep.visit sys) w = (.ok report, v) ∧
      ks'.mapM (Sweep.visit sys) w = (.ok report', v') ∧
      report.map (·.1) = ks ∧ report'.map (·.1) = ks' ∧
      (∀ key x, (key, x) ∈ report ↔ (key, x) ∈ report') ∧
      (∀ key ∈ ks, (key, (reconcile sys key w).1) ∈ report) ∧
      v.records = v'.records ∧ v.secrets = v'.secrets ∧ v.director.Same v'.director ∧
      v.Reordered v' := by
  obtain ⟨houtcomes, hends⟩ := Sweep.outcomes_perm hw hl sys hp hn hi
  obtain ⟨hrecords, hsecrets, -, hdirector, -⟩ := World.same_iff.1 hends.same
  exact ⟨_, _, _, _, Sweep.visits_eq_outcomes sys ks w, Sweep.visits_eq_outcomes sys ks' w,
    Sweep.map_fst_outcomes sys ks w, Sweep.map_fst_outcomes sys ks' w,
    fun _ _ => houtcomes.mem_iff, fun _ => Sweep.mem_outcomes_alone hw hl sys hn hi, hrecords,
    hsecrets, hdirector, hends⟩

namespace Small

/-- A VM extension of the team, of the same name as its AZ. -/
def extension : Record .vmExtension := Record.new "team-a" "z" ({} : VmExtensionSpec)

def extended : World Store Secrets :=
  { world with records := (Store.create extension world.records).2 }

theorem wellFormed_extended : extended.records.WellFormed := wellFormed_world.create extension

theorem labelled_extended : extended.records.Labelled :=
  labelled_world.create (r := extension) (by decide)

end Small

/-- Both are deployed, whichever is reconciled first. -/
theorem reconciles_commute_small :
    ∃ (report report' : SweepReport) (v v' : World Store Secrets),
      [Small.az.key, Small.extension.key].mapM (Sweep.visit "sys") Small.extended =
        (.ok report, v) ∧
      [Small.extension.key, Small.az.key].mapM (Sweep.visit "sys") Small.extended =
        (.ok report', v') ∧
      (Small.az.key, .ok ()) ∈ report' ∧ (Small.extension.key, .ok ()) ∈ report' ∧
      v.records = v'.records ∧ v.secrets = v'.secrets ∧ v.director.Same v'.director := by
  have hindependent : ∀ key ∈ [Small.az.key, Small.extension.key],
      key.kind.independent = true := by
    decide
  obtain ⟨report, report', v, v', hrun, hrun', -, -, hsame, halone, hrecords, hsecrets, hdirector,
    -⟩ := reconciles_commute Small.wellFormed_extended Small.labelled_extended "sys"
      (.swap _ _ []) (by decide) hindependent
  have haz : (reconcile "sys" Small.az.key Small.extended).1 = .ok () := by rfl
  have hextension : (reconcile "sys" Small.extension.key Small.extended).1 = .ok () := by rfl
  refine ⟨report, report', v, v', hrun, hrun', (hsame _ _).1 ?_, (hsame _ _).1 ?_, hrecords,
    hsecrets, hdirector⟩
  · exact haz ▸ halone _ List.mem_cons_self
  · exact hextension ▸ halone _ (List.mem_cons_of_mem _ List.mem_cons_self)

end Reconciliation
