import Reconciliation.Proofs.Lockstep
import Reconciliation.Proofs.Remote

/-! The Director, the identity service and the factory of clients log what they are asked. Nothing
ever reads a log: two worlds that differ in their logs alone take the same reconcile, with the same
outcome, to worlds that again differ in their logs alone. -/
namespace Reconciliation

def Director.unlogged (d : Director) : Director := { d with calls := [] }

def Identity.unlogged (i : Identity) : Identity := { i with calls := [] }

def Clients.unlogged (c : Clients) : Clients := { failure := c.failure }

/-- The world with its logs emptied: the records, the secrets and the supply of random bytes, and
what the remote services hold. -/
def World.unlogged {σ τ : Type} (w : World σ τ) : World σ τ :=
  { w with
    director := w.director.unlogged
    identity := w.identity.unlogged
    clients := w.clients.unlogged }

namespace Director

def Same (d e : Director) : Prop := d.unlogged = e.unlogged

theorem same_iff {d e : Director} : d.Same e ↔ ∃ calls, e = { d with calls := calls } := by
  constructor
  · intro h
    obtain ⟨⟩ := d
    obtain ⟨⟩ := e
    simp only [Same, unlogged, mk.injEq] at h
    simp [h]
  · rintro ⟨calls, rfl⟩
    rfl

/-- Equal but for the logs, which have grown by the same calls since they were these two. -/
def Since (l m : List DirectorCall) (d e : Director) : Prop :=
  ∃ calls, d.calls = l ++ calls ∧ e = { d with calls := m ++ calls }

theorem since_of_same {d e : Director} (h : d.Same e) : Since d.calls e.calls d e := by
  obtain ⟨calls, rfl⟩ := same_iff.1 h
  exact ⟨[], by simp, by simp⟩

variable {α : Type} {l m : List DirectorCall}

theorem Since.same {d e : Director} (h : Since l m d e) : d.Same e := by
  obtain ⟨calls, -, rfl⟩ := h
  exact same_iff.2 ⟨_, rfl⟩

/-- A step that logs the same calls whatever was logged before ignores the log. -/
theorem related_of_since {x : Step Director RemoteError α}
    (h : ∀ l m, Step.Related (Since l m) Eq x x) : Step.Related Same Eq x x :=
  fun d e hde => (h d.calls e.calls d e (since_of_same hde)).mono fun _ _ => Since.same

theorem answer_since (call : DirectorCall) {f : Director → Except RemoteError α × Director}
    (h : ∀ d calls, f { d with calls := calls } = ((f d).1, { (f d).2 with calls := calls })) :
    Step.Related (Since l m) Eq (answer call f) (answer call f) := by
  rintro d _ ⟨calls, hd, rfl⟩
  have hlog : d.calls ++ [call] = l ++ (calls ++ [call]) := by rw [hd, List.append_assoc]
  rcases Option.eq_none_or_eq_some d.failure with hf | ⟨reason, hf⟩
  · have hd' : answer call f d = ((f d).1, { (f d).2 with calls := d.calls ++ [call] }) :=
      (answer_of_none hf).trans (h d _)
    have he' : answer call f { d with calls := m ++ calls } =
        ((f d).1, { (f d).2 with calls := m ++ calls ++ [call] }) :=
      (answer_of_none (d := { d with calls := m ++ calls }) hf).trans (h d _)
    have hsince : Since l m { (f d).2 with calls := d.calls ++ [call] }
        { (f d).2 with calls := m ++ calls ++ [call] } :=
      ⟨calls ++ [call], hlog, by rw [List.append_assoc]⟩
    rw [hd', he']
    cases (f d).1 with
    | error e => exact ⟨rfl, hsince⟩
    | ok a => exact ⟨rfl, hsince⟩
  · rw [answer_of_some (d := d) hf, answer_of_some (d := { d with calls := m ++ calls }) hf]
    exact ⟨rfl, calls ++ [call], hlog, by rw [List.append_assoc]⟩

/-- Directors that `R` relates answer all calls alike, and `R` relates them again. -/
structure CallsRelated (R : Director → Director → Prop) : Prop where
  hasRelease : ∀ ref, Step.Related R Eq (hasRelease ref) (hasRelease ref)
  hasStemcell : ∀ ref, Step.Related R Eq (hasStemcell ref) (hasStemcell ref)
  uploadRelease : ∀ url sha1, Step.Related R Eq (uploadRelease url sha1) (uploadRelease url sha1)
  uploadStemcell : ∀ url sha1,
    Step.Related R Eq (uploadStemcell url sha1) (uploadStemcell url sha1)
  deleteRelease : ∀ ref, Step.Related R Eq (deleteRelease ref) (deleteRelease ref)
  deleteStemcell : ∀ ref, Step.Related R Eq (deleteStemcell ref) (deleteStemcell ref)
  updateCloudConfig : ∀ name config,
    Step.Related R Eq (updateCloudConfig name config) (updateCloudConfig name config)
  deleteCloudConfig : ∀ name, Step.Related R Eq (deleteCloudConfig name) (deleteCloudConfig name)
  deploy : ∀ name manifest, Step.Related R Eq (deploy name manifest) (deploy name manifest)
  deleteDeployment : ∀ name, Step.Related R Eq (deleteDeployment name) (deleteDeployment name)

namespace CallsRelated

variable {R : Director → Director → Prop} (hR : CallsRelated R)

include hR

theorem ensure (o : RemoteObject) : Step.Related R Eq (ensure o) (ensure o) := by
  cases o with
  | fragment name config => exact hR.updateCloudConfig name config
  | deployment name manifest => exact hR.deploy name manifest
  | release ref url sha1 =>
    refine (hR.hasRelease ref).bind ?_
    rintro here _ rfl
    exact .ite (fun _ => hR.uploadRelease url sha1) fun _ => .pure rfl
  | stemcell ref url sha1 =>
    refine (hR.hasStemcell ref).bind ?_
    rintro here _ rfl
    exact .ite (fun _ => hR.uploadStemcell url sha1) fun _ => .pure rfl

theorem remove (h : RemoteHandle) : Step.Related R Eq (remove h) (remove h) := by
  cases h with
  | fragment name => exact hR.deleteCloudConfig name
  | deployment name => exact hR.deleteDeployment name
  | release ref =>
    refine (hR.hasRelease ref).bind ?_
    rintro here _ rfl
    exact .ite (fun _ => hR.deleteRelease ref) fun _ => .pure rfl
  | stemcell ref =>
    refine (hR.hasStemcell ref).bind ?_
    rintro here _ rfl
    exact .ite (fun _ => hR.deleteStemcell ref) fun _ => .pure rfl

end CallsRelated

theorem callsRelated_since : CallsRelated (Since l m) where
  hasRelease _ := answer_since _ fun _ _ => rfl
  hasStemcell _ := answer_since _ fun _ _ => rfl
  uploadRelease url _ := by
    refine answer_since _ fun d calls => ?_
    cases d.releaseSources.get? url <;> rfl
  uploadStemcell url _ := by
    refine answer_since _ fun d calls => ?_
    cases d.stemcellSources.get? url <;> rfl
  deleteRelease _ := answer_since _ fun _ _ => rfl
  deleteStemcell _ := answer_since _ fun _ _ => rfl
  updateCloudConfig _ _ := answer_since _ fun _ _ => rfl
  deleteCloudConfig _ := answer_since _ fun _ _ => rfl
  deploy _ _ := answer_since _ fun _ _ => rfl
  deleteDeployment _ := answer_since _ fun _ _ => rfl

theorem ensure_related (o : RemoteObject) : Step.Related Same Eq (ensure o) (ensure o) :=
  related_of_since fun _ _ => callsRelated_since.ensure o

theorem remove_related (h : RemoteHandle) : Step.Related Same Eq (remove h) (remove h) :=
  related_of_since fun _ _ => callsRelated_since.remove h

end Director

namespace Identity

def Same (i j : Identity) : Prop := i.unlogged = j.unlogged

theorem same_iff {i j : Identity} : i.Same j ↔ ∃ calls, j = { i with calls := calls } := by
  constructor
  · intro h
    obtain ⟨⟩ := i
    obtain ⟨⟩ := j
    simp only [Same, unlogged, mk.injEq] at h
    simp [h]
  · rintro ⟨calls, rfl⟩
    rfl

/-- Equal but for the logs, which have grown by the same calls since they were these two. -/
def Since (l m : List IdentityCall) (i j : Identity) : Prop :=
  ∃ calls, i.calls = l ++ calls ∧ j = { i with calls := m ++ calls }

theorem since_of_same {i j : Identity} (h : i.Same j) : Since i.calls j.calls i j := by
  obtain ⟨calls, rfl⟩ := same_iff.1 h
  exact ⟨[], by simp, by simp⟩

variable {α : Type} {l m : List IdentityCall}

theorem Since.same {i j : Identity} (h : Since l m i j) : i.Same j := by
  obtain ⟨calls, -, rfl⟩ := h
  exact same_iff.2 ⟨_, rfl⟩

theorem related_of_since {x : Step Identity RemoteError α}
    (h : ∀ l m, Step.Related (Since l m) Eq x x) : Step.Related Same Eq x x :=
  fun i j hij => (h i.calls j.calls i j (since_of_same hij)).mono fun _ _ => Since.same

theorem answer_since (call : IdentityCall) {f : Identity → α × Identity}
    (h : ∀ i calls, f { i with calls := calls } = ((f i).1, { (f i).2 with calls := calls })) :
    Step.Related (Since l m) Eq (answer call f) (answer call f) := by
  rintro i _ ⟨calls, hi, rfl⟩
  have hlog : i.calls ++ [call] = l ++ (calls ++ [call]) := by rw [hi, List.append_assoc]
  rcases Option.eq_none_or_eq_some i.failure with hf | ⟨reason, hf⟩
  · rw [answer_of_none (i := i) hf, answer_of_none (i := { i with calls := m ++ calls }) hf,
      h i (i.calls ++ [call]), h i (m ++ calls ++ [call])]
    exact ⟨rfl, calls ++ [call], hlog, by rw [List.append_assoc]⟩
  · rw [answer_of_some (i := i) hf, answer_of_some (i := { i with calls := m ++ calls }) hf]
    exact ⟨rfl, calls ++ [call], hlog, by rw [List.append_assoc]⟩

theorem hasClient_since (id : String) :
    Step.Related (Since l m) Eq (hasClient id) (hasClient id) :=
  answer_since _ fun _ _ => rfl

theorem createClient_since (id : String) (client : IdentityClient) :
    Step.Related (Since l m) Eq (createClient id client) (createClient id client) :=
  answer_since _ fun _ _ => rfl

theorem deleteClient_since (id : String) :
    Step.Related (Since l m) Eq (deleteClient id) (deleteClient id) :=
  answer_since _ fun _ _ => rfl

theorem ensureTeamClient_since (id secret : String) :
    Step.Related (Since l m) Eq (ensureTeamClient id secret) (ensureTeamClient id secret) := by
  refine (hasClient_since id).bind ?_
  rintro here _ rfl
  exact .ite (fun _ => createClient_since id _) fun _ => .pure rfl

theorem removeClient_since (id : String) :
    Step.Related (Since l m) Eq (removeClient id) (removeClient id) := by
  refine (hasClient_since id).bind ?_
  rintro here _ rfl
  exact .ite (fun _ => deleteClient_since id) fun _ => .pure rfl

theorem ensureTeamClient_related (id secret : String) :
    Step.Related Same Eq (ensureTeamClient id secret) (ensureTeamClient id secret) :=
  related_of_since fun _ _ => ensureTeamClient_since id secret

theorem removeClient_related (id : String) :
    Step.Related Same Eq (removeClient id) (removeClient id) :=
  related_of_since fun _ _ => removeClient_since id

end Identity

namespace World

variable {σ τ ε α : Type}

/-- Equal but for the logs. -/
def Same (w v : World σ τ) : Prop := w.unlogged = v.unlogged

theorem same_iff {w v : World σ τ} : w.Same v ↔ w.records = v.records ∧ w.secrets = v.secrets ∧
    w.entropy = v.entropy ∧ w.director.Same v.director ∧ w.identity.Same v.identity ∧
    w.clients.failure = v.clients.failure ∧ w.now = v.now := by
  obtain ⟨⟩ := w
  obtain ⟨⟩ := v
  simp [Same, unlogged, Director.Same, Identity.Same, Clients.unlogged]

/-- The step ignores the logs. -/
def IgnoresLogs (x : Step (World σ τ) ε α) : Prop := Step.Related Same Eq x x

namespace IgnoresLogs

theorem pure (a : α) : IgnoresLogs (pure a : Step (World σ τ) ε α) := Step.Related.pure rfl

theorem throw (e : ε) : IgnoresLogs (throw e : Step (World σ τ) ε α) := Step.Related.throw e

theorem bind {β : Type} {x : Step (World σ τ) ε α} {f : α → Step (World σ τ) ε β}
    (hx : IgnoresLogs x) (hf : ∀ a, IgnoresLogs (f a)) : IgnoresLogs (x >>= f) :=
  Step.Related.bind hx fun a _ hab => hab ▸ hf a

theorem ite {c : Prop} [Decidable c] {x y : Step (World σ τ) ε α} (hx : IgnoresLogs x)
    (hy : IgnoresLogs y) : IgnoresLogs (if c then x else y) :=
  Step.Related.ite (fun _ => hx) fun _ => hy

theorem onRecords {δ : Type} (wrap : δ → ε) (x : Step σ δ α) :
    IgnoresLogs (World.onRecords (τ := τ) wrap x) := by
  refine Step.Related.onPart (.of_eq x) (fun _ => rfl) (fun w v h => (same_iff.1 h).1) ?_
  rintro w v s _ h rfl
  exact same_iff.2 ⟨rfl, (same_iff.1 h).2⟩

theorem onSecrets (x : Step τ SecretError α) : IgnoresLogs (World.onSecrets (σ := σ) x) := by
  refine Step.Related.onPart (.of_eq x) (fun _ => rfl) (fun w v h => (same_iff.1 h).2.1) ?_
  rintro w v s _ h rfl
  obtain ⟨hr, -, h⟩ := same_iff.1 h
  exact same_iff.2 ⟨hr, rfl, h⟩

theorem onSecretSupply (x : Step (τ × Entropy) SecretError α) :
    IgnoresLogs (World.onSecretSupply (σ := σ) x) := by
  refine Step.Related.onPart (.of_eq x) (fun _ => rfl) ?_ ?_
  · intro w v h
    obtain ⟨-, hs, he, -⟩ := same_iff.1 h
    rw [hs, he]
  · rintro w v s _ h rfl
    obtain ⟨hr, -, -, h⟩ := same_iff.1 h
    exact same_iff.2 ⟨hr, rfl, rfl, h⟩

theorem onDirector {x : Step Director RemoteError α}
    (hx : Step.Related Director.Same Eq x x) :
    IgnoresLogs (World.onDirector (σ := σ) (τ := τ) x) := by
  refine Step.Related.onPart hx (fun _ => rfl) (fun w v h => (same_iff.1 h).2.2.2.1) ?_
  intro w v s t h hst
  obtain ⟨hr, hs, he, -, h⟩ := same_iff.1 h
  exact same_iff.2 ⟨hr, hs, he, hst, h⟩

theorem onIdentity {x : Step Identity RemoteError α}
    (hx : Step.Related Identity.Same Eq x x) :
    IgnoresLogs (World.onIdentity (σ := σ) (τ := τ) x) := by
  refine Step.Related.onPart hx (fun _ => rfl) (fun w v h => (same_iff.1 h).2.2.2.2.1) ?_
  intro w v s t h hst
  obtain ⟨hr, hs, he, hd, -, h⟩ := same_iff.1 h
  exact same_iff.2 ⟨hr, hs, he, hd, hst, h⟩

theorem askClient {log : Clients → Clients} (hl : ∀ c, (log c).failure = c.failure) :
    IgnoresLogs (World.askClient (σ := σ) (τ := τ) log) := by
  intro w v h
  obtain ⟨hr, hs, he, hd, hi, hc, hn⟩ := same_iff.1 h
  simp only [World.askClient, Step.mk_apply, hc]
  cases v.clients.failure with
  | some reason => exact ⟨rfl, h⟩
  | none => exact ⟨rfl, same_iff.2 ⟨hr, hs, he, hd, hi, by rw [hl, hl, hc], hn⟩⟩

end IgnoresLogs

end World

namespace World

variable {σ τ ε α : Type}

/-- What a step gives and where it ends, the logs left out. -/
def outcome (x : Step (World σ τ) ε α) (w : World σ τ) : Except ε α × World σ τ :=
  ((x w).1, (x w).2.unlogged)

theorem outcome_of_eq {x : Step (World σ τ) ε α} {w w' : World σ τ} {r : Except ε α}
    (h : x w = (r, w')) : outcome x w = (r, w'.unlogged) := by
  rw [outcome, h]

theorem eq_of_outcome {x : Step (World σ τ) ε α} {w u : World σ τ} {r : Except ε α}
    (h : outcome x w = (r, u)) : ∃ w', x w = (r, w') ∧ w'.unlogged = u :=
  ⟨(x w).2, Prod.ext (show (x w).1 = r from congrArg Prod.fst h) rfl, congrArg Prod.snd h⟩

namespace IgnoresLogs

/-- The outcome is the same from worlds that differ in their logs alone. -/
theorem outcome_eq {x : Step (World σ τ) ε α} (hx : IgnoresLogs x) {w v : World σ τ}
    (h : v.unlogged = w.unlogged) : outcome x v = outcome x w := by
  have hr := hx w v h.symm
  rw [outcome, outcome]
  rcases hw : x w with ⟨e | a, w'⟩ <;> rcases hv : x v with ⟨e' | b, v'⟩ <;> rw [hw, hv] at hr
  · exact Prod.ext (congrArg Except.error hr.1.symm) hr.2.symm
  · exact hr.elim
  · exact hr.elim
  · exact Prod.ext (congrArg Except.ok hr.1.symm) hr.2.symm

theorem outcome_unlogged {x : Step (World σ τ) ε α} (hx : IgnoresLogs x) (w : World σ τ) :
    outcome x w.unlogged = outcome x w :=
  hx.outcome_eq rfl

end IgnoresLogs

theorem outcome_bind_error {β : Type} {x : Step (World σ τ) ε α} {w u : World σ τ} {e : ε}
    (h : outcome x w = (.error e, u)) (f : α → Step (World σ τ) ε β) :
    outcome (x >>= f) w = (.error e, u) := by
  obtain ⟨w', hw, rfl⟩ := eq_of_outcome h
  exact outcome_of_eq (Step.bind_error hw f)

/-- A step whose course is known may be left behind. -/
theorem outcome_bind_of_eq {β : Type} {x : Step (World σ τ) ε α} {w w' : World σ τ} {a : α}
    (h : x w = (.ok a, w')) (f : α → Step (World σ τ) ε β) :
    outcome (x >>= f) w = outcome (f a) w' := by
  rw [outcome, outcome, Step.bind_ok h]

theorem outcome_bind_ok {β : Type} {x : Step (World σ τ) ε α} {w v : World σ τ} {a : α}
    (h : outcome x w = (.ok a, v.unlogged)) {f : α → Step (World σ τ) ε β}
    (hf : IgnoresLogs (f a)) : outcome (x >>= f) w = outcome (f a) v := by
  obtain ⟨w', hw, hv⟩ := eq_of_outcome h
  rw [outcome_bind_of_eq hw, hf.outcome_eq hv]

end World

open World (IgnoresLogs)

variable {σ τ : Type} [RecordStore σ] {k : Kind}

theorem World.deleteIfStored_ignoresLogs (key : Key) :
    IgnoresLogs (World.deleteIfStored (σ := σ) (τ := τ) key) := by
  intro w v h
  have hn : w.now = v.now := (World.same_iff.1 h).2.2.2.2.2.2
  simp only [World.deleteIfStored, Step.mk_apply, hn]
  exact IgnoresLogs.onRecords _ _ w v h

theorem Credentials.teamFor_ignoresLogs (ns : String) :
    IgnoresLogs (teamFor (σ := σ) (τ := τ) ns) := by
  refine IgnoresLogs.bind (.onRecords _ _) fun teams => ?_
  rcases teams with _ | ⟨team, _ | _⟩
  · exact .throw _
  · exact .pure _
  · exact .throw _

namespace Artifact

theorem establish_ignoresLogs (a : ArtifactKind) (r : Record a.kind) :
    IgnoresLogs (establish (σ := σ) (τ := τ) a r) :=
  IgnoresLogs.bind (.onRecords _ _) fun o => .onDirector (Director.ensure_related o)

omit [RecordStore σ] in
theorem remove_ignoresLogs (a : ArtifactKind) (r : Record a.kind) :
    IgnoresLogs (remove (σ := σ) (τ := τ) a r) := by
  unfold remove
  split
  · exact .onDirector (Director.remove_related _)
  · exact .pure _

end Artifact

namespace Reconcile

theorem freeze_ignoresLogs (sys : String) (r : Record k) :
    IgnoresLogs (freeze (σ := σ) (τ := τ) sys r) :=
  .ite (.onRecords _ _) (.pure _)

theorem attachFinalizer_ignoresLogs (r : Record k) :
    IgnoresLogs (attachFinalizer (σ := σ) (τ := τ) r) :=
  .ite (.pure _) (.onRecords _ _)

theorem dropFinalizer_ignoresLogs (r : Record k) :
    IgnoresLogs (dropFinalizer (σ := σ) (τ := τ) r) :=
  IgnoresLogs.bind (.onRecords _ _) fun _ => .pure _

theorem publish_ignoresLogs (r : Record k) : IgnoresLogs (publish (σ := σ) (τ := τ) r) :=
  .ite (IgnoresLogs.bind (.onRecords _ _) fun _ => .pure _) (.pure _)

theorem removeDirector_ignoresLogs (r : Record .director) :
    IgnoresLogs (removeDirector (σ := σ) (τ := τ) r) := by
  refine .ite ?_ (.pure _)
  refine (World.deleteIfStored_ignoresLogs _).bind fun _ => ?_
  refine IgnoresLogs.bind (Step.Related.attempt (IgnoresLogs.onRecords _ _)) fun found => ?_
  split
  · exact .pure _
  · exact dropFinalizer_ignoresLogs r
  · exact .throw _

theorem director_ignoresLogs (r : Record .director) :
    IgnoresLogs (director (σ := σ) (τ := τ) r) :=
  .ite (removeDirector_ignoresLogs r)
    ((attachFinalizer_ignoresLogs r).bind fun _ => .onRecords _ _)

end Reconcile

/-- Worlds that differ in their logs alone are reconciled in lockstep. -/
theorem World.lockstep_same (sys : String) :
    Lockstep sys (fun _ => True) (Same (σ := σ) (τ := τ)) where
  get _ w v h := (IgnoresLogs.onRecords _ _ w v h).imp fun _ _ hr => ⟨hr, trivial⟩
  write _ w v h := (IgnoresLogs.onRecords _ _ w v h).imp fun _ _ hr => ⟨hr, trivial⟩
  writeStatus _ w v h := (IgnoresLogs.onRecords _ _ w v h).imp fun _ _ hr => ⟨hr, trivial⟩
  director _ _ := Reconcile.director_ignoresLogs _
  teamFor _ := Credentials.teamFor_ignoresLogs _
  directorSpec _ := IgnoresLogs.onRecords _ _
  object _ := IgnoresLogs.onRecords _ _
  onSecrets x := IgnoresLogs.onSecrets x
  onSecretSupply x := IgnoresLogs.onSecretSupply x
  ensure o := IgnoresLogs.onDirector (Director.ensure_related o)
  remove h := IgnoresLogs.onDirector (Director.remove_related h)
  ensureTeamClient id secret := IgnoresLogs.onIdentity (Identity.ensureTeamClient_related id secret)
  removeClient id := IgnoresLogs.onIdentity (Identity.removeClient_related id)
  askDirector _ := IgnoresLogs.askClient fun _ => rfl
  askIdentity _ := IgnoresLogs.askClient fun _ => rfl

/-- A reconcile ignores the logs, whatever stores it works on. -/
theorem reconcile_ignoresLogs [SecretStore τ] (sys : String) (key : Key) :
    IgnoresLogs (reconcile (σ := σ) (τ := τ) sys key) :=
  Lockstep.reconcile (World.lockstep_same sys) trivial

end Reconciliation
