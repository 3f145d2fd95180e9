import Reconciliation.Proofs.Orphans
import Reconciliation.Proofs.Ownership
import Reconciliation.Proofs.Provision

/-! The own team of a Director needs the Director for its cleanup. It is created only after the
Director holds its finalizer, and the finalizer goes only after the team is gone, so that in every
run the stored team finds its Director, whatever fails in between. -/
namespace Reconciliation

/-- The key of a Director in the system namespace. -/
def directorKey (sys name : String) : Key := ⟨.director, sys, name⟩

/-- The key of the own team of that Director. -/
def ownTeamKey (sys name : String) : Key := ⟨.team, sys, "director-" ++ name ++ "-team"⟩

theorem key_ownTeam (r : Record .director) :
    r.ownTeam.key = ownTeamKey r.metadata.ns r.metadata.name := rfl

theorem ownTeamKey_ne_directorKey (sys name sys' name' : String) :
    ownTeamKey sys name ≠ directorKey sys' name' :=
  fun h => Kind.noConfusion (congrArg Key.kind h)

/-- Different Directors have different teams. -/
theorem ownTeamKey_inj {sys name sys' name' : String} :
    ownTeamKey sys name = ownTeamKey sys' name' ↔ sys = sys' ∧ name = name' := by
  simp [ownTeamKey, String.ext_iff]

namespace Store

variable {k : Kind} {sys name : String} {s t : Store} {r q : Record k}

/-- While the own team is stored, the Director is stored and holds its finalizer. -/
def Guards (sys name : String) (s : Store) : Prop :=
  s.Stored (ownTeamKey sys name) →
    ∃ r : Record .director, s.Finds sys name r ∧ r.hasFinalizer = true

namespace Guards

theorem of_get? (h : s.Guards sys name)
    (hdirector : t.get? (directorKey sys name) = s.get? (directorKey sys name))
    (hteam : t.Stored (ownTeamKey sys name) → s.Stored (ownTeamKey sys name)) :
    t.Guards sys name := by
  intro hstored
  obtain ⟨r, hr, hf⟩ := h (hteam hstored)
  exact ⟨r, hdirector.trans hr, hf⟩

/-- A write keeps the guard unless it takes the finalizer of the Director. -/
theorem accept (h : s.Guards sys name) (hr : s.Holds r) (hk : q.key = r.key)
    (hf : r.key = directorKey sys name → r.hasFinalizer = true → q.hasFinalizer = true) :
    (s.accept q).Guards sys name := by
  by_cases hkey : r.key = directorKey sys name
  · obtain rfl : k = .director := congrArg Key.kind hkey
    have hne : ownTeamKey sys name ≠ q.key := by
      rw [hk, hkey]
      exact ownTeamKey_ne_directorKey sys name sys name
    intro hstored
    rw [Stored, get?_accept_of_ne s hne] at hstored
    obtain ⟨d, hd, hfd⟩ := h hstored
    obtain rfl : d = r := hd.unique (hr.finds hkey)
    have hq : q.hasFinalizer = true := hf hkey hfd
    rw [accept_eq_keep s fun _ => Record.finalizers_ne_nil hq]
    exact ⟨q, (holds_keep s q).finds (hk.trans hkey), hq⟩
  · have hne : directorKey sys name ≠ q.key := hk ▸ Ne.symm hkey
    refine h.of_get? (get?_accept_of_ne s hne) fun hstored => ?_
    by_cases hteam : ownTeamKey sys name = q.key
    · rw [hteam, hk]
      exact hr.stored
    · rwa [Stored, get?_accept_of_ne s hteam] at hstored

/-- Owners may create anything but the own team. -/
theorem create (h : s.Guards sys name) {r : AnyRecord}
    (hr : r.key = ownTeamKey sys name → s.Stored r.key) :
    (Store.create r s).2.Guards sys name := by
  intro hstored
  have hteam : s.Stored (ownTeamKey sys name) := by
    obtain ⟨q, hq⟩ := Option.isSome_iff_exists.1 hstored
    rcases get?_of_create hq with hold | ⟨-, hkey, -⟩
    · rw [Stored, hold]
      rfl
    · rw [hkey]
      exact hr hkey.symm
  obtain ⟨d, hd, hf⟩ := h hteam
  exact ⟨d, get?_create_of_some hd r, hf⟩

theorem delete (hs : s.WellFormed) (h : s.Guards sys name) (now : Instant) (key : Key) :
    (Store.delete now key s).2.Guards sys name := by
  rcases delete_eq hs now key with hd | ⟨k, r, hr, hd⟩
  · rwa [hd]
  · rw [hd]
    exact h.accept hr rfl fun _ hf => hf

theorem update (hs : s.WellFormed) (h : s.Guards sys name) {r : AnyRecord}
    (hf : r.key = directorKey sys name → ∀ q, s.get? r.key = some q →
      r.metadata.version = q.metadata.version → q.hasFinalizer = true → r.hasFinalizer = true) :
    (Store.update r s).2.Guards sys name := by
  rcases update_cases hs r with hu | ⟨k, p, incoming, hp, rfl, hk, hv, hu⟩
  · rwa [hu]
  · rw [hu]
    refine h.accept hp hk fun hkey hfp => ?_
    have hstored : s.get? incoming.key = some ⟨k, p⟩ := hk ▸ hp
    exact hf (hk.trans hkey) ⟨k, p⟩ hstored hv hfp

end Guards

end Store

variable {sys name : String} {w : World Store Secrets}

/-- A reconcile leaves other records alone, save for the own team of a Director. -/
theorem get?_reconcile_of_ne (sys : String) (hw : w.records.WellFormed) {key key' : Key}
    (hne : key' ≠ key)
    (hteam : key.kind = .director → key' ≠ ownTeamKey key.ns key.name) :
    (reconcile sys key w).2.records.get? key' = w.records.get? key' := by
  cases hg : w.records.get? key with
  | none => rw [reconcile_of_none hg]
  | some q =>
    obtain ⟨k, r⟩ := q
    obtain rfl : r.key = key := hw.key_eq hg
    obtain ⟨t, ht, hsame⟩ := reconcile_tends sys hw hg
    rw [hsame key' hteam, ht.get?_of_ne hne]

/-- The Director gets its finalizer before its team, and lets go of it after its team is gone. -/
theorem Reconcile.director_guards {r : Record .director} (hr : w.records.Holds r)
    (hkey : r.key = directorKey sys name) (h : w.records.Guards sys name) :
    (director r w).2.records.Guards sys name := by
  have hteam : r.ownTeam.key = ownTeamKey sys name := by
    obtain ⟨hns, hname⟩ : r.metadata.ns = sys ∧ r.metadata.name = name := by
      simpa [Record.key, directorKey] using hkey
    rw [key_ownTeam, hns, hname]
  rw [director]
  split
  · rw [removeDirector_eq hr]
    split
    · next hf =>
      split
      · exact fun _ => ⟨r, (holds_withoutTeam hr).finds hkey, hf⟩
      · next hgone =>
        intro hstored
        have hne : ownTeamKey sys name ≠ r.released.key := hteam ▸ ownTeam_key_ne r
        have hsame := (withoutTeam r w).records.get?_accept_of_ne hne
        have hthere : ((withoutTeam r w).records.accept r.released).Stored (ownTeamKey sys name) :=
          hstored
        rw [Store.Stored, hsame, ← hteam] at hthere
        exact absurd hthere hgone
    · exact h
  · rw [establishDirector_eq hr]
    intro _
    have hg : (w.records.keep r.guarded).get? (directorKey sys name) =
        some ⟨.director, r.guarded⟩ :=
      (Store.holds_keep w.records r.guarded).finds ((Record.key_guarded r).trans hkey)
    exact ⟨r.guarded, Store.get?_create_of_some hg r.ownTeam, r.hasFinalizer_guarded⟩

theorem reconcile_guards (hw : w.records.WellFormed) (h : w.records.Guards sys name) (key : Key) :
    (reconcile sys key w).2.records.Guards sys name := by
  by_cases hkey : key = directorKey sys name
  · subst hkey
    cases hg : w.records.get? (directorKey sys name) with
    | none => rwa [reconcile_of_none hg]
    | some q =>
      obtain ⟨k, r⟩ := q
      have hk : r.key = directorKey sys name := hw.key_eq hg
      obtain rfl : k = .director := congrArg Key.kind hk
      have hr : w.records.Holds r := hw.holds hg
      have hplaced : ¬Reconcile.Misplaced sys r := fun hm => hm.2 (congrArg Key.ns hk)
      rw [← hk, reconcile_of_director hr hplaced]
      exact Reconcile.director_guards hr hk h
  · have hother : key.kind = .director → ownTeamKey sys name ≠ ownTeamKey key.ns key.name := by
      intro hkind heq
      obtain ⟨hns, hname⟩ := ownTeamKey_inj.1 heq
      exact hkey (by rw [directorKey, hns, hname, ← hkind])
    have hdirector := get?_reconcile_of_ne sys hw (Ne.symm hkey) fun _ =>
      (ownTeamKey_ne_directorKey key.ns key.name sys name).symm
    refine h.of_get? hdirector fun hstored => ?_
    by_cases hteam : ownTeamKey sys name = key
    · subst hteam
      rw [Store.Stored, Option.isSome_iff_ne_none]
      intro hn
      rw [reconcile_of_none hn, Store.Stored, hn] at hstored
      cases hstored
    · rwa [Store.Stored, get?_reconcile_of_ne sys hw hteam hother] at hstored

namespace Record

variable {k : Kind} {r q : Record k}

/-- The Director that a team is bound to, or will be when it is frozen. -/
def boundTo? : {k : Kind} → Record k → Option String
  | .team, r => some (r.effective : TeamSpec).director
  | _, _ => none

theorem Advances.boundTo? (h : r.Advances q) : q.boundTo? = r.boundTo? := by
  cases k with
  | team =>
    have hspec : q.spec = r.spec := h.spec rfl
    have heffective : q.effective = r.effective := by
      rcases h.frozen with hf | ⟨hn, hf⟩
      · rw [effective, effective, hf, hspec]
      · rw [effective_of_frozen? hf, effective, hn]
        rfl
    simp only [Record.boundTo?, heffective]
  | _ => rfl

theorem boundTo?_of_status (hs : q.status = r.status) (hspec : q.spec = r.spec) :
    q.boundTo? = r.boundTo? := by
  cases k with
  | team => simp only [boundTo?, effective, frozen?, hs, hspec]
  | _ => rfl

end Record

namespace Store

variable {k : Kind} {sys name : String} {s : Store} {r q : Record k}

/-- The own team is bound to its Director. -/
def Binds (sys name : String) (s : Store) : Prop :=
  ∀ q, s.get? (ownTeamKey sys name) = some q → q.record.boundTo? = some name

namespace Binds

theorem keep (h : s.Binds sys name) (hr : s.Holds r) (hk : q.key = r.key)
    (hb : r.key = ownTeamKey sys name → q.boundTo? = r.boundTo?) : (s.keep q).Binds sys name := by
  intro p hp
  rw [get?_keep] at hp
  split at hp
  · next hkey =>
    cases hp
    have hold := h ⟨k, r⟩ (by rw [hkey, hk, hr])
    rw [hb (hk ▸ hkey.symm)]
    exact hold
  · exact h p hp

theorem accept (h : s.Binds sys name) (hr : s.Holds r) (hk : q.key = r.key)
    (hb : r.key = ownTeamKey sys name → q.boundTo? = r.boundTo?) :
    (s.accept q).Binds sys name := by
  unfold Store.accept
  split
  · intro p hp
    rw [get?_without] at hp
    split at hp
    · cases hp
    · exact h p hp
  · exact h.keep hr hk hb

theorem create (h : s.Binds sys name) {r : AnyRecord} (hr : r.key = ownTeamKey sys name →
    s.get? r.key = none → r.record.boundTo? = some name) :
    (Store.create r s).2.Binds sys name := by
  intro p hp
  rcases get?_of_create hp with hold | ⟨hn, hkey, rfl⟩
  · exact h p hold
  · have hbound := hr hkey.symm (hkey ▸ hn)
    rw [← hbound]
    exact Record.boundTo?_of_status rfl rfl

theorem delete (hs : s.WellFormed) (h : s.Binds sys name) (now : Instant) (key : Key) :
    (Store.delete now key s).2.Binds sys name := by
  rcases delete_eq hs now key with hd | ⟨k, r, hr, hd⟩
  · rwa [hd]
  · rw [hd]
    exact h.accept hr rfl fun _ => Record.boundTo?_of_status rfl rfl

end Binds

end Store

namespace Effect

variable {key : Key} {u : World Store Secrets}

theorem binds (hw : w.records.WellFormed) (h : w.records.Binds sys name) (he : Effect w key u) :
    u.records.Binds sys name := by
  have hreleased {k : Kind} (q : Record k) : q.released.boundTo? = q.boundTo? :=
    Record.boundTo?_of_status rfl rfl
  cases he with
  | unchanged => exact h
  | advanced s hr hq => exact h.keep hr hq.key fun _ => hq.boundTo?
  | established hr hq hf hp ho hd => exact h.keep hr hq.key fun _ => hq.boundTo?
  | @removed a r q d hr hq hf hd =>
    exact h.accept hr hq.key fun _ => (hreleased q).trans hq.boundTo?
  | registered hr hq hf hi => exact h.keep hr hq.key fun _ => hq.boundTo?
  | @dismissed r s i hr hf hi => exact h.accept hr rfl fun _ => hreleased r
  | @adopted r hr =>
    have hg : r.guarded.boundTo? = r.boundTo? := rfl
    refine (h.keep hr r.key_guarded fun _ => hg).create fun hkey _ => ?_
    have hown : ownTeamKey r.metadata.ns r.metadata.name = ownTeamKey sys name := hkey
    rw [← (ownTeamKey_inj.1 hown).2]
    rfl
  | disowned hr => exact h.delete hw _ _
  | @abandoned r hr =>
    have hheld := Reconcile.holds_withoutTeam hr
    exact (h.delete hw w.now r.ownTeam.key).accept hheld rfl fun _ => hreleased r

end Effect

/-- Owners neither bring the own team into being nor take the Director's finalizer away. A creation
under a taken key, or an update of an old copy, is refused and does neither. -/
def Move.SparesDirector (sys name : String) (w : World Store Secrets) : Move → Prop
  | .create r => r.key = ownTeamKey sys name → w.records.Stored r.key
  | .update r => r.key = directorKey sys name → ∀ q, w.records.get? r.key = some q →
      r.metadata.version = q.metadata.version → q.hasFinalizer = true → r.hasFinalizer = true
  | .delete _ | .reconcile _ | .directorFails _ | .identityFails _ | .clock _ => True

/-- Owners leave the Director of the own team alone until the team is frozen. -/
def Move.SparesBinding (sys name : String) (w : World Store Secrets) : Move → Prop
  | .update ⟨.team, t⟩ => t.key = ownTeamKey sys name → ∀ q : Record .team, w.records.Holds q →
      q.key = t.key → t.metadata.version = q.metadata.version → q.frozen? = none →
      (t.spec : TeamSpec).director = (q.spec : TeamSpec).director
  | _ => True

theorem act_guards {m : Move} (hw : w.records.WellFormed) (h : w.records.Guards sys name)
    (hm : m.SparesDirector sys name w) : (m.act sys w).records.Guards sys name := by
  cases m with
  | create r => exact h.create hm
  | update r => exact h.update hw hm
  | delete key => exact h.delete hw w.now key
  | reconcile key => exact reconcile_guards hw h key
  | directorFails | identityFails | clock => exact h

theorem update_binds {r : AnyRecord} (hw : w.records.WellFormed) (h : w.records.Binds sys name)
    (hm : (Move.update r).SparesBinding sys name w) :
    (Store.update r w.records).2.Binds sys name := by
  rcases Store.update_cases hw r with hu | ⟨k, p, incoming, hp, rfl, hk, hv, hu⟩
  · rwa [hu]
  · rw [hu]
    refine h.accept hp hk fun hkey => ?_
    obtain rfl : k = .team := congrArg Key.kind hkey
    cases hf : p.frozen? with
    | none =>
      have hspec : (incoming.spec : TeamSpec).director = (p.spec : TeamSpec).director :=
        hm (hk.trans hkey) p hp hk.symm hv hf
      have hmerged : (p.merged incoming).frozen? = none := hf
      simp only [Record.boundTo?, Record.effective, hf, hmerged, Option.getD_none]
      exact congrArg some hspec
    | some spec =>
      have hmerged : (p.merged incoming).frozen? = some spec := hf
      simp only [Record.boundTo?, Record.effective_of_frozen? hf,
        Record.effective_of_frozen? hmerged]

theorem act_binds {m : Move} (hw : w.records.WellFormed) (h : w.records.Binds sys name)
    (hm : m.SparesDirector sys name w) (hb : m.SparesBinding sys name w) :
    (m.act sys w).records.Binds sys name := by
  cases m with
  | create r =>
    refine h.create fun hkey hn => ?_
    have hstored : w.records.Stored r.key := hm hkey
    rw [Store.Stored, hn] at hstored
    cases hstored
  | update r => exact update_binds hw h hb
  | delete key => exact h.delete hw w.now key
  | reconcile key =>
    have he := (reconcile_effect hw sys key).binds hw h
    exact he
  | directorFails | identityFails | clock => exact h

/-- Each move of the run meets this condition in the world that it finds. -/
def Throughout (sys : String) (P : World Store Secrets → Move → Prop) (es : List Event)
    (w : World Store Secrets) : Prop :=
  ∀ i (h : i < (moves sys es w).length),
    P (stateAt sys (moves sys es w) w i) (moves sys es w)[i]

section

variable {P Q : World Store Secrets → Move → Prop} {es : List Event}

theorem Throughout.and (h : Throughout sys P es w) (h' : Throughout sys Q es w) :
    Throughout sys (fun v m => P v m ∧ Q v m) es w :=
  fun i hi => ⟨h i hi, h' i hi⟩

/-- Reconciles are never restricted. -/
theorem Throughout.of_forall (howner : ∀ m, .move m ∈ es → ∀ v, P v m)
    (hreconcile : ∀ key v, P v (.reconcile key)) : Throughout sys P es w := by
  intro i hi
  rcases mem_moves (List.getElem_mem hi) with hm | ⟨key, hm⟩
  · exact howner _ hm _
  · rw [hm]
    exact hreconcile key _

/-- What every move of the run keeps holds between any two of them. -/
theorem Throughout.invariant {I : World Store Secrets → Prop}
    (hstep : ∀ v m, I v → P v m → I (m.act sys v)) (h : I w) (hP : Throughout sys P es w) {i : Nat}
    (hi : i ≤ (moves sys es w).length) : I (stateAt sys (moves sys es w) w i) := by
  induction i with
  | zero => exact h
  | succ i ih =>
    have hi' : i < (moves sys es w).length := hi
    rw [stateAt_succ hi']
    exact hstep _ _ (ih (Nat.le_of_lt hi')) (hP i hi')

end

namespace Credentials

variable {e : ReconcileError}

/-- The admin client of a stored Director lacks at most its secret. -/
theorem identityEndpoint_error {d : Record .director} (hd : w.records.Finds sys name d)
    (he : (identityEndpoint sys name w).1 = .error e) : ∃ cause, e = .secret cause := by
  have hspec : director sys name w = (.ok d.spec, w) :=
    director_eq_ok_iff.2 ⟨⟨d, hd, rfl⟩, rfl⟩
  rw [identityEndpoint, Step.bind_ok hspec] at he
  unfold adminIdentity secret World.onSecrets at he
  rcases hs : SecretStore.get ⟨sys, (d.spec : DirectorSpec).uaaClientSecret⟩ w.secrets with
    ⟨cause | value, s⟩
  · rw [Step.bind_error (Step.onPart_error hs)] at he
    cases he
    exact ⟨cause, rfl⟩
  · rw [Step.bind_ok (Step.onPart_ok hs)] at he
    cases he

end Credentials

namespace Reconcile

variable {t : Record .team} {d : Record .director} {e : ReconcileError}

/-- A bound team finds the identity service through its Director: at most its own frozen spec, a
secret or a certificate is missing. -/
theorem askIdentityOf_error (hb : t.boundTo? = some name) (hd : w.records.Finds sys name d)
    (he : (askIdentityOf sys t w).1 = .error e) : e.isConfiguration = false := by
  rw [askIdentityOf] at he
  cases hf : t.frozen? with
  | none =>
    have hdirector : Credentials.frozenDirector t = .error (.unfrozen t.key) := by
      simp [Credentials.frozenDirector, Credentials.frozenOf, hf, bind, Except.bind]
    rw [hdirector, Step.bind_error (Step.ofExcept_apply _ w)] at he
    cases he
    rfl
  | some spec =>
    have hname : (spec : TeamSpec).director = name := by
      simpa [Record.boundTo?, Record.effective_of_frozen? hf] using hb
    have hdirector : Credentials.frozenDirector t = .ok name :=
      Credentials.frozenDirector_eq_ok_iff.2 ⟨spec, hf, hname⟩
    rw [hdirector, Step.bind_ok (Step.ofExcept_apply _ w)] at he
    rcases hi : Credentials.identityEndpoint sys name w with ⟨cause | endpoint, v⟩
    · obtain ⟨cause', rfl⟩ := Credentials.identityEndpoint_error hd (congrArg Prod.fst hi)
      rw [Step.bind_error hi] at he
      cases he
      rfl
    · rw [Step.bind_ok hi, World.askIdentity, World.askClient, Step.mk_apply] at he
      split at he
      · cases he
        rfl
      · cases he

theorem establishTeam_error (ht : w.records.Holds t) (hb : t.boundTo? = some name)
    (hd : w.records.Finds sys name d) (he : (establishTeam sys t w).1 = .error e) :
    e.isConfiguration = false := by
  have houtcome := congrArg Prod.fst (establishTeam_outcome sys ht)
  have hfst : (World.outcome (establishTeam sys t) w).1 = .error e := he
  rw [hfst] at houtcome
  have hbound : (t.frozenBy sys).boundTo? = some name :=
    (t.advances_frozenBy sys).boundTo?.trans hb
  have hfinds : (w.keep (t.frozenBy sys)).records.Finds sys name d :=
    (Store.SameDirectors.keep (by decide) w.records (t.frozenBy sys) sys name).trans hd
  cases hask : (askIdentityOf sys (t.frozenBy sys) (w.keep (t.frozenBy sys))).1 with
  | error cause =>
    simp only [hask] at houtcome
    cases houtcome
    exact askIdentityOf_error hbound hfinds hask
  | ok _ =>
    simp only [hask] at houtcome
    split at houtcome
    · cases houtcome
      rfl
    · split at houtcome
      · cases houtcome
        rfl
      · cases houtcome

theorem removeTeam_error (ht : w.records.Holds t) (hb : t.boundTo? = some name)
    (hd : w.records.Finds sys name d) (he : (removeTeam sys t w).1 = .error e) :
    e.isConfiguration = false := by
  have houtcome := congrArg Prod.fst (removeTeam_outcome sys ht)
  have hfst : (World.outcome (removeTeam sys t) w).1 = .error e := he
  rw [hfst] at houtcome
  split at houtcome
  · cases hask : (askIdentityOf sys t w).1 with
    | error cause =>
      simp only [hask] at houtcome
      cases houtcome
      exact askIdentityOf_error hb hd hask
    | ok _ =>
      simp only [hask] at houtcome
      split at houtcome
      · cases houtcome
        rfl
      · cases houtcome
  · cases houtcome

end Reconcile

/-- With the guard and the binding, reconciling the own team never misses its Director. -/
theorem reconcile_ownTeam_error (hw : w.records.WellFormed) (hg : w.records.Guards sys name)
    (hb : w.records.Binds sys name) {e : ReconcileError}
    (he : (reconcile sys (ownTeamKey sys name) w).1 = .error e) : e.isConfiguration = false := by
  cases hget : w.records.get? (ownTeamKey sys name) with
  | none =>
    rw [reconcile_of_none hget] at he
    cases he
  | some q =>
    obtain ⟨k, t⟩ := q
    have hkey : t.key = ownTeamKey sys name := hw.key_eq hget
    obtain rfl : k = .team := congrArg Key.kind hkey
    have ht : w.records.Holds t := hw.holds hget
    obtain ⟨d, hd, -⟩ := hg (hkey ▸ ht.stored)
    rw [← hkey, reconcile_of_team ht, Reconcile.team] at he
    split at he
    · exact Reconcile.removeTeam_error ht (hb _ hget) hd he
    · exact Reconcile.establishTeam_error ht (hb _ hget) hd he

/-- In any run that starts without the own team of a Director, and in which owners neither bring
that team into being nor take the Director's finalizer away: whenever the team is stored, the
Director is stored and holds its finalizer. And if owners leave the team's Director alone until the
team is frozen, reconciling the team never fails for want of its Director, or for any other problem
of configuration. The states are those between the moves of the run, the reconciles of a sweep one
by one. -/
theorem director_outlasts_team (sys name : String) {es : List Event} (hw : w.records.WellFormed)
    (hnew : ¬w.records.Stored (ownTeamKey sys name))
    (hspares : Throughout sys (Move.SparesDirector sys name) es w) :
    let ms := moves sys es w
    stateAt sys ms w ms.length = run sys es w ∧
    (∀ i ≤ ms.length, (stateAt sys ms w i).records.Stored (ownTeamKey sys name) →
      ∃ r : Record .director,
        (stateAt sys ms w i).records.get? (directorKey sys name) = some ⟨.director, r⟩ ∧
          r.hasFinalizer = true) ∧
    (Throughout sys (Move.SparesBinding sys name) es w → ∀ i ≤ ms.length, ∀ e,
      (reconcile sys (ownTeamKey sys name) (stateAt sys ms w i)).1 = .error e →
        e.isConfiguration = false ∧ e ≠ .configuration (.noDirector name sys)) := by
  intro ms
  have hguards : w.records.Guards sys name := fun h => absurd h hnew
  have hbinds : w.records.Binds sys name := by
    intro q hq
    have hstored : w.records.Stored (ownTeamKey sys name) := by simp [Store.Stored, hq]
    exact absurd hstored hnew
  have hinvariant : ∀ i ≤ ms.length, (stateAt sys ms w i).records.Guards sys name := by
    intro i hi
    have hboth := hspares.invariant
      (I := fun v => v.records.WellFormed ∧ v.records.Guards sys name)
      (fun v m hv hm => ⟨act_wellFormed sys m hv.1, act_guards hv.1 hv.2 hm⟩) ⟨hw, hguards⟩ hi
    exact hboth.2
  refine ⟨?_, hinvariant, ?_⟩
  · rw [stateAt_length, after_moves]
  · intro hbinding i hi e he
    have hboth := (hspares.and hbinding).invariant
      (I := fun v => v.records.WellFormed ∧ v.records.Binds sys name)
      (fun v m hv hm => ⟨act_wellFormed sys m hv.1, act_binds hv.1 hv.2 hm.1 hm.2⟩) ⟨hw, hbinds⟩ hi
    have hkind := reconcile_ownTeam_error hboth.1 (hinvariant i hi) hboth.2 he
    refine ⟨hkind, ?_⟩
    rintro rfl
    cases hkind

namespace Small

/-- The Director gets its team, the team is reconciled, and the Director is deleted. It is
reconciled once more while the identity service rejects every call. -/
def retirement : List Event :=
  [.move (.create director), .move (.reconcile director.key),
    .move (.reconcile (ownTeamKey "sys" "d")), .move (.delete director.key),
    .move (.identityFails (some "down")), .move (.reconcile director.key)]

def retiring : World Store Secrets := run "sys" retirement blank

end Small

/-- The team waits for the identity service, and the Director waits for the team. -/
theorem director_outlasts_team_small :
    Small.retiring.records.Stored (ownTeamKey "sys" "d") ∧
    (∃ r : Record .director,
      Small.retiring.records.get? (directorKey "sys" "d") = some ⟨.director, r⟩ ∧
        r.hasFinalizer = true) ∧
    ∃ e, (reconcile "sys" (ownTeamKey "sys" "d") Small.retiring).1 = .error e ∧
      e.isConfiguration = false := by
  have hspares : Throughout "sys" (Move.SparesDirector "sys" "d") Small.retirement Small.blank := by
    refine .of_forall (fun m hm v => ?_) fun _ _ => trivial
    simp [Small.retirement] at hm
    rcases hm with rfl | rfl | rfl | rfl | rfl | rfl
    · exact fun hkey => Kind.noConfusion (congrArg Key.kind hkey)
    all_goals trivial
  have hbinding : Throughout "sys" (Move.SparesBinding "sys" "d") Small.retirement Small.blank := by
    refine .of_forall (fun m hm v => ?_) fun _ _ => trivial
    simp [Small.retirement] at hm
    rcases hm with rfl | rfl | rfl | rfl | rfl | rfl <;> trivial
  have hnew : ¬Small.blank.records.Stored (ownTeamKey "sys" "d") := nofun
  obtain ⟨hlast, hdirector, herror⟩ :=
    director_outlasts_team "sys" "d" Store.wellFormed_empty hnew hspares
  have hstored : Small.retiring.records.Stored (ownTeamKey "sys" "d") := by rfl
  have hfails : ((reconcile "sys" (ownTeamKey "sys" "d") Small.retiring).1).isOk = false := by rfl
  have hnow := hdirector _ (Nat.le_refl _)
  have hnever := herror hbinding _ (Nat.le_refl _)
  rw [hlast] at hnow hnever
  refine ⟨hstored, hnow hstored, ?_⟩
  cases hx : (reconcile "sys" (ownTeamKey "sys" "d") Small.retiring).1 with
  | error e => exact ⟨e, rfl, (hnever e hx).1⟩
  | ok _ =>
    rw [hx] at hfails
    cases hfails

end Reconciliation
