import Reconciliation.Proofs.Step
import Reconciliation.Remote.Director
import Reconciliation.Remote.Identity
import Reconciliation.Secret

namespace Reconciliation

namespace Director

variable {α : Type} {d : Director} {call : DirectorCall}
  {f : Director → Except RemoteError α × Director}

theorem answer_of_none (h : d.failure = none) :
    answer call f d = f { d with calls := d.calls ++ [call] } := by
  simp only [answer, Step.mk_apply, h]

theorem answer_of_some {reason : String} (h : d.failure = some reason) :
    answer call f d = (.error (.rejected reason), { d with calls := d.calls ++ [call] }) := by
  simp only [answer, Step.mk_apply, h]

/-- What a Director that answers makes of an object: nothing, if its upload address yields no
artifact. -/
def arrived? (d : Director) : RemoteObject → Option Director
  | .fragment name config => some { d with configs := d.configs.insert name config }
  | .release ref url _ =>
    if d.releases.contains ref then some d
    else (d.releaseSources.get? url).map fun got =>
      { d with releases := d.releases.insert got () }
  | .stemcell ref url _ =>
    if d.stemcells.contains ref then some d
    else (d.stemcellSources.get? url).map fun got =>
      { d with stemcells := d.stemcells.insert got () }
  | .deployment name manifest => some { d with deployments := d.deployments.insert name manifest }

theorem isSome_arrived?_release {url : String}
    (h : (d.releaseSources.get? url).isSome = true) (ref : ReleaseRef) (sha1 : String) :
    (d.arrived? (.release ref url sha1)).isSome = true := by
  simp only [arrived?]
  split
  · rfl
  · rwa [Option.isSome_map]

theorem isSome_arrived?_stemcell {url : String}
    (h : (d.stemcellSources.get? url).isSome = true) (ref : ReleaseRef) (sha1 : String) :
    (d.arrived? (.stemcell ref url sha1)).isSome = true := by
  simp only [arrived?]
  split
  · rfl
  · rwa [Option.isSome_map]

/-- The Director without the object. -/
def without (d : Director) : RemoteHandle → Director
  | .fragment name => { d with configs := d.configs.erase name }
  | .release ref => { d with releases := d.releases.erase ref }
  | .stemcell ref => { d with stemcells := d.stemcells.erase ref }
  | .deployment name => { d with deployments := d.deployments.erase name }

/-- A failing Director changes nothing but its log. -/
theorem ensure_of_some {reason : String} (h : d.failure = some reason) (o : RemoteObject) :
    ∃ calls, ensure o d = (.error (.rejected reason), { d with calls := calls }) := by
  cases o with
  | fragment name config =>
    have hc : updateCloudConfig name config d = _ := answer_of_some h
    exact ⟨_, hc⟩
  | deployment name manifest =>
    have hc : deploy name manifest d = _ := answer_of_some h
    exact ⟨_, hc⟩
  | release ref url sha1 =>
    have hc : hasRelease ref d = _ := answer_of_some h
    exact ⟨_, Step.bind_error hc _⟩
  | stemcell ref url sha1 =>
    have hc : hasStemcell ref d = _ := answer_of_some h
    exact ⟨_, Step.bind_error hc _⟩

theorem remove_of_some {reason : String} (h : d.failure = some reason) (o : RemoteHandle) :
    ∃ calls, remove o d = (.error (.rejected reason), { d with calls := calls }) := by
  cases o with
  | fragment name =>
    have hc : deleteCloudConfig name d = _ := answer_of_some h
    exact ⟨_, hc⟩
  | deployment name =>
    have hc : deleteDeployment name d = _ := answer_of_some h
    exact ⟨_, hc⟩
  | release ref =>
    have hc : hasRelease ref d = _ := answer_of_some h
    exact ⟨_, Step.bind_error hc _⟩
  | stemcell ref =>
    have hc : hasStemcell ref d = _ := answer_of_some h
    exact ⟨_, Step.bind_error hc _⟩

theorem uploadRelease_of_none (h : d.failure = none) (url sha1 : String) :
    (∃ got calls, d.releaseSources.get? url = some got ∧ uploadRelease url sha1 d =
        (.ok (), { d with releases := d.releases.insert got (), calls := calls })) ∨
      ∃ e calls, d.releaseSources.get? url = none ∧
        uploadRelease url sha1 d = (.error e, { d with calls := calls }) := by
  have hu : uploadRelease url sha1 d = _ := answer_of_none h
  cases hg : d.releaseSources.get? url with
  | some got =>
    refine .inl ⟨got, d.calls ++ [.uploadRelease url sha1], rfl, ?_⟩
    simp only [hu, hg]
  | none =>
    simp only [hg] at hu
    exact .inr ⟨_, _, rfl, hu⟩

theorem uploadStemcell_of_none (h : d.failure = none) (url sha1 : String) :
    (∃ got calls, d.stemcellSources.get? url = some got ∧ uploadStemcell url sha1 d =
        (.ok (), { d with stemcells := d.stemcells.insert got (), calls := calls })) ∨
      ∃ e calls, d.stemcellSources.get? url = none ∧
        uploadStemcell url sha1 d = (.error e, { d with calls := calls }) := by
  have hu : uploadStemcell url sha1 d = _ := answer_of_none h
  cases hg : d.stemcellSources.get? url with
  | some got =>
    refine .inl ⟨got, d.calls ++ [.uploadStemcell url sha1], rfl, ?_⟩
    simp only [hu, hg]
  | none =>
    simp only [hg] at hu
    exact .inr ⟨_, _, rfl, hu⟩

theorem ensure_of_none (h : d.failure = none) (o : RemoteObject) :
    (∃ d' calls, d.arrived? o = some d' ∧ ensure o d = (.ok (), { d' with calls := calls })) ∨
      ∃ e calls, d.arrived? o = none ∧ ensure o d = (.error e, { d with calls := calls }) := by
  cases o with
  | fragment name config =>
    have hc : updateCloudConfig name config d = _ := answer_of_none h
    exact .inl ⟨_, _, rfl, hc⟩
  | deployment name manifest =>
    have hc : deploy name manifest d = _ := answer_of_none h
    exact .inl ⟨_, _, rfl, hc⟩
  | release ref url sha1 =>
    have hc : hasRelease ref d = _ := answer_of_none h
    rw [ensure, Step.bind_ok hc]
    by_cases hh : d.releases.contains ref = true
    · refine .inl ⟨d, d.calls ++ [.hasRelease ref], by simp [arrived?, hh], ?_⟩
      simp [hh]
    · rcases uploadRelease_of_none (d := { d with calls := d.calls ++ [.hasRelease ref] }) h url
        sha1 with ⟨got, calls, hg, hu⟩ | ⟨e, calls, hg, hu⟩
      · have hg : d.releaseSources.get? url = some got := hg
        refine .inl ⟨{ d with releases := d.releases.insert got () }, calls, ?_, ?_⟩
        · simp [arrived?, hh, hg]
        · simpa [hh] using hu
      · have hg : d.releaseSources.get? url = none := hg
        refine .inr ⟨e, calls, ?_, ?_⟩
        · simp [arrived?, hh, hg]
        · simpa [hh] using hu
  | stemcell ref url sha1 =>
    have hc : hasStemcell ref d = _ := answer_of_none h
    rw [ensure, Step.bind_ok hc]
    by_cases hh : d.stemcells.contains ref = true
    · refine .inl ⟨d, d.calls ++ [.hasStemcell ref], by simp [arrived?, hh], ?_⟩
      simp [hh]
    · rcases uploadStemcell_of_none (d := { d with calls := d.calls ++ [.hasStemcell ref] }) h url
        sha1 with ⟨got, calls, hg, hu⟩ | ⟨e, calls, hg, hu⟩
      · have hg : d.stemcellSources.get? url = some got := hg
        refine .inl ⟨{ d with stemcells := d.stemcells.insert got () }, calls, ?_, ?_⟩
        · simp [arrived?, hh, hg]
        · simpa [hh] using hu
      · have hg : d.stemcellSources.get? url = none := hg
        refine .inr ⟨e, calls, ?_, ?_⟩
        · simp [arrived?, hh, hg]
        · simpa [hh] using hu

theorem remove_of_none (h : d.failure = none) (o : RemoteHandle) :
    ∃ calls, remove o d = (.ok (), { d.without o with calls := calls }) := by
  cases o with
  | fragment name =>
    have hc : deleteCloudConfig name d = _ := answer_of_none h
    exact ⟨_, hc⟩
  | deployment name =>
    have hc : deleteDeployment name d = _ := answer_of_none h
    exact ⟨_, hc⟩
  | release ref =>
    have hc : hasRelease ref d = _ := answer_of_none h
    rw [remove, Step.bind_ok hc]
    by_cases hh : d.releases.contains ref = true
    · have hx : deleteRelease ref { d with calls := d.calls ++ [.hasRelease ref] } = _ :=
        answer_of_none h
      simp only [hh, if_true]
      exact ⟨_, hx⟩
    · refine ⟨d.calls ++ [.hasRelease ref], ?_⟩
      simp [hh, without, Table.erase_eq_self (t := d.releases) (k := ref) (by simpa using hh)]
  | stemcell ref =>
    have hc : hasStemcell ref d = _ := answer_of_none h
    rw [remove, Step.bind_ok hc]
    by_cases hh : d.stemcells.contains ref = true
    · have hx : deleteStemcell ref { d with calls := d.calls ++ [.hasStemcell ref] } = _ :=
        answer_of_none h
      simp only [hh, if_true]
      exact ⟨_, hx⟩
    · refine ⟨d.calls ++ [.hasStemcell ref], ?_⟩
      simp [hh, without, Table.erase_eq_self (t := d.stemcells) (k := ref) (by simpa using hh)]

theorem ensure_ok {o : RemoteObject} {d' : Director} (h : ensure o d = (.ok (), d')) :
    d.failure = none ∧ ∃ d₁ calls, d.arrived? o = some d₁ ∧ d' = { d₁ with calls := calls } := by
  rcases Option.eq_none_or_eq_some d.failure with hf | ⟨reason, hf⟩
  · rcases ensure_of_none hf o with ⟨d₁, calls, ha, he⟩ | ⟨e, calls, -, he⟩ <;> rw [he] at h
    · cases h
      exact ⟨hf, d₁, calls, ha, rfl⟩
    · cases h
  · obtain ⟨calls, he⟩ := ensure_of_some hf o
    rw [he] at h
    cases h

theorem ensure_error {o : RemoteObject} {d' : Director} {e : RemoteError}
    (h : ensure o d = (.error e, d')) : ∃ calls, d' = { d with calls := calls } := by
  rcases Option.eq_none_or_eq_some d.failure with hf | ⟨reason, hf⟩
  · rcases ensure_of_none hf o with ⟨d₁, calls, ha, he⟩ | ⟨e, calls, -, he⟩ <;> rw [he] at h
    · cases h
    · cases h
      exact ⟨calls, rfl⟩
  · obtain ⟨calls, he⟩ := ensure_of_some hf o
    rw [he] at h
    cases h
    exact ⟨calls, rfl⟩

theorem remove_ok {o : RemoteHandle} {d' : Director} (h : remove o d = (.ok (), d')) :
    ∃ calls, d' = { d.without o with calls := calls } := by
  rcases Option.eq_none_or_eq_some d.failure with hf | ⟨reason, hf⟩
  · obtain ⟨calls, he⟩ := remove_of_none hf o
    rw [he] at h
    cases h
    exact ⟨calls, rfl⟩
  · obtain ⟨calls, he⟩ := remove_of_some hf o
    rw [he] at h
    cases h

theorem remove_error {o : RemoteHandle} {d' : Director} {e : RemoteError}
    (h : remove o d = (.error e, d')) : ∃ calls, d' = { d with calls := calls } := by
  rcases Option.eq_none_or_eq_some d.failure with hf | ⟨reason, hf⟩
  · obtain ⟨calls, he⟩ := remove_of_none hf o
    rw [he] at h
    cases h
  · obtain ⟨calls, he⟩ := remove_of_some hf o
    rw [he] at h
    cases h
    exact ⟨calls, rfl⟩

/-- What arrived arrives again without a change; an address that yields another artifact than the
one asked for yields the same one again. -/
theorem arrived?_again {o : RemoteObject} {d₁ : Director} (h : d.arrived? o = some d₁) :
    d₁.arrived? o = some d₁ := by
  cases o with
  | fragment name config =>
    cases h
    simp [arrived?, Table.insert_insert]
  | deployment name manifest =>
    cases h
    simp [arrived?, Table.insert_insert]
  | release ref url sha1 =>
    by_cases hh : d.releases.contains ref = true
    · simp only [arrived?, hh, if_true, Option.some.injEq] at h
      simp [arrived?, ← h, hh]
    · obtain ⟨got, hg, rfl⟩ : ∃ got, d.releaseSources.get? url = some got ∧
          { d with releases := d.releases.insert got () } = d₁ := by
        simpa [arrived?, hh] using h
      simp [arrived?, hg, Table.insert_insert]
  | stemcell ref url sha1 =>
    by_cases hh : d.stemcells.contains ref = true
    · simp only [arrived?, hh, if_true, Option.some.injEq] at h
      simp [arrived?, ← h, hh]
    · obtain ⟨got, hg, rfl⟩ : ∃ got, d.stemcellSources.get? url = some got ∧
          { d with stemcells := d.stemcells.insert got () } = d₁ := by
        simpa [arrived?, hh] using h
      simp [arrived?, hg, Table.insert_insert]

/-- What an upload reads is left alone by it. -/
theorem sources_arrived? {o : RemoteObject} {d₁ : Director} (h : d.arrived? o = some d₁) :
    d₁.releaseSources = d.releaseSources ∧ d₁.stemcellSources = d.stemcellSources ∧
      d₁.failure = d.failure := by
  cases o with
  | fragment name config =>
    cases h
    exact ⟨rfl, rfl, rfl⟩
  | deployment name manifest =>
    cases h
    exact ⟨rfl, rfl, rfl⟩
  | release ref url sha1 | stemcell ref url sha1 =>
    simp only [arrived?] at h
    split at h
    · cases h
      exact ⟨rfl, rfl, rfl⟩
    · obtain ⟨got, -, rfl⟩ := Option.map_eq_some_iff.1 h
      exact ⟨rfl, rfl, rfl⟩

theorem sources_without (o : RemoteHandle) :
    (d.without o).releaseSources = d.releaseSources ∧
      (d.without o).stemcellSources = d.stemcellSources := by
  cases o <;> exact ⟨rfl, rfl⟩

theorem arrived?_calls (o : RemoteObject) (calls : List DirectorCall) :
    ({ d with calls := calls }).arrived? o =
      (d.arrived? o).map fun d' => { d' with calls := calls } := by
  cases o with
  | fragment name config => rfl
  | deployment name manifest => rfl
  | release ref url sha1 | stemcell ref url sha1 =>
    simp only [arrived?]
    split
    · rfl
    · rw [Option.map_map]
      rfl

theorem ensure_again {o : RemoteObject} {d' : Director} (h : ensure o d = (.ok (), d')) :
    ∃ calls, ensure o d' = (.ok (), { d' with calls := calls }) := by
  obtain ⟨hf, d₁, calls, ha, rfl⟩ := ensure_ok h
  have hf₁ : d₁.failure = none := (sources_arrived? ha).2.2.trans hf
  have hagain : ({ d₁ with calls := calls }).arrived? o = some { d₁ with calls := calls } := by
    rw [arrived?_calls, arrived?_again ha]
    rfl
  rcases ensure_of_none (d := { d₁ with calls := calls }) hf₁ o with
    ⟨d₂, calls', ha', he⟩ | ⟨e, calls', ha', -⟩
  · rw [hagain] at ha'
    cases ha'
    exact ⟨calls', he⟩
  · rw [hagain] at ha'
    cases ha'

/-- The Director has an object under this handle. -/
def Has (d : Director) : RemoteHandle → Prop
  | .fragment name => d.configs.contains name = true
  | .release ref => d.releases.contains ref = true
  | .stemcell ref => d.stemcells.contains ref = true
  | .deployment name => d.deployments.contains name = true

/-- Where an object is uploaded from, the address yields that object and no other. -/
def Yields (d : Director) : RemoteObject → Prop
  | .release ref url _ => ∀ got, d.releaseSources.get? url = some got → got = ref
  | .stemcell ref url _ => ∀ got, d.stemcellSources.get? url = some got → got = ref
  | .fragment .. | .deployment .. => True

end Director

def RemoteObject.handle : RemoteObject → RemoteHandle
  | .fragment name _ => .fragment name
  | .release ref _ _ => .release ref
  | .stemcell ref _ _ => .stemcell ref
  | .deployment name _ => .deployment name

/-- The name that an object bears; releases and stemcells are not named after records. -/
def RemoteHandle.name? : RemoteHandle → Option String
  | .fragment name | .deployment name => some name
  | .release _ | .stemcell _ => none

namespace Director

variable {d : Director}

theorem has_calls (calls : List DirectorCall) (o : RemoteHandle) :
    ({ d with calls := calls }).Has o ↔ d.Has o := by
  cases o <;> rfl

theorem has_arrived? {o : RemoteObject} {d₁ : Director} (hy : d.Yields o)
    (h : d.arrived? o = some d₁) {k : RemoteHandle} (hk : d₁.Has k) : k = o.handle ∨ d.Has k := by
  cases o with
  | fragment name config =>
    cases h
    cases k with
    | fragment name' => simpa [Has, RemoteObject.handle] using hk
    | release | stemcell | deployment => exact .inr hk
  | deployment name manifest =>
    cases h
    cases k with
    | deployment name' => simpa [Has, RemoteObject.handle] using hk
    | fragment | release | stemcell => exact .inr hk
  | release ref url sha1 =>
    simp only [arrived?] at h
    split at h
    · cases h
      exact .inr hk
    · obtain ⟨got, hg, rfl⟩ := Option.map_eq_some_iff.1 h
      obtain rfl := hy got hg
      cases k with
      | release ref' => simpa [Has, RemoteObject.handle] using hk
      | fragment | stemcell | deployment => exact .inr hk
  | stemcell ref url sha1 =>
    simp only [arrived?] at h
    split at h
    · cases h
      exact .inr hk
    · obtain ⟨got, hg, rfl⟩ := Option.map_eq_some_iff.1 h
      obtain rfl := hy got hg
      cases k with
      | stemcell ref' => simpa [Has, RemoteObject.handle] using hk
      | fragment | release | deployment => exact .inr hk

/-- Bringing an object into place takes nothing away. -/
theorem has_of_arrived? {o : RemoteObject} {d₁ : Director} (h : d.arrived? o = some d₁)
    {k : RemoteHandle} (hk : d.Has k) : d₁.Has k := by
  cases o with
  | fragment name config =>
    cases h
    cases k with
    | fragment name' =>
      have hold : d.configs.contains name' = true := hk
      simp [Has, hold]
    | release | stemcell | deployment => exact hk
  | deployment name manifest =>
    cases h
    cases k with
    | deployment name' =>
      have hold : d.deployments.contains name' = true := hk
      simp [Has, hold]
    | fragment | release | stemcell => exact hk
  | release ref url sha1 =>
    simp only [arrived?] at h
    split at h
    · cases h
      exact hk
    · obtain ⟨got, -, rfl⟩ := Option.map_eq_some_iff.1 h
      cases k with
      | release ref' =>
        have hold : d.releases.contains ref' = true := hk
        simp [Has, hold]
      | fragment | stemcell | deployment => exact hk
  | stemcell ref url sha1 =>
    simp only [arrived?] at h
    split at h
    · cases h
      exact hk
    · obtain ⟨got, -, rfl⟩ := Option.map_eq_some_iff.1 h
      cases k with
      | stemcell ref' =>
        have hold : d.stemcells.contains ref' = true := hk
        simp [Has, hold]
      | fragment | release | deployment => exact hk

/-- The same fragment and the same deployment stand under a name. -/
structure SameUnder (n : String) (d e : Director) : Prop where
  config : e.configs.get? n = d.configs.get? n
  deployment : e.deployments.get? n = d.deployments.get? n

theorem sameUnder_arrived? {n : String} {o : RemoteObject} {d₁ : Director}
    (hn : o.handle.name? ≠ some n) (h : d.arrived? o = some d₁) : d.SameUnder n d₁ := by
  cases o with
  | fragment name config =>
    cases h
    have hne : n ≠ name := fun he => hn (congrArg some he.symm)
    exact ⟨by rw [Table.get?_insert, if_neg hne], rfl⟩
  | deployment name manifest =>
    cases h
    have hne : n ≠ name := fun he => hn (congrArg some he.symm)
    exact ⟨rfl, by rw [Table.get?_insert, if_neg hne]⟩
  | release ref url sha1 | stemcell ref url sha1 =>
    simp only [arrived?] at h
    split at h
    · cases h
      exact ⟨rfl, rfl⟩
    · obtain ⟨got, -, rfl⟩ := Option.map_eq_some_iff.1 h
      exact ⟨rfl, rfl⟩

theorem sameUnder_without {n : String} {o : RemoteHandle} (hn : o.name? ≠ some n) :
    d.SameUnder n (d.without o) := by
  cases o with
  | fragment name =>
    have hne : n ≠ name := fun he => hn (congrArg some he.symm)
    exact ⟨by rw [without, Table.get?_erase, if_neg hne], rfl⟩
  | deployment name =>
    have hne : n ≠ name := fun he => hn (congrArg some he.symm)
    exact ⟨rfl, by rw [without, Table.get?_erase, if_neg hne]⟩
  | release ref | stemcell ref => exact ⟨rfl, rfl⟩

theorem failure_without (o : RemoteHandle) : (d.without o).failure = d.failure := by
  cases o <;> rfl

theorem has_without_iff {o k : RemoteHandle} : (d.without o).Has k ↔ k ≠ o ∧ d.Has k := by
  cases o <;> cases k <;> simp [Has, without]

theorem has_without {o k : RemoteHandle} (hk : (d.without o).Has k) : k ≠ o ∧ d.Has k :=
  has_without_iff.1 hk

end Director

namespace Identity

variable {α : Type} {i : Identity} {call : IdentityCall} {f : Identity → α × Identity}

theorem answer_of_none (h : i.failure = none) :
    answer call f i = (.ok (f { i with calls := i.calls ++ [call] }).1,
      (f { i with calls := i.calls ++ [call] }).2) := by
  simp only [answer, Step.mk_apply, h]

theorem answer_of_some {reason : String} (h : i.failure = some reason) :
    answer call f i = (.error (.rejected reason), { i with calls := i.calls ++ [call] }) := by
  simp only [answer, Step.mk_apply, h]

/-- The service with a team's client, which is left alone if it is there. -/
def withTeamClient (i : Identity) (id secret : String) : Identity :=
  if i.clients.contains id then i
  else { i with clients := i.clients.insert id ⟨secret, teamAuthorities⟩ }

theorem ensureTeamClient_ok {id secret : String} {i' : Identity}
    (h : ensureTeamClient id secret i = (.ok (), i')) :
    i.failure = none ∧ ∃ calls, i' = { i.withTeamClient id secret with calls := calls } := by
  rcases Option.eq_none_or_eq_some i.failure with hf | ⟨reason, hf⟩
  · have hc : hasClient id i = _ := answer_of_none hf
    rw [ensureTeamClient, Step.bind_ok hc] at h
    refine ⟨hf, ?_⟩
    by_cases hh : i.clients.contains id = true
    · simp only [hh, Bool.not_true, Bool.false_eq_true, if_false] at h
      cases h
      exact ⟨i.calls ++ [.hasClient id], by simp [withTeamClient, hh]⟩
    · have hx : createClient id ⟨secret, teamAuthorities⟩
          { i with calls := i.calls ++ [.hasClient id] } = _ := answer_of_none hf
      simp only [hh, Bool.not_false, if_true, hx] at h
      cases h
      exact ⟨_, by simp only [withTeamClient, hh]; rfl⟩
  · have hc : hasClient id i = _ := answer_of_some hf
    rw [ensureTeamClient, Step.bind_error hc] at h
    cases h

theorem ensureTeamClient_of_stored {id : String} (hf : i.failure = none)
    (hh : i.clients.contains id = true) (secret : String) :
    ∃ calls, ensureTeamClient id secret i = (.ok (), { i with calls := calls }) := by
  have hc : hasClient id i = _ := answer_of_none hf
  rw [ensureTeamClient, Step.bind_ok hc]
  refine ⟨i.calls ++ [.hasClient id], ?_⟩
  simp [hh]

theorem ensureTeamClient_of_none (hf : i.failure = none) (id secret : String) :
    ∃ calls, ensureTeamClient id secret i =
      (.ok (), { i.withTeamClient id secret with calls := calls }) := by
  by_cases hh : i.clients.contains id = true
  · rw [withTeamClient, if_pos hh]
    exact ensureTeamClient_of_stored hf hh secret
  · have hc : hasClient id i = _ := answer_of_none hf
    have hx : createClient id ⟨secret, teamAuthorities⟩
        { i with calls := i.calls ++ [.hasClient id] } = _ := answer_of_none hf
    refine ⟨i.calls ++ [.hasClient id] ++ [.createClient id], ?_⟩
    rw [ensureTeamClient, Step.bind_ok hc, withTeamClient, if_neg hh]
    simp only [hh, Bool.not_false, if_true]
    exact hx

theorem ensureTeamClient_error {id secret : String} {i' : Identity} {e : RemoteError}
    (h : ensureTeamClient id secret i = (.error e, i')) :
    ∃ calls, i' = { i with calls := calls } := by
  rcases Option.eq_none_or_eq_some i.failure with hf | ⟨reason, hf⟩
  · have hc : hasClient id i = _ := answer_of_none hf
    rw [ensureTeamClient, Step.bind_ok hc] at h
    by_cases hh : i.clients.contains id = true
    · simp only [hh, Bool.not_true, Bool.false_eq_true, if_false] at h
      cases h
    · have hx : createClient id ⟨secret, teamAuthorities⟩
          { i with calls := i.calls ++ [.hasClient id] } = _ := answer_of_none hf
      simp only [hh, Bool.not_false, if_true, hx] at h
      cases h
  · have hc : hasClient id i = _ := answer_of_some hf
    rw [ensureTeamClient, Step.bind_error hc] at h
    cases h
    exact ⟨_, rfl⟩

theorem removeClient_of_none (hf : i.failure = none) (id : String) :
    ∃ calls, removeClient id i =
      (.ok (), { i with clients := i.clients.erase id, calls := calls }) := by
  have hc : hasClient id i = _ := answer_of_none hf
  rw [removeClient, Step.bind_ok hc]
  by_cases hh : i.clients.contains id = true
  · have hx : deleteClient id { i with calls := i.calls ++ [.hasClient id] } = _ :=
      answer_of_none hf
    simp only [hh, if_true, hx]
    exact ⟨_, rfl⟩
  · simp only [hh]
    exact ⟨i.calls ++ [.hasClient id], by rw [Table.erase_eq_self (by simpa using hh)]; rfl⟩

theorem removeClient_of_some {reason : String} (hf : i.failure = some reason) (id : String) :
    ∃ calls, removeClient id i = (.error (.rejected reason), { i with calls := calls }) := by
  have hc : hasClient id i = _ := answer_of_some hf
  exact ⟨_, Step.bind_error hc _⟩

theorem removeClient_ok {id : String} {i' : Identity} (h : removeClient id i = (.ok (), i')) :
    ∃ calls, i' = { i with clients := i.clients.erase id, calls := calls } := by
  rcases Option.eq_none_or_eq_some i.failure with hf | ⟨reason, hf⟩
  · obtain ⟨calls, hx⟩ := removeClient_of_none hf id
    rw [hx] at h
    cases h
    exact ⟨calls, rfl⟩
  · obtain ⟨calls, hx⟩ := removeClient_of_some hf id
    rw [hx] at h
    cases h

theorem removeClient_error {id : String} {i' : Identity} {e : RemoteError}
    (h : removeClient id i = (.error e, i')) : ∃ calls, i' = { i with calls := calls } := by
  rcases Option.eq_none_or_eq_some i.failure with hf | ⟨reason, hf⟩
  · obtain ⟨calls, hx⟩ := removeClient_of_none hf id
    rw [hx] at h
    cases h
  · obtain ⟨calls, hx⟩ := removeClient_of_some hf id
    rw [hx] at h
    cases h
    exact ⟨calls, rfl⟩

theorem contains_withTeamClient (id secret id' : String) :
    (i.withTeamClient id secret).clients.contains id' =
      (decide (id' = id) || i.clients.contains id') := by
  unfold withTeamClient
  split
  · next h => by_cases hid : id' = id <;> simp [hid, h]
  · simp

theorem get?_withTeamClient_of_ne {id id' : String} (h : id' ≠ id) (secret : String) :
    (i.withTeamClient id secret).clients.get? id' = i.clients.get? id' := by
  unfold withTeamClient
  split
  · rfl
  · rw [Table.get?_insert, if_neg h]

theorem failure_withTeamClient (id secret : String) :
    (i.withTeamClient id secret).failure = i.failure := by
  unfold withTeamClient
  split <;> rfl

theorem ensureTeamClient_again {id secret secret' : String} {i' : Identity}
    (h : ensureTeamClient id secret i = (.ok (), i')) :
    ∃ calls, ensureTeamClient id secret' i' = (.ok (), { i' with calls := calls }) := by
  obtain ⟨hf, calls, rfl⟩ := ensureTeamClient_ok h
  have hh : (i.withTeamClient id secret).clients.contains id = true := by
    simp [contains_withTeamClient]
  exact ensureTeamClient_of_stored (i := { i.withTeamClient id secret with calls := calls })
    ((failure_withTeamClient id secret).trans hf) hh secret'

end Identity

namespace SecretStore

variable {s : Secrets} {en : Entropy} {name : SecretName}

theorem get_apply (name : SecretName) (s : Secrets) :
    (SecretStore.get name : Step Secrets SecretError String) s = (s.lookup name, s) := rfl

theorem deleteIfStored_apply (name : SecretName) (s : Secrets) :
    (deleteIfStored name : Step Secrets SecretError Unit) s = (.ok (), s.erase name) := by
  simp only [deleteIfStored, Step.tolerate, SecretStore.delete, Step.mk_apply, Secrets.delete]
  by_cases h : s.contains name = true
  · simp [h]
  · simp [h, SecretError.isNotFound, Table.erase_eq_self (t := s) (k := name) (by simpa using h)]

theorem getOrGenerate_of_some {value : String} (h : s.get? name = some value) :
    getOrGenerate name (s, en) = (.ok value, (s, en)) := by
  have hg : (stored (SecretStore.get name) : Step (Secrets × Entropy) SecretError String) (s, en) =
      (.ok value, (s, en)) :=
    Step.onPart_ok (s := s) (by rw [get_apply, Secrets.lookup, h])
  rw [getOrGenerate, Step.bind_ok (Step.attempt_of hg)]
  rfl

/-- A secret that is not stored is drawn from the supply, and stored if the supply was enough. -/
theorem getOrGenerate_of_none (h : s.get? name = none) :
    getOrGenerate name (s, en) =
      match Entropy.draw Entropy.secretLength en with
      | (.ok cs, rest) => (.ok (String.ofList cs), (s.insert name (String.ofList cs), rest))
      | (.error e, rest) => (.error e, (s, rest)) := by
  have hg : (stored (SecretStore.get name) : Step (Secrets × Entropy) SecretError String) (s, en) =
      (.error (.notFound name), (s, en)) :=
    Step.onPart_error (s := s) (by rw [get_apply, Secrets.lookup, h])
  rw [getOrGenerate, Step.bind_ok (Step.attempt_of hg)]
  dsimp only
  rcases hd : Entropy.draw Entropy.secretLength en with ⟨e | cs, rest⟩
  · have hx : Entropy.generate en = (.error e, rest) := by
      simp only [Entropy.generate, Step.mk_apply, hd]
    rw [Step.bind_error (Step.onPart_error (s := rest) hx)]
    rfl
  · have hx : Entropy.generate en = (.ok (String.ofList cs), rest) := by
      simp only [Entropy.generate, Step.mk_apply, hd]
    have hc : (stored (SecretStore.create name (String.ofList cs)) :
        Step (Secrets × Entropy) SecretError Unit) (s, rest) =
        (.ok (), (s.insert name (String.ofList cs), rest)) := by
      refine Step.onPart_ok (s := s.insert name (String.ofList cs)) ?_
      simp [SecretStore.create, Secrets.create, Table.contains, h]
    rw [Step.bind_ok (Step.onPart_ok (s := rest) hx), Step.bind_ok (Step.attempt_of hc)]
    rfl

/-- A secret is found or drawn, and then it is stored; at most one is drawn. -/
theorem getOrGenerate_ok (h : (s.get? name).isSome = true ∨
      ∃ secret rest, Entropy.generate en = (.ok secret, rest)) :
    ∃ value t, getOrGenerate name (s, en) = (.ok value, t) ∧ t.1.get? name = some value ∧
      (t.2 = en ∨ ∃ secret, Entropy.generate en = (.ok secret, t.2)) := by
  rcases Option.eq_none_or_eq_some (s.get? name) with hn | ⟨value, hv⟩
  · obtain ⟨secret, rest, hg⟩ := h.resolve_left (by simp [hn])
    have hgenerate := hg
    simp only [Entropy.generate, Step.mk_apply] at hg
    rw [getOrGenerate_of_none hn]
    rcases hd : Entropy.draw Entropy.secretLength en with ⟨e | cs, rest'⟩ <;> rw [hd] at hg
    · cases hg
    · cases hg
      exact ⟨_, _, rfl, by simp, .inr ⟨_, hgenerate⟩⟩
  · exact ⟨value, _, getOrGenerate_of_some hv, hv, .inl rfl⟩

/-- A supply that was too short is used up. -/
theorem draw_error {n : Nat} {en rest : Entropy} {e : SecretError}
    (h : Entropy.draw n en = (.error e, rest)) :
    e = .random "no entropy" ∧ rest = [] ∧ n ≠ 0 := by
  induction en generalizing n rest with
  | nil =>
    unfold Entropy.draw at h
    split at h
    · cases h
    · next hn =>
      cases h
      exact ⟨rfl, rfl, hn⟩
  | cons block blocks ih =>
    unfold Entropy.draw at h
    split at h
    · cases h
    · next hn =>
      dsimp only at h
      split at h
      · cases h
      · next hd =>
        cases h
        obtain ⟨he, hr, -⟩ := ih hd
        exact ⟨he, hr, hn⟩

/-- Asking again gives the same answer and changes nothing. -/
theorem getOrGenerate_again {s t : Secrets × Entropy} {x : Except SecretError String}
    (h : getOrGenerate name s = (x, t)) : getOrGenerate name t = (x, t) := by
  obtain ⟨s, en⟩ := s
  rcases Option.eq_none_or_eq_some (s.get? name) with hn | ⟨value, hv⟩
  · rw [getOrGenerate_of_none hn] at h
    rcases hd : Entropy.draw Entropy.secretLength en with ⟨e | cs, rest⟩ <;> rw [hd] at h
    · cases h
      obtain ⟨rfl, rfl, -⟩ := draw_error hd
      rw [getOrGenerate_of_none hn]
      rfl
    · cases h
      exact getOrGenerate_of_some (by simp)
  · rw [getOrGenerate_of_some hv] at h
    cases h
    exact getOrGenerate_of_some hv

/-- At most the one secret is new, and then it is the answer; any other answer was stored. -/
theorem secrets_of_getOrGenerate {s t : Secrets × Entropy} {x : Except SecretError String}
    (h : getOrGenerate name s = (x, t)) :
    (t.1 = s.1 ∧ ∀ value, x = .ok value → s.1.get? name = some value) ∨
      ∃ value, x = .ok value ∧ s.1.get? name = none ∧ t.1 = s.1.insert name value := by
  obtain ⟨s, en⟩ := s
  rcases Option.eq_none_or_eq_some (s.get? name) with hn | ⟨value, hv⟩
  · rw [getOrGenerate_of_none hn] at h
    rcases hd : Entropy.draw Entropy.secretLength en with ⟨e | cs, rest⟩ <;> rw [hd] at h
    · cases h
      exact .inl ⟨rfl, nofun⟩
    · cases h
      exact .inr ⟨_, rfl, hn, rfl⟩
  · rw [getOrGenerate_of_some hv] at h
    cases h
    refine .inl ⟨rfl, fun value' hx => ?_⟩
    cases hx
    exact hv

/-- Stored secrets are kept. -/
theorem get?_of_getOrGenerate {s t : Secrets × Entropy} {x : Except SecretError String}
    (h : getOrGenerate name s = (x, t)) {n : SecretName} {value : String}
    (hv : s.1.get? n = some value) : t.1.get? n = some value := by
  rcases secrets_of_getOrGenerate h with ⟨ht, -⟩ | ⟨drawn, -, hn, ht⟩
  · rwa [ht]
  · have hne : n ≠ name := by
      rintro rfl
      rw [hn] at hv
      cases hv
    rw [ht, Table.get?_insert, if_neg hne, hv]

/-- Secrets of other names are left alone. -/
theorem get?_getOrGenerate_of_ne {s t : Secrets × Entropy} {x : Except SecretError String}
    (h : getOrGenerate name s = (x, t)) {n : SecretName} (hn : n ≠ name) :
    t.1.get? n = s.1.get? n := by
  rcases secrets_of_getOrGenerate h with ⟨ht, -⟩ | ⟨drawn, -, -, ht⟩
  · rw [ht]
  · rw [ht, Table.get?_insert, if_neg hn]

/-- The answer is stored. -/
theorem get?_of_getOrGenerate_ok {s t : Secrets × Entropy} {value : String}
    (h : getOrGenerate name s = (.ok value, t)) : t.1.get? name = some value := by
  rcases secrets_of_getOrGenerate h with ⟨ht, hv⟩ | ⟨drawn, hx, -, ht⟩
  · rw [ht]
    exact hv value rfl
  · cases hx
    rw [ht, Table.get?_insert, if_pos rfl]

end SecretStore

end Reconciliation
