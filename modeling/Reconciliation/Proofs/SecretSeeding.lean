import Reconciliation.Config
import Reconciliation.Proofs.Step

/-! A configuration that was accepted names a source for each of its secrets. Seeding goes through
them in their order and stops at the first one that cannot be resolved. A name that is taken keeps
its secret, so of several sources for one name the first wins, and a second seeding stores nothing.
-/
namespace Reconciliation

namespace SecretSource

/-- Both go through the value, the file and the variable and pass over empty texts. -/
theorem isGiven_eq_false_iff {h : Host} {source : SecretSource} :
    source.isGiven = false ↔ source.resolve h = .error .noSource := by
  unfold isGiven resolve
  cases given source.value with
  | some value => simp
  | none =>
    cases given source.file with
    | some file =>
      dsimp only
      split <;> simp
    | none =>
      cases given source.variableName with
      | some name =>
        dsimp only
        split <;> simp
      | none => simp

end SecretSource

namespace Secrets

variable {s : Secrets} {name : SecretName}

theorem create_of_stored {q : String} (h : s.get? name = some q) (value : String) :
    SecretStore.create name value s = (.error (.alreadyExists name), s) :=
  if_pos (by rw [Table.contains, h, Option.isSome_some])

theorem create_of_none (h : s.get? name = none) (value : String) :
    SecretStore.create name value s = (.ok (), s.insert name value) :=
  if_neg (by rw [Table.contains, h]; decide)

theorem create_ne_noSource (name : SecretName) (value : String) (s : Secrets) :
    (SecretStore.create name value s).1 ≠ .error .noSource := by
  cases hs : s.get? name with
  | some q =>
    rw [create_of_stored hs]
    nofun
  | none =>
    rw [create_of_none hs]
    nofun

end Secrets

namespace Config

variable {h : Host} {c : Config}

theorem checked_eq_ok_iff : c.checked = .ok c ↔ c.defects = [] := by
  unfold checked
  split <;> simp_all

theorem isGiven_of_checked (hc : c.checked = .ok c) :
    ∀ x ∈ c.secrets, x.source.isGiven = true := by
  intro x hx
  have hdefects := checked_eq_ok_iff.1 hc
  simp only [defects, List.append_eq_nil_iff, List.flatMap_eq_nil_iff] at hdefects
  have hnone := (List.append_eq_nil_iff.1 (hdefects.2 x hx)).2
  cases hgiven : x.source.isGiven with
  | true => rfl
  | false =>
    rw [hgiven] at hnone
    cases hnone

section

variable {τ : Type} [SecretStore τ] {name : SecretName} {source : SecretSource}

theorem seedSecret_of_error {cause : SecretError} (hsource : source.resolve h = .error cause)
    (t : τ) : seedSecret h name source t = (.error (.secret name cause), t) := by
  unfold seedSecret
  rw [hsource]
  rfl

theorem seedSecret_of_ok {value : String} (hsource : source.resolve h = .ok value) (t : τ) :
    seedSecret h name source t = (match (SecretStore.create name value t).1 with
      | .ok () => .ok 1
      | .error (.alreadyExists _) => .ok 0
      | .error cause => .error (.secret name cause), (SecretStore.create name value t).2) := by
  rcases hcreate : SecretStore.create name value t with ⟨r, u⟩
  unfold seedSecret
  simp only [hsource]
  rw [Step.bind_ok (Step.attempt_of hcreate)]
  cases r with
  | ok _ => rfl
  | error cause => cases cause <;> rfl

/-- A secret cannot be seeded where its source or the store fails. -/
theorem exists_cause_of_seedSecret {t t' : τ} {e : ConfigError}
    (hfail : seedSecret h name source t = (.error e, t')) :
    ∃ cause, e = .secret name cause ∧ (source.resolve h = .error cause ∨
      ∃ value, (SecretStore.create name value t).1 = .error cause) := by
  cases hsource : source.resolve h with
  | error cause =>
    rw [seedSecret_of_error hsource] at hfail
    cases hfail
    exact ⟨cause, rfl, .inl rfl⟩
  | ok value =>
    rw [seedSecret_of_ok hsource] at hfail
    split at hfail
    · cases hfail
    · cases hfail
    · next cause _ hcreate =>
      cases hfail
      exact ⟨cause, rfl, .inr ⟨value, hcreate⟩⟩

/-- Seeding fails at one source, after those before it were seeded. -/
theorem exists_failing_of_seedEach {l : List ConfiguredSecret} {t t' : τ} {e : ConfigError}
    (hfail : seedEach h c l t = (.error e, t')) :
    ∃ before x after n u, l = before ++ x :: after ∧ seedEach h c before t = (.ok n, u) ∧
      seedSecret h (c.secretName x) x.source u = (.error e, t') := by
  -- Each source meets the store as the one before it left it.
  induction l generalizing t with
  | nil => cases hfail
  | cons x l ih =>
    rw [seedEach] at hfail
    rcases Step.bind_eq_error_iff.1 hfail with hx | ⟨m, u, hx, hrest⟩
    · exact ⟨[], x, l, 0, t, rfl, rfl, hx⟩
    · rcases Step.bind_eq_error_iff.1 hrest with hl | ⟨k, v, -, hpure⟩
      · obtain ⟨before, y, after, n, w, rfl, hbefore, hy⟩ := ih hl
        have hcons : seedEach h c (x :: before) t = (.ok (m + n), w) := by
          rw [seedEach, Step.bind_ok hx, Step.bind_ok hbefore]
          rfl
        exact ⟨x :: before, y, after, m + n, w, rfl, hcons, hy⟩
      · cases hpure

/-- An accepted configuration has no secret without a source, so only the store can say so. -/
theorem seedSecrets_ne_noSource (hc : c.checked = .ok c)
    (hstore : ∀ name value (t : τ), (SecretStore.create name value t).1 ≠ .error .noSource)
    (t : τ) (name : SecretName) :
    (seedSecrets h c t).1 ≠ .error (.secret name .noSource) := by
  rcases hseed : seedSecrets h c t with ⟨r, t'⟩
  rintro rfl
  obtain ⟨before, x, after, n, u, hl, -, hx⟩ := exists_failing_of_seedEach hseed
  obtain ⟨cause, he, hcause⟩ := exists_cause_of_seedSecret hx
  cases he
  rcases hcause with hsource | ⟨value, hcreate⟩
  · have hgiven := isGiven_of_checked hc x (by rw [hl]; simp)
    rw [SecretSource.isGiven_eq_false_iff.2 hsource] at hgiven
    cases hgiven
  · exact hstore _ _ _ hcreate

end

section

variable {name : SecretName} {source : SecretSource} {s s' : Secrets} {n : Nat}
  {l : List ConfiguredSecret}

theorem seedSecret_of_stored {value q : String} (hsource : source.resolve h = .ok value)
    (hs : s.get? name = some q) : seedSecret h name source s = (.ok 0, s) := by
  rw [seedSecret_of_ok hsource, Secrets.create_of_stored hs]

theorem seedSecret_of_none {value : String} (hsource : source.resolve h = .ok value)
    (hs : s.get? name = none) :
    seedSecret h name source s = (.ok 1, s.insert name value) := by
  rw [seedSecret_of_ok hsource, Secrets.create_of_none hs]

/-- A name that is free gets what the source gives, and the store grows by what is counted. -/
theorem exists_value_of_seedSecret (hseed : seedSecret h name source s = (.ok n, s')) :
    ∃ value, source.resolve h = .ok value ∧
      (∀ k, s'.get? k = (s.get? k).or (if name = k then some value else none)) ∧
      s'.size = s.size + n := by
  cases hsource : source.resolve h with
  | error cause =>
    rw [seedSecret_of_error hsource] at hseed
    cases hseed
  | ok value =>
    refine ⟨value, rfl, ?_⟩
    cases hs : s.get? name with
    | some q =>
      rw [seedSecret_of_stored hsource hs] at hseed
      cases hseed
      refine ⟨fun k => ?_, rfl⟩
      split
      · next hk => rw [← hk, hs, Option.some_or]
      · rw [Option.or_none]
    | none =>
      rw [seedSecret_of_none hsource hs] at hseed
      cases hseed
      refine ⟨fun k => ?_, Table.size_insert hs value⟩
      rw [Table.get?_insert]
      by_cases hk : name = k
      · rw [if_pos hk, if_pos hk.symm, ← hk, hs, Option.none_or]
      · rw [if_neg hk, if_neg (Ne.symm hk), Option.or_none]

theorem cause_of_seedSecret {e : ConfigError}
    (hfail : seedSecret h name source s = (.error e, s')) :
    s' = s ∧ ∃ cause, source.resolve h = .error cause ∧ e = .secret name cause := by
  cases hsource : source.resolve h with
  | error cause =>
    rw [seedSecret_of_error hsource] at hfail
    cases hfail
    exact ⟨rfl, cause, rfl, rfl⟩
  | ok value =>
    cases hs : s.get? name with
    | some q =>
      rw [seedSecret_of_stored hsource hs] at hfail
      cases hfail
    | none =>
      rw [seedSecret_of_none hsource hs] at hfail
      cases hfail

/-- What the first source of a name gives. -/
def offered (h : Host) (c : Config) (l : List ConfiguredSecret) (name : SecretName) :
    Option String :=
  (l.find? fun x => c.secretName x = name).bind fun x => (x.source.resolve h).toOption

theorem offered_cons {x : ConfiguredSecret} {value : String}
    (hx : x.source.resolve h = .ok value) (l : List ConfiguredSecret) (name : SecretName) :
    offered h c (x :: l) name =
      (if c.secretName x = name then some value else none).or (offered h c l name) := by
  by_cases hname : c.secretName x = name
  · rw [offered, List.find?_cons_of_pos (by simpa using hname), Option.bind_some, hx, if_pos hname]
    rfl
  · rw [offered, List.find?_cons_of_neg (by simpa using hname), if_neg hname, Option.none_or,
      offered]

/-- What is stored comes before what is offered, and each new secret counts once. -/
theorem get?_seedEach (hseed : seedEach h c l s = (.ok n, s')) :
    (∀ x ∈ l, ∃ value, x.source.resolve h = .ok value) ∧
      (∀ name, s'.get? name = (s.get? name).or (offered h c l name)) ∧
      s'.size = s.size + n := by
  induction l generalizing s n with
  | nil =>
    cases hseed
    exact ⟨nofun, fun name => (Option.or_none).symm, rfl⟩
  | cons x l ih =>
    rw [seedEach] at hseed
    obtain ⟨m, u, hx, hrest⟩ := Step.bind_eq_ok_iff.1 hseed
    obtain ⟨k, v, hl, hpure⟩ := Step.bind_eq_ok_iff.1 hrest
    cases hpure
    obtain ⟨value, hvalue, hone, hgrown⟩ := exists_value_of_seedSecret hx
    obtain ⟨hresolved, hall, hsize⟩ := ih hl
    refine ⟨List.forall_mem_cons.2 ⟨⟨value, hvalue⟩, hresolved⟩, fun name => ?_, ?_⟩
    · rw [hall, hone, offered_cons hvalue, Option.or_assoc]
    · rw [hsize, hgrown, Nat.add_assoc]

/-- Where every name is taken and every source gives a secret, there is nothing to do. -/
theorem seedEach_eq_self (hresolved : ∀ x ∈ l, ∃ value, x.source.resolve h = .ok value)
    (hstored : ∀ x ∈ l, (s.get? (c.secretName x)).isSome = true) :
    seedEach h c l s = (.ok 0, s) := by
  induction l with
  | nil => rfl
  | cons x l ih =>
    obtain ⟨⟨value, hvalue⟩, hresolved⟩ := List.forall_mem_cons.1 hresolved
    obtain ⟨hx, hstored⟩ := List.forall_mem_cons.1 hstored
    obtain ⟨q, hq⟩ := Option.isSome_iff_exists.1 hx
    rw [seedEach, Step.bind_ok (seedSecret_of_stored hvalue hq),
      Step.bind_ok (ih hresolved hstored)]
    rfl

theorem isSome_offered (hresolved : ∀ x ∈ l, ∃ value, x.source.resolve h = .ok value) :
    ∀ x ∈ l, (offered h c l (c.secretName x)).isSome = true := by
  intro x hx
  have hfound : (l.find? fun y => c.secretName y = c.secretName x).isSome = true :=
    List.find?_isSome.2 ⟨x, hx, decide_eq_true rfl⟩
  obtain ⟨y, hy⟩ := Option.isSome_iff_exists.1 hfound
  obtain ⟨value, hvalue⟩ := hresolved y (List.mem_of_find?_eq_some hy)
  rw [offered, hy, Option.bind_some, hvalue]
  rfl

theorem isSome_get?_seedEach (hseed : seedEach h c l s = (.ok n, s')) :
    ∀ x ∈ l, (s'.get? (c.secretName x)).isSome = true := by
  obtain ⟨hresolved, hall, -⟩ := get?_seedEach hseed
  intro x hx
  rw [hall, Option.isSome_or, isSome_offered hresolved x hx, Bool.or_true]

/-- What failed stopped at one source and left the others' secrets. -/
theorem exists_unresolved_of_seedEach {e : ConfigError}
    (hfail : seedEach h c l s = (.error e, s')) :
    ∃ before x after cause n, l = before ++ x :: after ∧ x.source.resolve h = .error cause ∧
      e = .secret (c.secretName x) cause ∧ seedEach h c before s = (.ok n, s') := by
  obtain ⟨before, x, after, n, u, hl, hbefore, hx⟩ := exists_failing_of_seedEach hfail
  obtain ⟨rfl, cause, hcause, he⟩ := cause_of_seedSecret hx
  exact ⟨before, x, after, cause, n, hl, hcause, he, hbefore⟩

theorem get?_seedEach_of_stored {q : String} (hs : s.get? name = some q) :
    (seedEach h c l s).2.get? name = some q := by
  rcases hseed : seedEach h c l s with ⟨e | n, s'⟩
  · obtain ⟨before, -, -, -, n, -, -, -, hbefore⟩ := exists_unresolved_of_seedEach hseed
    rw [(get?_seedEach hbefore).2.1, hs, Option.some_or]
  · rw [(get?_seedEach hseed).2.1, hs, Option.some_or]

theorem get?_seedEach_of_none (hseed : seedEach h c l s = (.ok n, s'))
    (hs : s.get? name = none) : s'.get? name = offered h c l name := by
  rw [(get?_seedEach hseed).2.1, hs, Option.none_or]

/-- Of the configuration, seeding a list of sources reads the system namespace only. -/
theorem seedEach_with_secrets (others : List ConfiguredSecret) :
    (seedEach h { c with secrets := others } l : Step Secrets ConfigError Nat) =
      seedEach h c l := by
  induction l with
  | nil => rfl
  | cons x l ih =>
    rw [seedEach, seedEach, ih]
    rfl

theorem seedSecrets_again (hseed : seedSecrets h c s = (.ok n, s')) :
    seedSecrets h c s' = (.ok 0, s') :=
  seedEach_eq_self (get?_seedEach hseed).1 (isSome_get?_seedEach hseed)

end

/-- A source is found missing exactly where resolving would say so, and therefore an accepted
configuration never fails for want of one, unless the store says so itself. In memory, a stored
secret stays as it is. A success leaves a secret for every configured name, that of its first source
where there was none before, tells how many are new, and has nothing left to do the second time. A
failure is that of a source, and what it leaves is what seeding only the sources before it leaves. -/
theorem secrets_seeded (h : Host) :
    (∀ source : SecretSource, source.isGiven = false ↔ source.resolve h = .error .noSource) ∧
    (∀ c : Config, c.checked = .ok c →
      (∀ (s : Secrets) name, (seedSecrets h c s).1 ≠ .error (.secret name .noSource)) ∧
      ∀ (τ : Type) [SecretStore τ],
        (∀ name value (t : τ), (SecretStore.create name value t).1 ≠ .error .noSource) →
        ∀ (t : τ) name, (seedSecrets h c t).1 ≠ .error (.secret name .noSource)) ∧
    ∀ (c : Config) (s : Secrets),
      (∀ name value, s.get? name = some value →
        (seedSecrets h c s).2.get? name = some value) ∧
      (∀ n s', seedSecrets h c s = (.ok n, s') →
        (∀ x ∈ c.secrets, (s'.get? (c.secretName x)).isSome = true) ∧
        (∀ name, s.get? name = none → s'.get? name = offered h c c.secrets name) ∧
        s'.size = s.size + n ∧ seedSecrets h c s' = (.ok 0, s')) ∧
      ∀ e s', seedSecrets h c s = (.error e, s') →
        ∃ before x after cause n, c.secrets = before ++ x :: after ∧
          x.source.resolve h = .error cause ∧ e = .secret (c.secretName x) cause ∧
          seedSecrets h { c with secrets := before } s = (.ok n, s') ∧
          ∀ name, s.get? name = none → s'.get? name = offered h c before name := by
  refine ⟨fun source => SecretSource.isGiven_eq_false_iff, fun c hc => ⟨?_, ?_⟩,
    fun c s => ⟨fun name value hs => get?_seedEach_of_stored hs, fun n s' hseed => ?_,
      fun e s' hfail => ?_⟩⟩
  · exact seedSecrets_ne_noSource hc Secrets.create_ne_noSource
  · intro τ _ hstore
    exact seedSecrets_ne_noSource hc hstore
  · exact ⟨isSome_get?_seedEach hseed, fun name hs => get?_seedEach_of_none hseed hs,
      (get?_seedEach hseed).2.2, seedSecrets_again hseed⟩
  · obtain ⟨before, x, after, cause, n, hl, hcause, he, hbefore⟩ :=
      exists_unresolved_of_seedEach hfail
    refine ⟨before, x, after, cause, n, hl, hcause, he, ?_,
      fun name hs => get?_seedEach_of_none hbefore hs⟩
    rw [seedSecrets, seedEach_with_secrets, hbefore]

namespace Small

/-- Two sources for one name, of which only the second names the system namespace, and a variable
that ends in a line break. -/
def config : Config where
  secrets := [{ name := "a", source := { value := some "x" } },
    { name := "a", ns := some "bosh-system", source := { value := some "y" } },
    { name := "b", ns := some "team", source := { variableName := some "TOKEN" } }]

def host : Host where
  environment := .ofList [("TOKEN", Text.Utf8.encode "t\n")]

end Small

/-- Three sources for two names, seeded twice. -/
theorem secrets_seeded_small : ∃ s : Secrets,
    Small.config.checked = .ok Small.config ∧
    seedSecrets Small.host Small.config (∅ : Secrets) = (.ok 2, s) ∧
    s.get? ⟨"bosh-system", "a"⟩ = some "x" ∧ s.get? ⟨"team", "b"⟩ = some "t" ∧ s.size = 2 ∧
    seedSecrets Small.host Small.config s = (.ok 0, s) := by
  obtain ⟨-, -, hseeding⟩ := secrets_seeded Small.host
  obtain ⟨-, hsuccess, -⟩ := hseeding Small.config ∅
  have hchecked : Small.config.checked = .ok Small.config :=
    checked_eq_ok_iff.2 (by decide +kernel)
  have htwo : (seedSecrets Small.host Small.config (∅ : Secrets)).1.toOption = some 2 := by
    decide +kernel
  rcases hseed : seedSecrets Small.host Small.config (∅ : Secrets) with ⟨e | n, s⟩
  · rw [hseed] at htwo
    cases htwo
  rw [hseed] at htwo
  cases htwo
  obtain ⟨-, hoffered, hsize, hagain⟩ := hsuccess 2 s hseed
  refine ⟨s, hchecked, rfl, ?_, ?_, hsize, hagain⟩
  · rw [hoffered _ rfl]
    decide +kernel
  · rw [hoffered _ rfl]
    decide +kernel

end Config

end Reconciliation
