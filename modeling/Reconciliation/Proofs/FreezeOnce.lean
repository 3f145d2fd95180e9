import Reconciliation.Proofs.Run

/-! Nothing but a reconcile of its own record ever freezes a spec, it freezes the spec that is
stored then, and nothing changes what is frozen until the record is removed. The namespace of a
team's secret stays in the same way. -/
namespace Reconciliation

namespace Record

variable {k : Kind}

/-- What may happen to the status of a stored record in one move; `byReconcile` says whether the
move is a reconcile of the record. -/
structure Carries (byReconcile : Prop) (r r' : Record k) : Prop where
  frozen : r'.frozen? = r.frozen? ∨
    r.frozen? = none ∧ r'.frozen? = some r.spec ∧ byReconcile
  secret : Status.secretNamespace k r.status ≠ "" →
    Status.secretNamespace k r'.status = Status.secretNamespace k r.status

variable {p : Prop} {r r' : Record k}

theorem carries_of_status (h : r'.status = r.status) : r.Carries p r' :=
  ⟨.inl (by rw [frozen?, frozen?, h]), fun _ => by rw [h]⟩

theorem Advances.carries (h : r.Advances r') (hp : p) : r.Carries p r' := by
  refine ⟨?_, h.secret⟩
  rcases h.frozen with hf | ⟨hn, hf⟩
  · exact .inl hf
  · exact .inr ⟨hn, hf, hp⟩

theorem Advances.carries_released (h : r.Advances r') (hp : p) : r.Carries p r'.released := by
  have hx := h.carries hp
  exact ⟨hx.frozen, hx.secret⟩

end Record

/-- Each record found in the second store was carried there from the first, or is new and has the
initial status. -/
structure Store.Carries (byReconcile : Key → Prop) (s t : Store) : Prop where
  origin : ∀ {key : Key} {k : Kind} {r' : Record k}, t.get? key = some ⟨k, r'⟩ →
    (∃ r : Record k, s.get? key = some ⟨k, r⟩ ∧ r.Carries (byReconcile key) r') ∨
      s.get? key = none ∧ r'.status = Status.initial k

namespace Store.Carries

variable {p : Key → Prop} {s t : Store} {k : Kind}

theorem refl (s : Store) : s.Carries p s :=
  ⟨fun {_ _ r'} h => .inl ⟨r', h, Record.carries_of_status rfl⟩⟩

theorem keep (h : s.Carries p t) {r q : Record k} (hr : s.Holds r) (hk : q.key = r.key)
    (hq : r.Carries (p r.key) q) : s.Carries p (t.keep q) := by
  refine ⟨fun {key k' r'} hr' => ?_⟩
  rw [Store.get?_keep] at hr'
  split at hr'
  · next hkey =>
    cases hr'
    rw [hkey, hk]
    exact .inl ⟨r, hr, hq⟩
  · exact h.origin hr'

theorem accept (h : s.Carries p t) {r q : Record k} (hr : s.Holds r) (hk : q.key = r.key)
    (hq : r.Carries (p r.key) q) : s.Carries p (t.accept q) := by
  refine ⟨fun {key k' r'} hr' => ?_⟩
  by_cases hkey : key = q.key
  · subst hkey
    rcases t.get?_accept_self q with hn | hs
    · rw [hn] at hr'
      cases hr'
    · rw [hs] at hr'
      cases hr'
      rw [hk]
      exact .inl ⟨r, hr, hq⟩
  · rw [Store.get?_accept_of_ne t hkey] at hr'
    exact h.origin hr'

theorem create (h : s.Carries p t) {r : AnyRecord} (hn : t.get? r.key = none → s.get? r.key = none)
    (hr : r.record.status = Status.initial r.kind) : s.Carries p (Store.create r t).2 := by
  refine ⟨fun {key k' r'} hr' => ?_⟩
  rcases Store.get?_of_create hr' with hr' | ⟨hkey, rfl, hq⟩
  · exact h.origin hr'
  · obtain ⟨k, r⟩ := r
    cases hq
    exact .inr ⟨hn hkey, hr⟩

theorem delete (hs : s.WellFormed) (now : Instant) (key : Key) :
    s.Carries p (Store.delete now key s).2 := by
  rcases Store.delete_eq hs now key with h | ⟨k, r, hr, h⟩
  · rw [h]
    exact refl s
  · rw [h]
    exact (refl s).accept hr rfl (Record.carries_of_status rfl)

theorem update (hs : s.WellFormed) (r : AnyRecord) : s.Carries p (Store.update r s).2 := by
  rcases Store.update_eq hs r with h | ⟨k, q, incoming, hq, -, hk, h⟩
  · rw [h]
    exact refl s
  · rw [h]
    exact (refl s).accept hq hk (Record.carries_of_status rfl)

end Store.Carries

variable {sys : String} {w u : World Store Secrets}

theorem Effect.carries {key : Key} {p : Key → Prop} (hw : w.records.WellFormed)
    (h : Effect w key u) (hp : p key) : w.records.Carries p u.records := by
  cases h with
  | unchanged => exact Store.Carries.refl _
  | advanced s hr hq => exact (Store.Carries.refl _).keep hr hq.key (hq.carries hp)
  | established hr hq hf ho hs hd => exact (Store.Carries.refl _).keep hr hq.key (hq.carries hp)
  | removed hr hq hf hd => exact (Store.Carries.refl _).accept hr hq.key (hq.carries_released hp)
  | registered hr hq hf hi => exact (Store.Carries.refl _).keep hr hq.key (hq.carries hp)
  | dismissed hr hf hi =>
    exact (Store.Carries.refl _).accept hr rfl ((Record.Advances.refl _).carries_released hp)
  | @adopted r hr =>
    have hg : r.Carries (p r.key) r.guarded :=
      Record.carries_of_status (Record.status_guarded r)
    have hkeep := (Store.Carries.refl w.records).keep hr r.key_guarded hg
    refine hkeep.create (fun hn => ?_) rfl
    have hne : r.ownTeam.key ≠ r.key := Reconcile.ownTeam_key_ne r
    have hget := Store.get?_keep w.records r.guarded r.ownTeam.key
    rw [Record.key_guarded, if_neg hne] at hget
    exact hget ▸ hn
  | disowned hr => exact Store.Carries.delete hw _ _
  | abandoned hr =>
    exact (Store.Carries.delete hw _ _).accept hr rfl ((Record.Advances.refl _).carries_released hp)

/-- Records are created with the status of a record that was never reconciled. -/
def Move.Fresh : Move → Prop
  | .create r => r.record.status = Status.initial r.kind
  | _ => True

theorem carries_act (sys : String) {m : Move} (hw : w.records.WellFormed) (hm : m.Fresh) :
    w.records.Carries (fun key => m = .reconcile key) (m.act sys w).records := by
  cases m with
  | create r => exact (Store.Carries.refl _).create (fun hn => hn) hm
  | update r => exact Store.Carries.update hw r
  | delete key => exact Store.Carries.delete hw _ _
  | reconcile key =>
    have h := reconcile_effect hw sys key
    exact Effect.carries (u := (reconcile sys key w).2.unlogged) hw h rfl
  | directorFails | identityFails | clock => exact Store.Carries.refl _

/-- A stored record that a move leaves stored was carried over; what is created under its name is
refused. -/
theorem carries_stored (sys : String) {m : Move} (hw : w.records.WellFormed) {key : Key} {k : Kind}
    {r : Record k} (hr : w.records.get? key = some ⟨k, r⟩)
    (hstored : (m.act sys w).records.get? key ≠ none) :
    ∃ r' : Record k, (m.act sys w).records.get? key = some ⟨k, r'⟩ ∧
      r.Carries (m = .reconcile key) r' := by
  have hcarried (hm : m.Fresh) : ∃ r' : Record k, (m.act sys w).records.get? key = some ⟨k, r'⟩ ∧
      r.Carries (m = .reconcile key) r' := by
    obtain ⟨⟨k', r'⟩, hr'⟩ := Option.ne_none_iff_exists'.1 hstored
    rcases (carries_act sys hw hm).origin hr' with ⟨q, hq, hc⟩ | ⟨hn, -⟩
    · rw [hr] at hq
      cases hq
      exact ⟨r', hr', hc⟩
    · rw [hr] at hn
      cases hn
  cases m with
  | create q =>
    have hget : (Store.create q w.records).2.get? key = some ⟨k, r⟩ :=
      Store.get?_create_of_some hr q
    exact ⟨r, hget, Record.carries_of_status rfl⟩
  | update | delete | reconcile | directorFails | identityFails | clock => exact hcarried trivial

section

variable {ms : List Move} {key : Key} {k : Kind} {i j : Nat}

/-- In this state the record is stored with this spec frozen. -/
def FrozenAs (w : World Store Secrets) (key : Key) {k : Kind} (spec : Spec k) : Prop :=
  ∃ r : Record k, w.records.get? key = some ⟨k, r⟩ ∧ r.frozen? = some spec

theorem carries_succ (hw : w.records.WellFormed) (hms : ∀ m ∈ ms, m.Fresh) (hi : i < ms.length) :
    (stateAt sys ms w i).records.Carries (fun key => ms[i] = .reconcile key)
      (stateAt sys ms w (i + 1)).records := by
  rw [stateAt_succ hi]
  exact carries_act sys (after_wellFormed sys _ hw) (hms _ (List.getElem_mem hi))

/-- While the record is stored, a frozen spec and the namespace of a secret stay. -/
theorem stays_while_stored (hw : w.records.WellFormed) (hij : i ≤ j) (hj : j ≤ ms.length)
    (hstored : ∀ l, i ≤ l → l ≤ j → (stateAt sys ms w l).records.get? key ≠ none)
    {r : Record k} (hr : (stateAt sys ms w i).records.get? key = some ⟨k, r⟩) :
    ∃ r' : Record k, (stateAt sys ms w j).records.get? key = some ⟨k, r'⟩ ∧
      (∀ spec, r.frozen? = some spec → r'.frozen? = some spec) ∧
      (Status.secretNamespace k r.status ≠ "" →
        Status.secretNamespace k r'.status = Status.secretNamespace k r.status) := by
  induction hij with
  | refl => exact ⟨r, hr, fun _ h => h, fun _ => rfl⟩
  | @step j hij ih =>
    obtain ⟨q, hq, hf, hs⟩ := ih (Nat.le_of_succ_le hj) fun l hl hl' =>
      hstored l hl (Nat.le_succ_of_le hl')
    have hnext := hstored (j + 1) (Nat.le_succ_of_le hij) (Nat.le_refl _)
    rw [stateAt_succ hj] at hnext ⊢
    obtain ⟨r', hr', hc⟩ := carries_stored sys (after_wellFormed sys _ hw) hq hnext
    refine ⟨r', hr', fun spec hspec => ?_, fun hne => ?_⟩
    · have hspec := hf spec hspec
      rcases hc.frozen with h | ⟨hn, -⟩
      · rw [h, hspec]
      · rw [hn] at hspec
        cases hspec
    · rw [hc.secret (by rwa [hs hne]), hs hne]

/-- What is frozen in a state was frozen from the start, or was frozen by a reconcile that found it
stored. -/
theorem frozen_by_reconcile (hw : w.records.WellFormed) (hms : ∀ m ∈ ms, m.Fresh)
    (hj : j ≤ ms.length) {spec : Spec k} (hspec : FrozenAs (stateAt sys ms w j) key spec) :
    (∀ l ≤ j, FrozenAs (stateAt sys ms w l) key spec) ∨
      ∃ i < j, ms[i]? = some (.reconcile key) ∧
        (∃ r : Record k, (stateAt sys ms w i).records.get? key = some ⟨k, r⟩ ∧
          r.frozen? = none ∧ r.spec = spec) ∧
        ∀ l, i < l → l ≤ j → FrozenAs (stateAt sys ms w l) key spec := by
  induction j with
  | zero =>
    left
    intro l hl
    obtain rfl := Nat.le_zero.1 hl
    exact hspec
  | succ j ih =>
    obtain ⟨r', hr', hf'⟩ := id hspec
    have hlast : ∀ l, l ≤ j + 1 → ¬l ≤ j → FrozenAs (stateAt sys ms w l) key spec := by
      intro l hl hlj
      obtain rfl : l = j + 1 := by omega
      exact hspec
    rcases (carries_succ hw hms hj).origin hr' with ⟨r, hr, hc⟩ | ⟨-, hinitial⟩
    · rcases hc.frozen with h | ⟨hn, h, hm⟩
      · rcases ih (by omega) ⟨r, hr, by rw [← h, hf']⟩ with hall | ⟨i, hi, hm, hfound, hall⟩
        · left
          intro l hl
          by_cases hlj : l ≤ j
          · exact hall l hlj
          · exact hlast l hl hlj
        · refine .inr ⟨i, by omega, hm, hfound, fun l hl hl' => ?_⟩
          by_cases hlj : l ≤ j
          · exact hall l hl hlj
          · exact hlast l hl' hlj
      · right
        refine ⟨j, by omega, ?_, ⟨r, hr, hn, ?_⟩, fun l hl hl' => hlast l hl' (by omega)⟩
        · rw [List.getElem?_eq_getElem hj, hm]
        · rw [h] at hf'
          exact Option.some.inj hf'
    · rw [Record.frozen?, hinitial, Status.frozen?_initial] at hf'
      cases hf'

end

/-- In any run, from any well-formed store: while a record stays stored, a spec that is frozen stays
exactly what it is, and so does the namespace of a team's secret once it is set; and what is frozen
is, unless it was so from the start, the spec that was stored when a reconcile froze it. The states
are those between the moves of the run, the reconciles of a sweep one by one. -/
theorem frozen_once {es : List Event} (hw : w.records.WellFormed)
    (hes : ∀ r, .move (.create r) ∈ es → r.record.status = Status.initial r.kind) (key : Key)
    {k : Kind} :
    let ms := moves sys es w
    stateAt sys ms w 0 = w ∧ stateAt sys ms w ms.length = run sys es w ∧
    (∀ i j, i ≤ j → j ≤ ms.length →
      (∀ l, i ≤ l → l ≤ j → (stateAt sys ms w l).records.get? key ≠ none) →
      ∀ r : Record k, (stateAt sys ms w i).records.get? key = some ⟨k, r⟩ →
        ∃ r' : Record k, (stateAt sys ms w j).records.get? key = some ⟨k, r'⟩ ∧
          (∀ spec, r.frozen? = some spec → r'.frozen? = some spec) ∧
          (Status.secretNamespace k r.status ≠ "" →
            Status.secretNamespace k r'.status = Status.secretNamespace k r.status)) ∧
    (∀ j, j ≤ ms.length → ∀ spec : Spec k, FrozenAs (stateAt sys ms w j) key spec →
      (∀ l ≤ j, FrozenAs (stateAt sys ms w l) key spec) ∨
        ∃ i < j, ms[i]? = some (.reconcile key) ∧
          (∃ r : Record k, (stateAt sys ms w i).records.get? key = some ⟨k, r⟩ ∧
            r.frozen? = none ∧ r.spec = spec) ∧
          ∀ l, i < l → l ≤ j → FrozenAs (stateAt sys ms w l) key spec) := by
  intro ms
  have hms : ∀ m ∈ ms, m.Fresh := by
    intro m hm
    rcases mem_moves hm with hm | ⟨key, rfl⟩
    · cases m with
      | create r => exact hes r hm
      | _ => trivial
    · trivial
  refine ⟨stateAt_zero ms w, ?_, ?_, ?_⟩
  · rw [stateAt_length, after_moves]
  · intro i j hij hj hstored r hr
    exact stays_while_stored hw hij hj hstored hr
  · intro j hj spec hspec
    exact frozen_by_reconcile hw hms hj hspec

namespace Small

def editedAz : Record .az :=
  { az with
    metadata := { az.metadata with version := 4, finalizers := [Kind.az.finalizer] }
    spec := (⟨some (.str "fast")⟩ : AzSpec) }

/-- The AZ is reconciled, then its spec is edited, then everything is reconciled. -/
def events : List Event := [.move (.reconcile az.key), .move (.update editedAz), .sweep]

def states : Nat → World Store Secrets := stateAt "sys" (moves "sys" events world) world

end Small

theorem frozen_once_small :
    FrozenAs (Small.states 1) Small.az.key (k := .az) Small.az.spec ∧
      FrozenAs (Small.states 5) Small.az.key (k := .az) Small.az.spec := by
  obtain ⟨r, hr, hf⟩ : FrozenAs (Small.states 1) Small.az.key (k := .az) Small.az.spec :=
    ⟨_, rfl, rfl⟩
  have hfresh : ∀ r, .move (.create r) ∈ Small.events →
      r.record.status = Status.initial r.kind := by
    intro r hr
    simp [Small.events] at hr
  have hlength : (moves "sys" Small.events Small.world).length = 5 := by rfl
  have hstored : ∀ l, 1 ≤ l → l ≤ 5 → (Small.states l).records.get? Small.az.key ≠ none := by
    intro l h1 h5
    rw [← Option.isSome_iff_ne_none]
    obtain rfl | rfl | rfl | rfl | rfl : l = 1 ∨ l = 2 ∨ l = 3 ∨ l = 4 ∨ l = 5 := by omega
    all_goals rfl
  obtain ⟨r', hr', hfrozen, -⟩ := (frozen_once Small.wellFormed_world hfresh Small.az.key).2.2.1 1 5
    (by decide) (Nat.le_of_eq hlength.symm) hstored r hr
  exact ⟨⟨r, hr, hf⟩, r', hr', hfrozen _ hf⟩

end Reconciliation
