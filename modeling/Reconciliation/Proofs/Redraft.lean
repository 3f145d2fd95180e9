import Mathlib.Data.List.Forall2
import Reconciliation.Proofs.Run
import Reconciliation.Proofs.Warning

/-! Once its spec is frozen, an owner may rewrite the live spec of a record: it differs then in
that spec, in the warning about it, and in the version. Two stores that differ in such records
alone are similar. Every write that a reconcile makes keeps similar stores similar, and whatever is
looked up for someone else's sake is the same in both. -/
namespace Reconciliation

/-- The status with another warning in it. -/
def Status.withWarning (text : String) : (k : Kind) → Status k → Status k
  | .director, s | .role, s | .deployment, s => s
  | .team, (s : TeamStatus) => ({ s with warning := text } : TeamStatus)
  | .az, (s : FrozenStatus AzSpec) => ({ s with warning := text } : FrozenStatus AzSpec)
  | .network, (s : FrozenStatus NetworkSpec) =>
    ({ s with warning := text } : FrozenStatus NetworkSpec)
  | .baseImage, (s : FrozenStatus BaseImageSpec) =>
    ({ s with warning := text } : FrozenStatus BaseImageSpec)
  | .release, (s : FrozenStatus ReleaseSpec) =>
    ({ s with warning := text } : FrozenStatus ReleaseSpec)
  | .vmExtension, (s : FrozenStatus VmExtensionSpec) =>
    ({ s with warning := text } : FrozenStatus VmExtensionSpec)
  | .compilation, (s : FrozenStatus CompilationSpec) =>
    ({ s with warning := text } : FrozenStatus CompilationSpec)

namespace Status

variable {k : Kind} (text : String) (s : Status k)

theorem frozen?_withWarning : frozen? k (withWarning text k s) = frozen? k s := by
  cases k <;> rfl

theorem available_withWarning : available k (withWarning text k s) = available k s := by
  cases k <;> rfl

theorem secretNamespace_withWarning :
    secretNamespace k (withWarning text k s) = secretNamespace k s := by
  cases k <;> rfl

theorem published_withWarning :
    published k (withWarning text k s) = withWarning text k (published k s) := by
  cases k <;> rfl

/-- With a spec frozen, the live one has a say in the warning only. -/
theorem prepared_withWarning (sys : String) (spec spec' : Spec k)
    (h : (frozen? k s).isSome = true) : ∃ text', prepared sys k spec' (withWarning text k s) =
      withWarning text' k (prepared sys k spec s) := by
  refine ⟨warning k (prepared sys k spec' (withWarning text k s)), ?_⟩
  cases k with
  | director | role | deployment => rfl
  | team =>
    obtain ⟨⟨_, _ | frozen, _⟩, _⟩ := s
    · cases h
    · rfl
  | az | network | baseImage | release | vmExtension | compilation =>
    obtain ⟨_, _ | frozen, _⟩ := s
    · cases h
    · rfl

end Status

namespace Record

variable {k : Kind}

def redrafted (r : Record k) (spec : Spec k) (warning : String) (version : Nat) : Record k :=
  { r with
    spec
    status := Status.withWarning warning k r.status
    metadata := { r.metadata with version } }

/-- Equal, or redrafted where the spec is frozen. -/
def Similar (r r' : Record k) : Prop :=
  r' = r ∨ r.frozen?.isSome = true ∧
    ∃ (spec : Spec k) (warning : String) (version : Nat), r' = r.redrafted spec warning version

namespace Similar

variable {r r' : Record k}

theorem refl (r : Record k) : r.Similar r := .inl rfl

theorem key (h : r.Similar r') : r'.key = r.key := by
  rcases h with rfl | ⟨-, -, -, -, rfl⟩ <;> rfl

theorem frozen? (h : r.Similar r') : r'.frozen? = r.frozen? := by
  rcases h with rfl | ⟨-, -, warning, -, rfl⟩
  · rfl
  · exact Status.frozen?_withWarning warning r.status

theorem beingDeleted (h : r.Similar r') : r'.beingDeleted = r.beingDeleted := by
  rcases h with rfl | ⟨-, -, -, -, rfl⟩ <;> rfl

theorem finalizers (h : r.Similar r') : r'.metadata.finalizers = r.metadata.finalizers := by
  rcases h with rfl | ⟨-, -, -, -, rfl⟩ <;> rfl

theorem hasFinalizer (h : r.Similar r') : r'.hasFinalizer = r.hasFinalizer := by
  simp only [Record.hasFinalizer, Metadata.hasFinalizer, h.finalizers]

/-- Kinds that freeze nothing are not redrafted. -/
theorem eq_of_not_freezes (h : r.Similar r') (hk : k.freezes = false) : r' = r := by
  rcases h with h | ⟨hf, -⟩
  · exact h
  · rw [Record.frozen?, Status.frozen?_of_not_freezes hk] at hf
    cases hf

theorem interchangeable (h : r.Similar r') : r.Interchangeable r' where
  key := h.key
  frozen? := h.frozen?
  spec hk := by rw [h.eq_of_not_freezes hk]

theorem frozenBy (h : r.Similar r') (sys : String) :
    (r.frozenBy sys).Similar (r'.frozenBy sys) := by
  rcases h with rfl | ⟨hf, spec, warning, version, rfl⟩
  · exact .refl _
  · have hstage : ∀ q : Record k, q.frozenBy sys = { q with
        status := Status.prepared sys k q.spec q.status
        metadata := { q.metadata with version := (q.frozenBy sys).metadata.version } } := by
      intro q
      rw [← status_frozenBy]
      unfold Record.frozenBy
      split <;> rfl
    obtain ⟨warning', hw⟩ := Status.prepared_withWarning warning r.status sys r.spec spec hf
    obtain ⟨frozen, hfrozen⟩ := Option.isSome_iff_exists.1 hf
    refine .inr ⟨?_, spec, warning',
      ((r.redrafted spec warning version).frozenBy sys).metadata.version, ?_⟩
    · rw [(advances_frozenBy sys r).frozen?_eq hfrozen]
      rfl
    · rw [hstage (r.redrafted spec warning version), hstage r]
      simp only [redrafted, hw]

theorem guarded (h : r.Similar r') : r.guarded.Similar r'.guarded := by
  rcases h with rfl | ⟨hf, spec, warning, version, rfl⟩
  · exact .refl _
  · have hfrozen : r.guarded.frozen?.isSome = true := by rwa [Record.frozen?, status_guarded]
    have hheld : (r.redrafted spec warning version).hasFinalizer = r.hasFinalizer := rfl
    refine .inr ⟨hfrozen, spec, warning,
      (r.redrafted spec warning version).guarded.metadata.version, ?_⟩
    unfold Record.guarded
    rw [hheld]
    split
    · rfl
    · next h =>
      have hn : ¬r.metadata.hasFinalizer k.finalizer = true := h
      have hn' : ¬(r.redrafted spec warning version).metadata.hasFinalizer k.finalizer = true := h
      simp only [withFinalizer, Metadata.withFinalizer]
      rw [if_neg hn', if_neg hn]
      rfl

theorem readied (h : r.Similar r') (sys : String) : (r.readied sys).Similar (r'.readied sys) :=
  (h.frozenBy sys).guarded

theorem settled (h : r.Similar r') : r.settled.Similar r'.settled := by
  rcases h with rfl | ⟨hf, spec, warning, version, rfl⟩
  · exact .refl _
  · have hfrozen : r.settled.frozen?.isSome = true := by rwa [r.alike_settled.frozen?]
    have hthere : (r.redrafted spec warning version).available = r.available :=
      Status.available_withWarning warning r.status
    refine .inr ⟨hfrozen, spec, warning,
      (r.redrafted spec warning version).settled.metadata.version, ?_⟩
    unfold Record.settled
    rw [hthere]
    split
    · rfl
    · have hstatus := Status.published_withWarning warning r.status
      simp only [redrafted, published, bumped, hstatus]

theorem released (h : r.Similar r') : r.released.Similar r'.released := by
  rcases h with rfl | ⟨hf, spec, warning, version, rfl⟩
  · exact .refl _
  · exact .inr ⟨hf, spec, warning, version + 1, rfl⟩

theorem consumed (h : r.Similar r') : r.consumed.Similar r'.consumed := by
  cases k with
  | deployment =>
    rw [h.eq_of_not_freezes rfl]
    exact .refl _
  | _ => exact h

end Similar

end Record

inductive AnyRecord.Similar : AnyRecord → AnyRecord → Prop
  | mk {k : Kind} {r r' : Record k} (h : r.Similar r') : Similar ⟨k, r⟩ ⟨k, r'⟩

namespace AnyRecord

theorem Similar.refl (r : AnyRecord) : r.Similar r := ⟨.refl r.record⟩

variable {r r' : AnyRecord}

theorem Similar.key (h : r.Similar r') : r'.key = r.key := by
  obtain ⟨h⟩ := h
  exact h.key

theorem Similar.beingDeleted (h : r.Similar r') :
    r'.metadata.beingDeleted = r.metadata.beingDeleted := by
  obtain ⟨h⟩ := h
  exact h.beingDeleted

theorem Similar.finalizers (h : r.Similar r') : r'.metadata.finalizers = r.metadata.finalizers := by
  obtain ⟨h⟩ := h
  exact h.finalizers

theorem Similar.marking (h : r.Similar r') (now : Instant) :
    (Store.marking now r).Similar (Store.marking now r') := by
  obtain ⟨rfl | ⟨hf, spec, warning, version, rfl⟩⟩ := h
  · exact .refl _
  · exact ⟨.inr ⟨hf, spec, warning, version + 1, rfl⟩⟩

end AnyRecord

namespace Entries

variable {κ β γ : Type} [Ord κ]

theorem get?_of_lt {k : κ} {l : List (κ × β)} (h : ∀ e ∈ l, compare k e.1 = .lt) :
    get? k l = none := by
  induction l with
  | nil => rfl
  | cons a l ih =>
    rw [get?, if_neg, ih fun e he => h e (List.mem_cons_of_mem _ he)]
    rw [h a List.mem_cons_self]
    exact Ordering.noConfusion

variable [Std.TransOrd κ] [Std.LawfulEqOrd κ]

/-- Entries with related values under every key are related one by one. -/
theorem forall₂_of_get? {R : β → γ → Prop} {l : List (κ × β)} {m : List (κ × γ)}
    (hl : Ascending l) (hm : Ascending m) (h : ∀ k, Option.Rel R (get? k l) (get? k m)) :
    List.Forall₂ (fun a b => a.1 = b.1 ∧ R a.2 b.2) l m := by
  induction l generalizing m with
  | nil =>
    cases m with
    | nil => exact .nil
    | cons b m =>
      have hb := h b.1
      rw [get?, get?, if_pos Std.ReflCmp.compare_self] at hb
      cases hb
  | cons a l ih =>
    obtain ⟨ha, hl⟩ := List.pairwise_cons.1 hl
    cases m with
    | nil =>
      have hb := h a.1
      rw [get?, get?, if_pos Std.ReflCmp.compare_self] at hb
      cases hb
    | cons b m =>
      obtain ⟨hb, hm⟩ := List.pairwise_cons.1 hm
      -- the least keys are the same, since each of them is found on both sides
      have hkey : a.1 = b.1 := by
        cases hc : compare a.1 b.1 with
        | eq => exact Std.LawfulEqCmp.eq_of_compare hc
        | lt =>
          have hnone : get? a.1 (b :: m) = none := by
            refine get?_of_lt fun e he => ?_
            rcases List.mem_cons.1 he with rfl | he
            · exact hc
            · exact Std.TransCmp.lt_trans hc (hb e he)
          have hx := h a.1
          rw [hnone, get?, if_pos Std.ReflCmp.compare_self] at hx
          cases hx
        | gt =>
          have hc := Std.OrientedCmp.lt_of_gt hc
          have hnone : get? b.1 (a :: l) = none := by
            refine get?_of_lt fun e he => ?_
            rcases List.mem_cons.1 he with rfl | he
            · exact hc
            · exact Std.TransCmp.lt_trans hc (ha e he)
          have hx := h b.1
          rw [hnone, get?, if_pos Std.ReflCmp.compare_self] at hx
          cases hx
      have hhead : R a.2 b.2 := by
        have hx := h a.1
        rw [get?, get?, hkey, if_pos Std.ReflCmp.compare_self,
          if_pos Std.ReflCmp.compare_self] at hx
        cases hx
        assumption
      refine .cons ⟨hkey, hhead⟩ (ih hl hm fun k => ?_)
      by_cases hk : compare k a.1 = .eq
      · obtain rfl := Std.LawfulEqCmp.eq_of_compare hk
        rw [get?_of_lt ha, get?_of_lt (hkey ▸ hb)]
        exact .none
      · have hx := h k
        rwa [get?, get?, if_neg hk, if_neg (hkey ▸ hk)] at hx

end Entries

namespace Store

/-- Stores with related records under every key list related records. -/
theorem list_related {s t : Store} {R : AnyRecord → AnyRecord → Prop}
    (h : ∀ key, Option.Rel R (s.get? key) (t.get? key)) (k : Kind) (ns : Option String) :
    List.Forall₂ R (s.list k ns) (t.list k ns) := by
  have hentries := Entries.forall₂_of_get? s.records.ascending t.records.ascending h
  have hchosen := List.rel_filter
    (p := fun e : Key × AnyRecord => e.1.kind == k && ns.all (· == e.1.ns))
    (q := fun e : Key × AnyRecord => e.1.kind == k && ns.all (· == e.1.ns))
    (fun a b hab => by simp only [hab.1]) hentries
  exact List.rel_map (fun a b hab => hab.2) hchosen

/-- The same keys, with similar records under each of them. -/
structure Similar (s t : Store) : Prop where
  issued : t.issued = s.issued
  get? : ∀ key, Option.Rel AnyRecord.Similar (s.get? key) (t.get? key)

namespace Similar

theorem refl (s : Store) : s.Similar s where
  issued := rfl
  get? key := by
    cases s.get? key with
    | none => exact .none
    | some r => exact .some (.refl r)

variable {s t : Store} {k : Kind} {r r' : Record k}

theorem get?_of_none (h : s.Similar t) {key : Key} (hs : s.get? key = none) :
    t.get? key = none := by
  have hx := h.get? key
  rw [hs] at hx
  generalize t.get? key = y at hx
  cases hx
  rfl

theorem get?_of_some (h : s.Similar t) {key : Key} {q : AnyRecord} (hs : s.get? key = some q) :
    ∃ q', t.get? key = some q' ∧ q.Similar q' := by
  have hx := h.get? key
  rw [hs] at hx
  generalize t.get? key = y at hx
  cases hx with
  | some hq => exact ⟨_, rfl, hq⟩

theorem record (h : s.Similar t) {key : Key} (hs : s.get? key = some ⟨k, r⟩) :
    ∃ r' : Record k, t.get? key = some ⟨k, r'⟩ ∧ r.Similar r' := by
  obtain ⟨q, hq, ⟨hr⟩⟩ := h.get?_of_some hs
  exact ⟨_, hq, hr⟩

theorem isSome_get? (h : s.Similar t) (key : Key) :
    (t.get? key).isSome = (s.get? key).isSome := by
  cases hs : s.get? key with
  | none => rw [h.get?_of_none hs]
  | some q =>
    obtain ⟨q', hq', -⟩ := h.get?_of_some hs
    rw [hq']
    rfl

theorem put (h : s.Similar t) (key : Key) {q q' : AnyRecord} (hq : q.Similar q') :
    (s.put key q).Similar (t.put key q') where
  issued := h.issued
  get? key' := by
    rw [get?_put, get?_put]
    split
    · exact .some hq
    · exact h.get? key'

theorem without (h : s.Similar t) (key : Key) : (s.without key).Similar (t.without key) where
  issued := h.issued
  get? key' := by
    rw [get?_without, get?_without]
    split
    · exact .none
    · exact h.get? key'

theorem keep (h : s.Similar t) (hr : r.Similar r') : (s.keep r).Similar (t.keep r') := by
  rw [Store.keep, Store.keep, hr.key]
  exact h.put r.key ⟨hr⟩

theorem accept (h : s.Similar t) (hr : r.Similar r') : (s.accept r).Similar (t.accept r') := by
  unfold Store.accept
  rw [hr.beingDeleted, hr.finalizers, hr.key]
  split
  · exact h.without r.key
  · exact h.keep hr

theorem create (h : s.Similar t) (q : AnyRecord) :
    (Store.create q s).2.Similar (Store.create q t).2 := by
  cases hs : s.get? q.key with
  | some p =>
    obtain ⟨p', hp', -⟩ := h.get?_of_some hs
    rw [create_of_stored hs, create_of_stored hp']
    exact h
  | none =>
    rw [create_of_none hs, create_of_none (h.get?_of_none hs)]
    have hissue : t.issue q = s.issue q := by rw [issue, issue, h.issued]
    have hput := h.put q.key (.refl (s.issue q))
    rw [hissue, h.issued]
    exact ⟨rfl, hput.get?⟩

theorem delete (h : s.Similar t) (now : Instant) (key : Key) :
    (Store.delete now key s).2.Similar (Store.delete now key t).2 := by
  cases hs : s.get? key with
  | none =>
    rw [delete_of_none hs, delete_of_none (h.get?_of_none hs)]
    exact h
  | some q =>
    obtain ⟨q', hq', hq⟩ := h.get?_of_some hs
    rw [delete_of_stored hs, delete_of_stored hq', hq.finalizers, hq.beingDeleted]
    split
    · exact h.without key
    · split
      · exact h
      · exact h.put key (hq.marking now)

theorem typed (key : Key) (k : Kind) {q q' : AnyRecord} (hq : q.Similar q') :
    Step.Related Similar Record.Similar
      (Step.ofExcept (RecordStore.typed key k q) : Step Store StoreError _)
      (Step.ofExcept (RecordStore.typed key k q')) := by
  intro s t h
  obtain ⟨hq⟩ := hq
  rename_i k' r r'
  simp only [Step.ofExcept_apply, RecordStore.typed]
  by_cases hk : k' = k
  · subst hk
    simp only [AnyRecord.ofKind?_mk]
    exact ⟨hq, h⟩
  · simp only [AnyRecord.ofKind?, hk, dif_neg, not_false_eq_true]
    exact ⟨rfl, h⟩

/-- Looked up for the sake of another record, similar records are interchangeable. -/
theorem exchanges : Exchanges Similar := by
  intro k _ ns name
  refine Step.Related.bind (V := AnyRecord.Similar) ?_ fun q q' hq => ?_
  · intro s t h
    cases hs : s.get? ⟨k, ns, name⟩ with
    | none =>
      rw [get_of_none hs, get_of_none (h.get?_of_none hs)]
      exact ⟨rfl, h⟩
    | some q =>
      obtain ⟨q', hq', hq⟩ := h.get?_of_some hs
      rw [get_of_some hs, get_of_some hq']
      exact ⟨hq, h⟩
  · exact fun s t h => (typed _ k hq s t h).imp fun _ _ => Record.Similar.interchangeable

theorem fetchAll (k : Kind) (ns : String) :
    Step.Related Similar (List.Forall₂ Record.Similar)
      (RecordStore.fetchAll k ns : Step Store StoreError _) (RecordStore.fetchAll k ns) := by
  refine Step.Related.bind (V := List.Forall₂ AnyRecord.Similar) ?_ fun l m hlm => ?_
  · exact fun s t h => ⟨list_related h.get? k (some ns), h⟩
  · induction hlm with
    | nil => exact .pure .nil
    | cons hq _ ih =>
      rw [List.mapM_cons, List.mapM_cons, Step.ofExcept_bind, Step.ofExcept_bind, hq.key]
      refine (typed _ k hq).bind fun r r' hr => ?_
      rw [Step.ofExcept_bind, Step.ofExcept_bind]
      exact ih.bind fun rs rs' hrs => .pure (.cons hr hrs)

end Similar

end Store

/-- A sweep visits the same keys in the same order where the same records are stored and the same of
them are marked for deletion. -/
theorem Sweep.keys_related {s t : Store} {R : AnyRecord → AnyRecord → Prop}
    (h : ∀ key, Option.Rel R (s.get? key) (t.get? key)) (hkey : ∀ q q', R q q' → q'.key = q.key)
    (hdeleted : ∀ q q', R q q' → q'.metadata.beingDeleted = q.metadata.beingDeleted) :
    keys t = keys s := by
  have hstored : List.Forall₂ R (Kind.inDependencyOrder.map fun k => s.list k none).flatten
      (Kind.inDependencyOrder.map fun k => t.list k none).flatten := by
    refine List.rel_flatten ?_
    exact List.rel_map (R := Eq) (fun k k' hk => hk ▸ Store.list_related h k none)
      (List.forall₂_same.2 fun _ _ => rfl)
  have hkeys : ∀ {l m : List AnyRecord}, List.Forall₂ R l m → l.map (·.key) = m.map (·.key) := by
    intro l m hlm
    refine List.forall₂_eq_eq_eq ▸ List.rel_map (R := R) (P := Eq) ?_ hlm
    exact fun a b hab => (hkey a b hab).symm
  have hlive := List.rel_filter (p := fun r : AnyRecord => !r.metadata.beingDeleted)
    (q := fun r : AnyRecord => !r.metadata.beingDeleted)
    (fun a b hab => by simp only [hdeleted a b hab]) hstored
  have hgone := List.rel_filter (p := fun r : AnyRecord => r.metadata.beingDeleted)
    (q := fun r : AnyRecord => r.metadata.beingDeleted)
    (fun a b hab => by simp only [hdeleted a b hab]) hstored
  simp only [keys, order, hkeys hlive, hkeys hgone]

theorem Sweep.keys_of_similar {s t : Store} (h : s.Similar t) : keys t = keys s :=
  keys_related h.get? (fun _ _ hq => hq.key) fun _ _ hq => hq.beingDeleted

end Reconciliation
