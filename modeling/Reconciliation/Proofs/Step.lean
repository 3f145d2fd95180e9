import Reconciliation.Step

/-! How composed steps run, one rule for each way of composing them. Four notions are carried
through them: a step that only reads its state, one that leaves a part of it alone, a pair of steps
that, from related states, give related results or the same failure and end in related states
again, and a step with what its success and its failure are known to come with. -/
namespace Reconciliation.Step

variable {σ ρ ω ε δ α β γ : Type}

@[simp]
theorem pure_apply (a : α) (s : σ) : (pure a : Step σ ε α) s = (.ok a, s) := rfl

theorem bind_ok {x : Step σ ε α} {s t : σ} {a : α} (h : x s = (.ok a, t)) (f : α → Step σ ε β) :
    (x >>= f) s = f a t := by
  simp only [bind, ExceptT.bind, ExceptT.mk, StateT.bind, h]
  rfl

theorem bind_error {x : Step σ ε α} {s t : σ} {e : ε} (h : x s = (.error e, t))
    (f : α → Step σ ε β) : (x >>= f) s = (.error e, t) := by
  simp only [bind, ExceptT.bind, ExceptT.mk, StateT.bind, h]
  rfl

/-- A composed step that succeeded went through a middle state. -/
theorem ok_of_bind {x : Step σ ε α} {f : α → Step σ ε β} {s t : σ} {b : β}
    (h : (x >>= f) s = (.ok b, t)) : ∃ a u, x s = (.ok a, u) ∧ f a u = (.ok b, t) := by
  rcases hx : x s with ⟨e | a, u⟩
  · rw [bind_error hx] at h
    cases h
  · exact ⟨a, u, rfl, by rwa [bind_ok hx] at h⟩

@[simp]
theorem map_apply (f : α → β) (x : Step σ ε α) (s : σ) :
    (f <$> x) s = ((x s).1.map f, (x s).2) := by
  change (x >>= fun a => pure (f a)) s = _
  rcases h : x s with ⟨e | a, t⟩
  · rw [bind_error h]
    rfl
  · rw [bind_ok h]
    rfl

@[simp]
theorem ofExcept_apply (r : Except ε α) (s : σ) : (ofExcept r : Step σ ε α) s = (r, s) := rfl

theorem ofExcept_bind (r : Except ε α) (f : α → Except ε β) :
    (ofExcept (r >>= f) : Step σ ε β) = ofExcept r >>= fun a => ofExcept (f a) := by
  cases r <;> rfl

@[simp]
theorem answer_apply (f : σ → Except ε α) (s : σ) : answer f s = (f s, s) := rfl

@[simp]
theorem mk_apply (f : σ → Except ε α × σ) (s : σ) : Step.mk f s = f s := rfl

theorem attempt_apply (x : Step σ ε α) (s : σ) :
    (attempt x : Step σ δ (Except ε α)) s = (.ok (x s).1, (x s).2) := rfl

theorem attempt_of {x : Step σ ε α} {s t : σ} {r : Except ε α} (h : x s = (r, t)) :
    (attempt x : Step σ δ (Except ε α)) s = (.ok r, t) := by
  rw [attempt_apply, h]

theorem onPart_ok {part : ω → σ} {replace : ω → σ → ω} {wrap : ε → δ} {x : Step σ ε α} {w : ω}
    {a : α} {s : σ} (h : x (part w) = (.ok a, s)) :
    onPart part replace wrap x w = (.ok a, replace w s) := by
  simp only [onPart, mk_apply, h]

theorem onPart_error {part : ω → σ} {replace : ω → σ → ω} {wrap : ε → δ} {x : Step σ ε α} {w : ω}
    {e : ε} {s : σ} (h : x (part w) = (.error e, s)) :
    onPart part replace wrap x w = (.error (wrap e), replace w s) := by
  simp only [onPart, mk_apply, h]

theorem ok_of_onPart {part : ω → σ} {replace : ω → σ → ω} {wrap : ε → δ} {x : Step σ ε α}
    {w w' : ω} {a : α} (h : onPart part replace wrap x w = (.ok a, w')) :
    ∃ s, x (part w) = (.ok a, s) ∧ w' = replace w s := by
  rcases hx : x (part w) with ⟨e | b, s⟩
  · rw [onPart_error hx] at h
    cases h
  · rw [onPart_ok hx] at h
    cases h
    exact ⟨s, rfl, rfl⟩

theorem mapError_ok {f : ε → δ} {x : Step σ ε α} {s t : σ} {a : α} (h : x s = (.ok a, t)) :
    mapError f x s = (.ok a, t) :=
  onPart_ok h

theorem mapError_error {f : ε → δ} {x : Step σ ε α} {s t : σ} {e : ε} (h : x s = (.error e, t)) :
    mapError f x s = (.error (f e), t) :=
  onPart_error h

theorem pure_eq_ok_iff {a b : α} {s t : σ} :
    (pure a : Step σ ε α) s = (.ok b, t) ↔ b = a ∧ t = s := by
  constructor
  · intro h
    cases h
    exact ⟨rfl, rfl⟩
  · intro ⟨hb, ht⟩
    rw [hb, ht]
    rfl

theorem ofExcept_eq_ok_iff {r : Except ε α} {a : α} {s t : σ} :
    ofExcept r s = (.ok a, t) ↔ r = .ok a ∧ t = s := by
  constructor
  · intro h
    cases h
    exact ⟨rfl, rfl⟩
  · intro ⟨hr, ht⟩
    rw [hr, ht]
    rfl

theorem bind_eq_ok_iff {x : Step σ ε α} {f : α → Step σ ε β} {b : β} {s t : σ} :
    (x >>= f) s = (.ok b, t) ↔ ∃ a u, x s = (.ok a, u) ∧ f a u = (.ok b, t) := by
  constructor
  · exact ok_of_bind
  · intro ⟨a, u, hx, hf⟩
    rw [bind_ok hx, hf]

theorem except_bind_eq_ok_iff {x : Except ε α} {f : α → Except ε β} {b : β} :
    x >>= f = .ok b ↔ ∃ a, x = .ok a ∧ f a = .ok b := by
  cases x <;> simp [bind, Except.bind]

theorem onPart_eq_ok_iff {part : ω → σ} {replace : ω → σ → ω} {wrap : ε → δ} {x : Step σ ε α}
    {w w' : ω} {a : α} : onPart part replace wrap x w = (.ok a, w') ↔
      ∃ s, x (part w) = (.ok a, s) ∧ w' = replace w s := by
  constructor
  · exact ok_of_onPart
  · intro ⟨s, hx, hw⟩
    rw [onPart_ok hx, hw]

theorem mapError_eq_ok_iff {f : ε → δ} {x : Step σ ε α} {s t : σ} {a : α} :
    mapError f x s = (.ok a, t) ↔ x s = (.ok a, t) := by
  rw [mapError, onPart_eq_ok_iff]
  constructor
  · rintro ⟨_, hx, rfl⟩
    exact hx
  · intro hx
    exact ⟨t, hx, rfl⟩

theorem bind_eq_error_iff {x : Step σ ε α} {f : α → Step σ ε β} {e : ε} {s t : σ} :
    (x >>= f) s = (.error e, t) ↔
      x s = (.error e, t) ∨ ∃ a u, x s = (.ok a, u) ∧ f a u = (.error e, t) := by
  constructor
  · intro h
    rcases hx : x s with ⟨e' | a, u⟩
    · rw [bind_error hx] at h
      cases h
      exact .inl rfl
    · rw [bind_ok hx] at h
      exact .inr ⟨a, u, rfl, h⟩
  · rintro (hx | ⟨a, u, hx, hf⟩)
    · exact bind_error hx f
    · rw [bind_ok hx, hf]

theorem not_pure_eq_error {a : α} {e : ε} {s t : σ} :
    ¬(pure a : Step σ ε α) s = (.error e, t) := nofun

def Reads (x : Step σ ε α) : Prop := ∀ s, (x s).2 = s

namespace Reads

theorem pure (a : α) : Reads (pure a : Step σ ε α) := fun _ => rfl

theorem throw (e : ε) : Reads (throw e : Step σ ε α) := fun _ => rfl

theorem ofExcept (r : Except ε α) : Reads (ofExcept r : Step σ ε α) := fun _ => rfl

theorem answer (f : σ → Except ε α) : Reads (answer f) := fun _ => rfl

theorem bind {x : Step σ ε α} {f : α → Step σ ε β} (hx : Reads x) (hf : ∀ a, Reads (f a)) :
    Reads (x >>= f) := by
  intro s
  rcases h : x s with ⟨e | a, t⟩
  · rw [bind_error h, ← hx s, h]
  · rw [bind_ok h, hf a t, ← hx s, h]

theorem onPart {part : ω → σ} {replace : ω → σ → ω} {wrap : ε → δ} {x : Step σ ε α} (hx : Reads x)
    (hr : ∀ w, replace w (part w) = w) : Reads (onPart part replace wrap x) := by
  intro w
  rcases h : x (part w) with ⟨e | a, t⟩
  · rw [onPart_error h, ← show (x (part w)).2 = t by rw [h], hx, hr]
  · rw [onPart_ok h, ← show (x (part w)).2 = t by rw [h], hx, hr]

theorem mapError {f : ε → δ} {x : Step σ ε α} (hx : Reads x) : Reads (mapError f x) :=
  hx.onPart fun _ => rfl

theorem mapM {f : α → Step σ ε β} (hf : ∀ a, Reads (f a)) (l : List α) : Reads (l.mapM f) := by
  induction l with
  | nil => exact pure []
  | cons a l ih =>
    rw [List.mapM_cons]
    exact (hf a).bind fun b => ih.bind fun bs => pure (b :: bs)

/-- A reading step gives its answer and the state as it was. -/
theorem eq {x : Step σ ε α} (hx : Reads x) {s t : σ} {r : Except ε α} (h : x s = (r, t)) :
    t = s := by
  rw [← hx s, h]

end Reads

/-- Whatever comes of the step, `f` is afterwards what it was before. -/
def Keeps (f : σ → β) (x : Step σ ε α) : Prop := ∀ s, f (x s).2 = f s

namespace Keeps

variable {f : σ → β}

theorem of_reads {x : Step σ ε α} (hx : Reads x) : Keeps f x := fun s => congrArg f (hx s)

theorem bind {x : Step σ ε α} {g : α → Step σ ε γ} (hx : Keeps f x) (hg : ∀ a, Keeps f (g a)) :
    Keeps f (x >>= g) := by
  intro s
  have hs := hx s
  rcases h : x s with ⟨e | a, t⟩ <;> rw [h] at hs
  · rw [bind_error h]
    exact hs
  · rw [bind_ok h, hg a t]
    exact hs

theorem ite {c : Prop} [Decidable c] {x y : Step σ ε α} (hx : Keeps f x) (hy : Keeps f y) :
    Keeps f (if c then x else y) := by
  split
  · exact hx
  · exact hy

/-- A step elsewhere, in a part of the state that `f` does not look at. -/
theorem onPart {π : Type} {part : σ → π} {replace : σ → π → σ} {wrap : δ → ε} (x : Step π δ α)
    (hf : ∀ s t, f (replace s t) = f s) : Keeps f (onPart part replace wrap x) := by
  intro s
  rcases hx : x (part s) with ⟨e | a, t⟩
  · rw [onPart_error hx]
    exact hf s t
  · rw [onPart_ok hx]
    exact hf s t

end Keeps

/-- The same failure, or results that `V` relates, and in both cases states that `R` relates. -/
def Agree (R : σ → ρ → Prop) (V : α → β → Prop) : Except ε α × σ → Except ε β × ρ → Prop
  | (.ok a, s), (.ok b, t) => V a b ∧ R s t
  | (.error e, s), (.error e', t) => e = e' ∧ R s t
  | _, _ => False

def Related (R : σ → ρ → Prop) (V : α → β → Prop) (x : Step σ ε α) (y : Step ρ ε β) : Prop :=
  ∀ s t, R s t → Agree R V (x s) (y t)

namespace Agree

variable {R R' : σ → ρ → Prop} {V : α → β → Prop}

theorem snd {p : Except ε α × σ} {q : Except ε β × ρ} (h : Agree R V p q) : R p.2 q.2 := by
  obtain ⟨e | a, s⟩ := p <;> obtain ⟨e' | b, t⟩ := q
  · exact h.2
  · exact h.elim
  · exact h.elim
  · exact h.2

/-- The states may be related in another way than the one that was compared. -/
theorem of_snd {p : Except ε α × σ} {q : Except ε β × ρ} (h : Agree R V p q)
    (hs : R' p.2 q.2) : Agree R' V p q := by
  obtain ⟨e | a, s⟩ := p <;> obtain ⟨e' | b, t⟩ := q
  · exact ⟨h.1, hs⟩
  · exact h.elim
  · exact h.elim
  · exact ⟨h.1, hs⟩

theorem mono {p : Except ε α × σ} {q : Except ε β × ρ} (h : Agree R V p q)
    (hR : ∀ s t, R s t → R' s t) : Agree R' V p q :=
  h.of_snd (hR _ _ h.snd)

theorem imp {W : α → β → Prop} {p : Except ε α × σ} {q : Except ε β × ρ} (h : Agree R V p q)
    (hV : ∀ a b, V a b → W a b) : Agree R W p q := by
  obtain ⟨e | a, s⟩ := p <;> obtain ⟨e' | b, t⟩ := q
  · exact h
  · exact h.elim
  · exact h.elim
  · exact ⟨hV a b h.1, h.2⟩

theorem fst {p : Except ε α × σ} {q : Except ε α × ρ} (h : Agree R Eq p q) : q.1 = p.1 := by
  obtain ⟨e | a, s⟩ := p <;> obtain ⟨e' | b, t⟩ := q
  · exact congrArg Except.error h.1.symm
  · exact h.elim
  · exact h.elim
  · exact congrArg Except.ok h.1.symm

/-- What follows is compared from where the two runs are. -/
theorem bind {α' β' : Type} {W : α' → β' → Prop} {x : Step σ ε α} {y : Step ρ ε β}
    {f : α → Step σ ε α'} {g : β → Step ρ ε β'} {s : σ} {t : ρ} (h : Agree R V (x s) (y t))
    (hf : ∀ a b s' t', x s = (.ok a, s') → y t = (.ok b, t') → V a b → R s' t' →
      Agree R W (f a s') (g b t')) : Agree R W ((x >>= f) s) ((y >>= g) t) := by
  rcases hs : x s with ⟨e | a, s'⟩ <;> rcases ht : y t with ⟨e' | b, t'⟩ <;> rw [hs, ht] at h
  · rw [bind_error hs, bind_error ht]
    exact h
  · exact h.elim
  · exact h.elim
  · rw [bind_ok hs, bind_ok ht]
    exact hf a b s' t' hs ht h.1 h.2

end Agree

namespace Related

variable {R : σ → ρ → Prop} {V : α → β → Prop}

theorem pure {a : α} {b : β} (h : V a b) :
    Related R V (pure a : Step σ ε α) (pure b : Step ρ ε β) :=
  fun _ _ hR => ⟨h, hR⟩

theorem throw (e : ε) : Related R V (throw e : Step σ ε α) (throw e : Step ρ ε β) :=
  fun _ _ hR => ⟨rfl, hR⟩

theorem of_eq (x : Step σ ε α) : Related Eq Eq x x := by
  rintro s _ rfl
  rcases x s with ⟨e | a, t⟩
  · exact ⟨rfl, rfl⟩
  · exact ⟨rfl, rfl⟩

theorem ofExcept (r : Except ε α) :
    Related R Eq (ofExcept r : Step σ ε α) (ofExcept r : Step ρ ε α) := by
  intro s t hR
  cases r with
  | error e => exact ⟨rfl, hR⟩
  | ok a => exact ⟨rfl, hR⟩

theorem bind {α' β' : Type} {W : α' → β' → Prop} {x : Step σ ε α} {y : Step ρ ε β}
    {f : α → Step σ ε α'} {g : β → Step ρ ε β'} (hx : Related R V x y)
    (hf : ∀ a b, V a b → Related R W (f a) (g b)) : Related R W (x >>= f) (y >>= g) :=
  fun s t hR => (hx s t hR).bind fun a b s' t' _ _ hab hR' => hf a b hab s' t' hR'

theorem ite {c : Prop} [Decidable c] {x x' : Step σ ε α} {y y' : Step ρ ε β}
    (h : c → Related R V x y) (h' : ¬c → Related R V x' y') :
    Related R V (if c then x else x') (if c then y else y') := by
  by_cases hc : c
  · simpa only [if_pos hc] using h hc
  · simpa only [if_neg hc] using h' hc

theorem attempt {x : Step σ ε α} {y : Step ρ ε α} (h : Related R Eq x y) :
    Related R Eq (attempt x : Step σ δ (Except ε α)) (attempt y : Step ρ δ (Except ε α)) := by
  intro s t hR
  have h := h s t hR
  rw [attempt_apply, attempt_apply]
  rcases hx : x s with ⟨e | a, s'⟩ <;> rcases hy : y t with ⟨e' | b, t'⟩ <;> rw [hx, hy] at h
  · exact ⟨congrArg _ h.1, h.2⟩
  · exact h.elim
  · exact h.elim
  · exact ⟨congrArg _ h.1, h.2⟩

/-- What follows an attempt may look at the failure. -/
theorem attempt_bind {α' β' : Type} {W : α' → β' → Prop} {x : Step σ ε α} {y : Step ρ ε β}
    {f : Except ε α → Step σ δ α'} {g : Except ε β → Step ρ δ β'} (h : Related R V x y)
    (hok : ∀ a b, V a b → Related R W (f (.ok a)) (g (.ok b)))
    (herror : ∀ e, Related R W (f (.error e)) (g (.error e))) :
    Related R W (Step.attempt x >>= f) (Step.attempt y >>= g) := by
  intro s t hR
  have h := h s t hR
  rw [bind_ok (attempt_apply x s), bind_ok (attempt_apply y t)]
  rcases hx : x s with ⟨e | a, s'⟩ <;> rcases hy : y t with ⟨e' | b, t'⟩ <;> rw [hx, hy] at h
  · obtain ⟨rfl, hR'⟩ := h
    exact herror e s' t' hR'
  · exact h.elim
  · exact h.elim
  · exact hok a b h.1 s' t' h.2

theorem mapM {f : γ → Step σ ε α} {g : γ → Step ρ ε α} (h : ∀ c, Related R Eq (f c) (g c))
    (l : List γ) : Related R Eq (l.mapM f) (l.mapM g) := by
  induction l with
  | nil => exact pure rfl
  | cons c l ih =>
    rw [List.mapM_cons, List.mapM_cons]
    refine (h c).bind fun a b hab => ih.bind fun as bs habs => pure ?_
    rw [hab, habs]

/-- A part of the state is enough where the rest stays related. -/
theorem onPart {σ' ρ' : Type} {part : ω → σ'} {part' : ω → ρ'} {replace : ω → σ' → ω}
    {replace' : ω → ρ' → ω} {S : σ' → ρ' → Prop} {Q : ω → ω → Prop} {wrap wrap' : ε → δ}
    {x : Step σ' ε α} {y : Step ρ' ε β} (h : Related S V x y) (hwrap : ∀ e, wrap e = wrap' e)
    (hpart : ∀ w v, Q w v → S (part w) (part' v))
    (hreplace : ∀ w v s t, Q w v → S s t → Q (replace w s) (replace' v t)) :
    Related Q V (onPart part replace wrap x) (onPart part' replace' wrap' y) := by
  intro w v hQ
  have h := h _ _ (hpart w v hQ)
  rcases hx : x (part w) with ⟨e | a, s⟩ <;> rcases hy : y (part' v) with ⟨e' | b, t⟩ <;>
    rw [hx, hy] at h
  · obtain ⟨rfl, hS⟩ := h
    rw [onPart_error hx, onPart_error hy]
    exact ⟨hwrap e, hreplace w v s t hQ hS⟩
  · exact h.elim
  · exact h.elim
  · rw [onPart_ok hx, onPart_ok hy]
    exact ⟨h.1, hreplace w v s t hQ h.2⟩

theorem mapError {f : ε → δ} {x : Step σ ε α} {y : Step σ ε β} {Q : σ → σ → Prop}
    (h : Related Q V x y) : Related Q V (mapError f x) (mapError f y) :=
  h.onPart (fun _ => rfl) (fun _ _ hQ => hQ) fun _ _ _ _ _ hS => hS

/-- From related states, a success on one side is a success on the other. -/
theorem ok {x : Step σ ε α} {y : Step ρ ε β} (h : Related R V x y) {s s' : σ} {t : ρ} {a : α}
    (hR : R s t) (hx : x s = (.ok a, s')) : ∃ b t', y t = (.ok b, t') ∧ V a b ∧ R s' t' := by
  have h := h s t hR
  rw [hx] at h
  rcases hy : y t with ⟨e | b, t'⟩ <;> rw [hy] at h
  · exact h.elim
  · exact ⟨b, t', rfl, h⟩

/-- Steps with equal results from related states have the same outcome there. -/
theorem fst {x : Step σ ε α} {y : Step ρ ε α} (h : Related R Eq x y) {s : σ} {t : ρ}
    (hR : R s t) : (y t).1 = (x s).1 :=
  (h s t hR).fst

end Related

/-- From a state with `I`, the step succeeds with `J` of its result and its last state, or it fails
with `P`. -/
def Meets (I : σ → Prop) (J : α → σ → Prop) (P : ε → Prop) (x : Step σ ε α) : Prop :=
  ∀ s, I s → match x s with
    | (.ok a, t) => J a t
    | (.error e, _) => P e

/-- A success leaves `I` as it was. -/
abbrev FailsIn (I : σ → Prop) (P : ε → Prop) (x : Step σ ε α) : Prop := Meets I (fun _ => I) P x

namespace Meets

variable {I I' : σ → Prop} {J : α → σ → Prop} {K : β → σ → Prop} {P : ε → Prop}

theorem error {x : Step σ ε α} (hx : Meets I J P x) {s : σ} (hs : I s) {e : ε}
    (he : (x s).1 = .error e) : P e := by
  have h := hx s hs
  rcases hxs : x s with ⟨e' | a, t⟩ <;> rw [hxs] at h he <;> cases he
  exact h

theorem trivially (x : Step σ ε α) : FailsIn (fun _ => True) (fun _ => True) x := by
  intro s _
  split <;> trivial

theorem pure (a : α) : FailsIn I P (pure a : Step σ ε α) := fun _ hs => hs

theorem throw {e : ε} (h : P e) : Meets I J P (throw e : Step σ ε α) := fun _ _ => h

theorem bind {x : Step σ ε α} {f : α → Step σ ε β} (hx : Meets I J P x)
    (hf : ∀ a, Meets (J a) K P (f a)) : Meets I K P (x >>= f) := by
  intro s hs
  have h := hx s hs
  rcases hxs : x s with ⟨e | a, t⟩ <;> rw [hxs] at h
  · rw [bind_error hxs]
    exact h
  · rw [bind_ok hxs]
    exact hf a t h

theorem of_ok {x : Step σ ε α} (h : ∀ s, I s → ∃ a t, x s = (.ok a, t) ∧ J a t) :
    Meets I J P x := by
  intro s hs
  obtain ⟨a, t, hx, hj⟩ := h s hs
  rw [hx]
  exact hj

/-- What follows a step that is known to succeed with `a`. -/
theorem bind_of {x : Step σ ε α} {f : α → Step σ ε β} {a : α}
    (hx : ∀ s, I s → ∃ t, x s = (.ok a, t) ∧ I' t) (hf : Meets I' K P (f a)) :
    Meets I K P (x >>= f) := by
  intro s hs
  obtain ⟨t, hxs, ht⟩ := hx s hs
  rw [bind_ok hxs]
  exact hf t ht

/-- A step on a part of the state, where `I` of the part is what `I'` of the whole says. -/
theorem onPart {I' : ω → Prop} {K : α → ω → Prop} {part : ω → σ} {replace : ω → σ → ω}
    {wrap : ε → δ} {Q : δ → Prop} {x : Step σ ε α} (hx : Meets I J P x)
    (hpart : ∀ w, I' w → I (part w)) (hreplace : ∀ w a s, I' w → J a s → K a (replace w s))
    (hwrap : ∀ e, P e → Q (wrap e)) : Meets I' K Q (onPart part replace wrap x) := by
  intro w hw
  have h := hx (part w) (hpart w hw)
  rcases hxs : x (part w) with ⟨e | a, s⟩ <;> rw [hxs] at h
  · rw [onPart_error hxs]
    exact hwrap e h
  · rw [onPart_ok hxs]
    exact hreplace w a s hw h

theorem mapError {f : ε → δ} {Q : δ → Prop} {x : Step σ ε α} (hx : Meets I J P x)
    (hf : ∀ e, P e → Q (f e)) : Meets I J Q (mapError f x) :=
  hx.onPart (fun _ h => h) (fun _ _ _ _ h => h) hf

theorem ofExcept {r : Except ε α} (h : ∀ e, r = .error e → P e) :
    FailsIn I P (ofExcept r : Step σ ε α) := by
  intro s hs
  cases r with
  | error e => exact h e rfl
  | ok a => exact hs

theorem ofExcept_map {r : Except ε α} (h : FailsIn I P (Step.ofExcept r : Step σ ε α))
    (f : α → β) : FailsIn I P (Step.ofExcept (f <$> r) : Step σ ε β) := by
  cases r with
  | error e => exact h
  | ok a => exact pure (f a)

theorem mapM {f : α → Step σ ε β} (hf : ∀ a, FailsIn I P (f a)) (l : List α) :
    FailsIn I P (l.mapM f) := by
  induction l with
  | nil => exact pure []
  | cons a l ih =>
    rw [List.mapM_cons]
    exact (hf a).bind fun b => ih.bind fun bs => pure (b :: bs)

end Meets

end Reconciliation.Step
