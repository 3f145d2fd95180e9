import Mathlib.Algebra.GroupWithZero.Nat
import Mathlib.Data.List.Forall2
import Reconciliation.Composition

namespace Reconciliation

namespace Forall₂

variable {α β : Type} {R : α → β → Prop} {l : List α} {bs : List β}

theorem exists_iff : (∃ bs, List.Forall₂ R l bs) ↔ ∀ a ∈ l, ∃ b, R a b := by
  induction l with
  | nil => simp
  | cons a l ih =>
    rw [List.forall_mem_cons, ← ih]
    constructor
    · intro ⟨_, h⟩
      cases h with
      | cons hab h => exact ⟨⟨_, hab⟩, _, h⟩
    · intro ⟨⟨b, hab⟩, bs, h⟩
      exact ⟨b :: bs, .cons hab h⟩

theorem mem_right_iff (h : List.Forall₂ R l bs) (hR : ∀ {a b b'}, R a b → R a b' → b = b') {b : β} :
    b ∈ bs ↔ ∃ a ∈ l, R a b := by
  induction h with
  | nil => simp
  | @cons a' b' l bs hab h ih =>
    rw [List.mem_cons, List.exists_mem_cons_iff, ih]
    exact or_congr_left ⟨fun hb => hb ▸ hab, fun hb => hR hb hab⟩

theorem exists_left (h : List.Forall₂ R l bs) {b : β} (hb : b ∈ bs) : ∃ a ∈ l, R a b := by
  induction h with
  | nil => cases hb
  | cons hab h ih =>
    rw [List.exists_mem_cons_iff]
    rcases List.mem_cons.1 hb with rfl | hb
    · exact .inl hab
    · exact .inr (ih hb)

/-- What is found in the one list is beside what is found in the other. -/
theorem find?_eq_some (h : List.Forall₂ R l bs) {p : α → Bool} {q : β → Bool}
    (hpq : ∀ {a b}, R a b → p a = q b) {a : α} (ha : l.find? p = some a) :
    ∃ b, bs.find? q = some b ∧ R a b := by
  induction h with
  | nil => cases ha
  | @cons a' b' l bs hab h ih =>
    rw [List.find?_cons] at ha
    rw [List.find?_cons, ← hpq hab]
    cases hp : p a' with
    | true =>
      rw [hp] at ha
      cases ha
      exact ⟨b', rfl, hab⟩
    | false =>
      rw [hp] at ha
      exact ih ha

theorem exists_pairs {γ : Type} {S : α → γ → Prop} {cs : List γ} (h : List.Forall₂ S l cs)
    (hR : ∀ {a c}, S a c → ∃ b, R a b) : ∃ ps : List (β × γ),
      List.Forall₂ (fun a p => R a p.1 ∧ S a p.2) l ps ∧ ps.map (·.2) = cs := by
  induction h with
  | nil => exact ⟨[], .nil, rfl⟩
  | @cons a c l cs hac h ih =>
    obtain ⟨b, hb⟩ := hR hac
    obtain ⟨ps, hps, hcs⟩ := ih
    exact ⟨(b, c) :: ps, .cons ⟨hb, hac⟩ hps, congrArg (c :: ·) hcs⟩

end Forall₂

namespace Entries

variable {κ β : Type} [Ord κ] [Std.TransOrd κ] [Std.LawfulEqOrd κ] [DecidableEq κ]

/-- Of several entries with one key the last is found. -/
theorem get?_ofList (l : List (κ × β)) (k : κ) :
    get? k (ofList l) = (l.reverse.find? (·.1 = k)).map (·.2) := by
  have hfold : ∀ l acc : List (κ × β), get? k (l.foldl (fun acc e => insert e.1 e.2 acc) acc) =
      ((l.reverse.find? (·.1 = k)).map (·.2)).or (get? k acc) := by
    intro l
    induction l with
    | nil => intro acc; simp
    | cons e l ih =>
      intro acc
      rw [List.foldl_cons, ih, get?_insert, List.reverse_cons, List.find?_append]
      by_cases he : e.1 = k
      · cases l.reverse.find? (·.1 = k) <;> simp [he]
      · cases l.reverse.find? (·.1 = k) <;> simp [he, Ne.symm he]
  have hnil := hfold l []
  simpa [ofList, get?] using hnil

end Entries

namespace Table

variable {κ β : Type} [Ord κ] [Std.TransOrd κ] [Std.LawfulEqOrd κ] [DecidableEq κ]

theorem get?_ofList (l : List (κ × β)) (k : κ) :
    (ofList l).get? k = (l.reverse.find? (·.1 = k)).map (·.2) :=
  Entries.get?_ofList l k

omit [Std.TransOrd κ] [Std.LawfulEqOrd κ] [DecidableEq κ] in
theorem ascending_keys (t : Table κ β) : t.keys.Pairwise fun a b => compare a b = .lt :=
  List.pairwise_map.2 t.ascending

omit [DecidableEq κ] in
theorem mem_keys {t : Table κ β} {k : κ} : k ∈ t.keys ↔ ∃ v, t.get? k = some v := by
  simp [keys, get?_eq_some_iff, toList]

theorem mem_keys_ofList {l : List (κ × β)} {k : κ} :
    k ∈ (ofList l).keys ↔ k ∈ l.map (·.1) := by
  have hfound : (∃ v, (ofList l).get? k = some v) ↔
      (l.reverse.find? (·.1 = k)).isSome = true := by
    rw [get?_ofList, ← Option.isSome_iff_exists, Option.isSome_map]
  rw [mem_keys, hfound, List.find?_isSome]
  simp

/-- The keys of a table are the members of the list in order and without repetition. -/
theorem keys_ofList_eq_iff {l : List (κ × β)} {ks : List κ} : (ofList l).keys = ks ↔
    ks.Pairwise (fun a b => compare a b = .lt) ∧ ∀ k, k ∈ ks ↔ k ∈ l.map (·.1) := by
  constructor
  · rintro rfl
    exact ⟨ascending_keys _, fun _ => mem_keys_ofList⟩
  · intro ⟨hks, hmem⟩
    have hinj : Function.Injective fun k : κ => (k, ()) := fun _ _ h => congrArg Prod.fst h
    refine List.map_injective_iff.2 hinj (Entries.eq_of_mem_iff ?_ ?_ fun e => ?_)
    · exact List.pairwise_map.2 (ascending_keys _)
    · exact List.pairwise_map.2 hks
    · simp [mem_keys_ofList, hmem]

/-- The entry is the last, in key order, of those with a value that `p` holds of. -/
structure Last (t : Table κ β) (p : β → Prop) (k : κ) (v : β) : Prop where
  get? : t.get? k = some v
  holds : p v
  last : ∀ {k' v'}, t.get? k' = some v' → p v' → k' = k ∨ compare k' k = .lt

omit [DecidableEq κ] in
theorem Last.unique {t : Table κ β} {p : β → Prop} {k k' : κ} {v v' : β} (h : t.Last p k v)
    (h' : t.Last p k' v') : k = k' ∧ v = v' := by
  have hk : k = k' := by
    rcases h.last h'.get? h'.holds with heq | hlt
    · exact heq.symm
    · rcases h'.last h.get? h.holds with heq | hgt
      · exact heq
      · have hself := Std.TransCmp.lt_trans hlt hgt
        simp [Std.ReflCmp.compare_self] at hself
  have hv := h.get?
  rw [hk, h'.get?] at hv
  exact ⟨hk, (Option.some.inj hv).symm⟩

omit [DecidableEq κ] in
theorem find?_reverse_eq_some_iff {t : Table κ β} {p : β → Prop} [DecidablePred p] {e : κ × β} :
    t.toList.reverse.find? (fun e => p e.2) = some e ↔ t.Last p e.1 e.2 := by
  have hlast : ∀ {e : κ × β}, t.toList.reverse.find? (fun e => p e.2) = some e →
      t.Last p e.1 e.2 := by
    intro e he
    obtain ⟨hp, later, earlier, hl, hlater⟩ := List.find?_eq_some_iff_append.1 he
    have hmem : ∀ {k v}, t.get? k = some v → (k, v) ∈ later ++ e :: earlier := by
      intro k v hv
      rw [← hl]
      exact List.mem_reverse.2 (get?_eq_some_iff.1 hv)
    have hsorted : (later ++ e :: earlier).Pairwise fun a b => compare b.1 a.1 = .lt := by
      rw [← hl]
      exact List.pairwise_reverse.2 t.ascending
    have hearlier := (List.pairwise_cons.1 (List.pairwise_append.1 hsorted).2.1).1
    refine ⟨?_, by simpa using hp, fun {k' v'} hv' hp' => ?_⟩
    · exact get?_eq_some_iff.2 (by simpa using List.mem_of_find?_eq_some he)
    · rcases List.mem_append.1 (hmem hv') with h | h
      · simpa [hp'] using hlater _ h
      · rcases List.mem_cons.1 h with h | h
        · exact .inl (congrArg Prod.fst h)
        · exact .inr (hearlier _ h)
  constructor
  · exact hlast
  · intro h
    have hmem : e ∈ t.toList := get?_eq_some_iff.1 h.get?
    have hfound : (t.toList.reverse.find? (fun e => p e.2)).isSome = true :=
      List.find?_isSome.2 ⟨e, by simpa using hmem, by simpa using h.holds⟩
    obtain ⟨e', he'⟩ := Option.isSome_iff_exists.1 hfound
    obtain ⟨hk, hv⟩ := (hlast he').unique h
    rw [he', Prod.ext hk hv]

/-- The table has what `V` makes of the values of `t`, under the links that the values name. Where
several values name one link, the last counts. -/
structure Relinked {ι γ : Type} [Ord ι] (link : β → ι) (V : κ → β → γ → Prop) (t : Table κ β)
    (out : Table ι γ) : Prop where
  total : ∀ ⦃k v⦄, t.get? k = some v → ∃ c, V k v c
  get?_iff : ∀ {i c}, out.get? i = some c ↔ ∃ k v, t.Last (fun v => link v = i) k v ∧ V k v c

section

variable {ι γ : Type} [Ord ι] [Std.TransOrd ι] [Std.LawfulEqOrd ι] [DecidableEq ι] {link : β → ι}
  {V : κ → β → γ → Prop} {t : Table κ β}

omit [DecidableEq κ] [DecidableEq ι] [Std.TransOrd κ] [Std.LawfulEqOrd κ] in
theorem Relinked.unique {out out' : Table ι γ} (h : t.Relinked link V out)
    (h' : t.Relinked link V out') : out = out' := by
  refine ext_get? fun i => Option.ext fun c => ?_
  rw [h.get?_iff, h'.get?_iff]

omit [DecidableEq κ] in
theorem relinked_ofList (hV : ∀ ⦃k v c c'⦄, V k v c → V k v c' → c = c') {l : List (ι × γ)}
    (h : List.Forall₂ (fun e out => out.1 = link e.2 ∧ V e.1 e.2 out.2) t.toList l) :
    t.Relinked link V (ofList l) where
  total k v hv := by
    obtain ⟨out, -, hout⟩ := Forall₂.exists_iff.1 ⟨l, h⟩ _ (get?_eq_some_iff.1 hv)
    exact ⟨out.2, hout⟩
  get?_iff {i c} := by
    have hrev := List.forall₂_reverse_iff.2 h
    rw [get?_ofList]
    constructor
    · intro hc
      obtain ⟨out, hout, rfl⟩ := Option.map_eq_some_iff.1 hc
      obtain ⟨e, he, -, hV'⟩ := Forall₂.find?_eq_some (p := fun out => out.1 = i)
        (q := fun e => link e.2 = i) hrev.flip (fun hR => by simp [hR.1]) hout
      exact ⟨e.1, e.2, find?_reverse_eq_some_iff.1 he, hV'⟩
    · intro ⟨k, v, hlast, hc⟩
      obtain ⟨out, hout, -, hV'⟩ := Forall₂.find?_eq_some (q := fun out => out.1 = i) hrev
        (fun hR => by simp [hR.1]) (find?_reverse_eq_some_iff (e := (k, v)).2 hlast)
      rw [hout, Option.map_some, hV hV' hc]

omit [DecidableEq κ] [Ord ι] [Std.TransOrd ι] [Std.LawfulEqOrd ι] [DecidableEq ι] in
theorem exists_links (h : ∀ ⦃k v⦄, t.get? k = some v → ∃ c, V k v c) : ∃ l : List (ι × γ),
    List.Forall₂ (fun e out => out.1 = link e.2 ∧ V e.1 e.2 out.2) t.toList l := by
  refine Forall₂.exists_iff.2 fun e he => ?_
  obtain ⟨c, hc⟩ := h (get?_eq_some_iff.2 he)
  exact ⟨(link e.2, c), rfl, hc⟩

omit [DecidableEq κ] in
theorem relinked_iff (hV : ∀ ⦃k v c c'⦄, V k v c → V k v c' → c = c') {out : Table ι γ} :
    t.Relinked link V out ↔ ∃ l, List.Forall₂ (fun e out => out.1 = link e.2 ∧ V e.1 e.2 out.2)
      t.toList l ∧ out = ofList l := by
  constructor
  · intro h
    obtain ⟨l, hl⟩ := exists_links h.total
    exact ⟨l, hl, h.unique (relinked_ofList hV hl)⟩
  · rintro ⟨l, hl, rfl⟩
    exact relinked_ofList hV hl

omit [DecidableEq κ] in
theorem exists_relinked_iff (hV : ∀ ⦃k v c c'⦄, V k v c → V k v c' → c = c') :
    (∃ out, t.Relinked link V out) ↔ ∀ ⦃k v⦄, t.get? k = some v → ∃ c, V k v c := by
  constructor
  · intro ⟨_, h⟩
    exact h.total
  · intro h
    obtain ⟨l, hl⟩ : ∃ l : List (ι × γ),
        List.Forall₂ (fun e out => out.1 = link e.2 ∧ V e.1 e.2 out.2) t.toList l :=
      exists_links h
    exact ⟨ofList l, relinked_ofList hV hl⟩

end

end Table

/-- Releases are ordered by name, and by version where the names are equal. -/
theorem ReleaseRef.compare_eq_lt {a b : ReleaseRef} : compare a b = .lt ↔
    compare a.name b.name = .lt ∨ a.name = b.name ∧ compare a.version b.version = .lt := by
  have h : compare a b = (compare a.name b.name).then (compare a.version b.version) := rfl
  rw [h, Ordering.then_eq_lt, Std.LawfulEqCmp.compare_eq_iff_eq]

theorem UInt64.exists_toNat_eq_iff {n : Nat} : (∃ a : UInt64, a.toNat = n) ↔ n < UInt64.size := by
  constructor
  · rintro ⟨a, rfl⟩
    exact a.toNat_lt
  · intro hn
    exact ⟨UInt64.ofNat n, UInt64.toNat_ofNat_of_lt hn⟩

namespace Footprint

theorem add?_eq_some_iff {a b c : UInt64} :
    add? a b = some c ↔ c.toNat = a.toNat + b.toNat := by
  have hc : c.toNat < UInt64.size := c.toNat_lt
  unfold add?
  split
  · next h =>
    have hsum : (a + b).toNat = a.toNat + b.toNat := by
      rw [UInt64.toNat_add]
      exact Nat.mod_eq_of_lt h
    rw [Option.some.injEq, ← UInt64.toNat_inj, hsum]
    exact eq_comm
  · next h =>
    constructor
    · intro hn
      cases hn
    · omega

/-- What the containers ask for of one resource, all together. -/
def total (cs : List Container) (amount : ContainerResources → UInt64) : Nat :=
  (cs.map fun c => (amount c.resources).toNat).sum

/-- The second footprint is the first one with these amounts on top. -/
structure Grown (more : (ContainerResources → UInt64) → Nat) (f g : Footprint) : Prop where
  cpu : g.vm.cpu.toNat = f.vm.cpu.toNat + more (·.cpu)
  ram : g.vm.ram.toNat = f.vm.ram.toNat + more (·.ram)
  ephemeralDiskSize :
    g.vm.ephemeralDiskSize.toNat = f.vm.ephemeralDiskSize.toNat + more (·.ephemeralDiskSize)
  persistentDiskSize :
    g.persistentDiskSize.toNat = f.persistentDiskSize.toNat + more (·.persistentDiskSize)

theorem include?_eq_some_iff {f g : Footprint} {r : ContainerResources} :
    f.include? r = some g ↔ Grown (fun amount => (amount r).toNat) f g := by
  obtain ⟨⟨cpu, ram, ephemeral⟩, persistent⟩ := g
  simp only [include?, bind, Option.bind_eq_some_iff, pure, Option.some.injEq, mk.injEq,
    VmResources.mk.injEq, add?_eq_some_iff]
  constructor
  · rintro ⟨_, hc, _, hr, _, he, _, hp, ⟨rfl, rfl, rfl⟩, rfl⟩
    exact ⟨hc, hr, he, hp⟩
  · intro h
    exact ⟨_, h.cpu, _, h.ram, _, h.ephemeralDiskSize, _, h.persistentDiskSize,
      ⟨rfl, rfl, rfl⟩, rfl⟩

/-- Adding up stops on the way exactly if the sum at the end does not fit. -/
theorem foldlM_include?_eq_some_iff {cs : List Container} {f g : Footprint} :
    cs.foldlM (fun f c => f.include? c.resources) f = some g ↔ Grown (total cs) f g := by
  induction cs generalizing f with
  | nil =>
    obtain ⟨⟨_, _, _⟩, _⟩ := f
    obtain ⟨⟨_, _, _⟩, _⟩ := g
    simp only [List.foldlM_nil, pure, Option.some.injEq, mk.injEq, VmResources.mk.injEq]
    constructor
    · rintro ⟨⟨rfl, rfl, rfl⟩, rfl⟩
      exact ⟨rfl, rfl, rfl, rfl⟩
    · rintro ⟨hc, hr, he, hp⟩
      exact ⟨⟨(UInt64.toNat_inj.1 hc).symm, (UInt64.toNat_inj.1 hr).symm,
        (UInt64.toNat_inj.1 he).symm⟩, (UInt64.toNat_inj.1 hp).symm⟩
  | cons c cs ih =>
    have htotal : ∀ amount, total (c :: cs) amount =
        (amount c.resources).toNat + total cs amount := by
      intro amount
      simp [total]
    simp only [List.foldlM_cons, bind, Option.bind_eq_some_iff, include?_eq_some_iff, ih]
    constructor
    · rintro ⟨f', h, h'⟩
      refine ⟨?_, ?_, ?_, ?_⟩ <;> rw [htotal]
      · rw [h'.cpu, h.cpu, Nat.add_assoc]
      · rw [h'.ram, h.ram, Nat.add_assoc]
      · rw [h'.ephemeralDiskSize, h.ephemeralDiskSize, Nat.add_assoc]
      · rw [h'.persistentDiskSize, h.persistentDiskSize, Nat.add_assoc]
    · rintro ⟨hc, hr, he, hp⟩
      rw [htotal, ← Nat.add_assoc] at hc hr he hp
      have hfits : ∀ {n m : Nat} {a : UInt64}, a.toNat = n + m → ∃ b : UInt64, b.toNat = n := by
        intro n m a ha
        have hlt : a.toNat < UInt64.size := a.toNat_lt
        exact UInt64.exists_toNat_eq_iff.2 (by omega)
      obtain ⟨cpu, hcpu⟩ := hfits hc
      obtain ⟨ram, hram⟩ := hfits hr
      obtain ⟨ephemeral, hephemeral⟩ := hfits he
      obtain ⟨persistent, hpersistent⟩ := hfits hp
      refine ⟨⟨⟨cpu, ram, ephemeral⟩, persistent⟩, ⟨hcpu, hram, hephemeral, hpersistent⟩, ?_⟩
      rw [← hcpu] at hc
      rw [← hram] at hr
      rw [← hephemeral] at he
      rw [← hpersistent] at hp
      exact ⟨hc, hr, he, hp⟩

/-- The footprint is the exact sum of what the containers ask for. -/
structure Covers (cs : List Container) (f : Footprint) : Prop where
  cpu : f.vm.cpu.toNat = total cs (·.cpu)
  ram : f.vm.ram.toNat = total cs (·.ram)
  ephemeralDiskSize : f.vm.ephemeralDiskSize.toNat = total cs (·.ephemeralDiskSize)
  persistentDiskSize : f.persistentDiskSize.toNat = total cs (·.persistentDiskSize)

theorem ofContainers?_eq_some_iff {cs : List Container} {f : Footprint} :
    ofContainers? cs = some f ↔ Covers cs f := by
  have hzero : ∀ n, (0 : UInt64).toNat + n = n := Nat.zero_add
  rw [ofContainers?, foldlM_include?_eq_some_iff]
  constructor
  · intro h
    exact ⟨h.cpu.trans (hzero _), h.ram.trans (hzero _), h.ephemeralDiskSize.trans (hzero _),
      h.persistentDiskSize.trans (hzero _)⟩
  · intro h
    exact ⟨h.cpu.trans (hzero _).symm, h.ram.trans (hzero _).symm,
      h.ephemeralDiskSize.trans (hzero _).symm, h.persistentDiskSize.trans (hzero _).symm⟩

/-- No sum of what the containers ask for exceeds 64 bits. -/
structure Fits (cs : List Container) : Prop where
  cpu : total cs (·.cpu) < UInt64.size
  ram : total cs (·.ram) < UInt64.size
  ephemeralDiskSize : total cs (·.ephemeralDiskSize) < UInt64.size
  persistentDiskSize : total cs (·.persistentDiskSize) < UInt64.size

theorem exists_covers_iff {cs : List Container} : (∃ f, Covers cs f) ↔ Fits cs := by
  constructor
  · intro ⟨f, h⟩
    exact ⟨UInt64.exists_toNat_eq_iff.1 ⟨_, h.cpu⟩, UInt64.exists_toNat_eq_iff.1 ⟨_, h.ram⟩,
      UInt64.exists_toNat_eq_iff.1 ⟨_, h.ephemeralDiskSize⟩,
      UInt64.exists_toNat_eq_iff.1 ⟨_, h.persistentDiskSize⟩⟩
  · intro h
    obtain ⟨cpu, hcpu⟩ := UInt64.exists_toNat_eq_iff.2 h.cpu
    obtain ⟨ram, hram⟩ := UInt64.exists_toNat_eq_iff.2 h.ram
    obtain ⟨ephemeral, hephemeral⟩ := UInt64.exists_toNat_eq_iff.2 h.ephemeralDiskSize
    obtain ⟨persistent, hpersistent⟩ := UInt64.exists_toNat_eq_iff.2 h.persistentDiskSize
    exact ⟨⟨⟨cpu, ram, ephemeral⟩, persistent⟩, hcpu, hram, hephemeral, hpersistent⟩

end Footprint

namespace UpdateStrategy

/-- The bounds of the watch time fit 64 bits in milliseconds. An upper bound of zero is none. -/
structure Fits (s : UpdateStrategy) : Prop where
  min : s.minReadySeconds.toNat * 1000 < UInt64.size
  max : s.maxReadySeconds ≠ 0 → s.maxReadySeconds.toNat * 1000 < UInt64.size

end UpdateStrategy

namespace WatchTime

/-- The watch time of the strategy, in milliseconds: one wait, or a range if there is an upper
bound. -/
def Spans (s : UpdateStrategy) : WatchTime → Prop
  | fixed ms => s.maxReadySeconds = 0 ∧ ms.toNat = s.minReadySeconds.toNat * 1000
  | range low high => s.maxReadySeconds ≠ 0 ∧ low.toNat = s.minReadySeconds.toNat * 1000 ∧
    high.toNat = s.maxReadySeconds.toNat * 1000

theorem milliseconds?_eq_some_iff {seconds ms : UInt64} :
    milliseconds? seconds = some ms ↔ ms.toNat = seconds.toNat * 1000 := by
  have hms : ms.toNat < UInt64.size := ms.toNat_lt
  unfold milliseconds?
  split
  · next h =>
    have hprod : (seconds * 1000).toNat = seconds.toNat * 1000 := by
      rw [UInt64.toNat_mul]
      exact Nat.mod_eq_of_lt h
    rw [Option.some.injEq, ← UInt64.toNat_inj, hprod]
    exact eq_comm
  · next h =>
    constructor
    · intro hn
      cases hn
    · omega

theorem ofSeconds?_eq_some_iff {s : UpdateStrategy} {w : WatchTime} :
    ofSeconds? s.minReadySeconds s.maxReadySeconds = some w ↔ Spans s w := by
  simp only [ofSeconds?, bind, Option.bind_eq_some_iff, milliseconds?_eq_some_iff]
  by_cases hmax : s.maxReadySeconds = 0
  · simp only [if_pos hmax]
    cases w with
    | fixed ms => simp [Spans, hmax, pure]
    | range low high => simp [Spans, hmax, pure]
  · simp only [if_neg hmax, Option.bind_eq_some_iff, milliseconds?_eq_some_iff]
    cases w with
    | fixed ms => simp [Spans, hmax, pure]
    | range low high => simp [Spans, hmax, pure]

theorem exists_spans_iff {s : UpdateStrategy} : (∃ w, Spans s w) ↔ s.Fits := by
  constructor
  · intro ⟨w, hw⟩
    cases w with
    | fixed ms =>
      obtain ⟨hmax, hms⟩ := hw
      exact ⟨UInt64.exists_toNat_eq_iff.1 ⟨ms, hms⟩, fun h => absurd hmax h⟩
    | range low high =>
      obtain ⟨-, hlow, hhigh⟩ := hw
      exact ⟨UInt64.exists_toNat_eq_iff.1 ⟨low, hlow⟩,
        fun _ => UInt64.exists_toNat_eq_iff.1 ⟨high, hhigh⟩⟩
  · intro h
    obtain ⟨low, hlow⟩ := UInt64.exists_toNat_eq_iff.2 h.min
    by_cases hmax : s.maxReadySeconds = 0
    · exact ⟨fixed low, hmax, hlow⟩
    · obtain ⟨high, hhigh⟩ := UInt64.exists_toNat_eq_iff.2 (h.max hmax)
      exact ⟨range low high, hmax, hlow, hhigh⟩

end WatchTime

namespace UpdatePolicy

/-- The block says what the strategy asks for. -/
structure Implements (p : UpdatePolicy) (s : UpdateStrategy) : Prop where
  canaries : p.canaries = 0
  maxInFlight : p.maxInFlight = match nonempty s.maxUnavailablePercent with
    | some text => .percent text
    | none => .instances (s.maxUnavailableReplicas.getD 1)
  canaryWatchTime : WatchTime.Spans s p.canaryWatchTime
  updateWatchTime : WatchTime.Spans s p.updateWatchTime
  serial : p.serial = false
  vmStrategy : p.vmStrategy = (nonempty s.strategyType).getD "delete-create"

theorem ofStrategy?_eq_some_iff {s : UpdateStrategy} {p : UpdatePolicy} :
    ofStrategy? s = some p ↔ p.Implements s := by
  simp only [ofStrategy?, bind, Option.bind_eq_some_iff]
  constructor
  · intro ⟨w, hw, hp⟩
    cases hp
    have hspans := WatchTime.ofSeconds?_eq_some_iff.1 hw
    exact ⟨rfl, rfl, hspans, hspans, rfl, rfl⟩
  · intro h
    have hcanary := WatchTime.ofSeconds?_eq_some_iff.2 h.canaryWatchTime
    have hupdate := WatchTime.ofSeconds?_eq_some_iff.2 h.updateWatchTime
    have hsame : p.canaryWatchTime = p.updateWatchTime := by simpa [hcanary] using hupdate
    obtain ⟨canaries, flight, canary, update, serial, vm⟩ := p
    cases hsame
    cases h.canaries
    cases h.maxInFlight
    cases h.serial
    cases h.vmStrategy
    exact ⟨canary, hcanary, rfl⟩

theorem exists_implements_iff {s : UpdateStrategy} :
    (∃ p : UpdatePolicy, p.Implements s) ↔ s.Fits := by
  rw [← WatchTime.exists_spans_iff]
  constructor
  · intro ⟨p, hp⟩
    exact ⟨_, hp.updateWatchTime⟩
  · intro ⟨w, hw⟩
    exact ⟨⟨0, _, w, w, false, _⟩, rfl, rfl, hw, hw, rfl, rfl⟩

end UpdatePolicy

end Reconciliation
