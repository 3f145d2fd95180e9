import Reconciliation.Proofs.Calls
import Reconciliation.Proofs.Seeding

namespace Reconciliation

namespace AnyRecord

def HasInitialStatus (r : AnyRecord) : Prop := r.record.status = Status.initial r.kind

/-- The record stands under the key of the other one and has its status. -/
inductive KeepsStatus : AnyRecord → AnyRecord → Prop
  | intro {k : Kind} {q r : Record k} (key : q.key = r.key) (status : q.status = r.status) :
      KeepsStatus ⟨k, q⟩ ⟨k, r⟩

namespace KeepsStatus

variable {p q r : AnyRecord}

theorem refl (r : AnyRecord) : r.KeepsStatus r := ⟨rfl, rfl⟩

theorem trans (hq : q.KeepsStatus p) (hp : p.KeepsStatus r) : q.KeepsStatus r := by
  cases hq with
  | intro hkey hstatus =>
    cases hp with
    | intro hkey' hstatus' => exact ⟨hkey.trans hkey', hstatus.trans hstatus'⟩

theorem key_eq (h : q.KeepsStatus r) : q.key = r.key := by
  cases h with
  | intro hkey hstatus => exact hkey

theorem initial_iff (h : q.KeepsStatus r) : q.HasInitialStatus ↔ r.HasInitialStatus := by
  cases h with
  | intro hkey hstatus => simp only [HasInitialStatus, hstatus]

theorem issue (s : Store) (r : AnyRecord) : (s.issue r).KeepsStatus r := ⟨rfl, rfl⟩

end KeepsStatus

end AnyRecord

/-- Only a status update changes the status of a stored record. -/
theorem Store.Call.Fate.keepsStatus {k : Kind} {p : Record k} {c : Store.Call} {q : AnyRecord}
    {written : Bool} (h : Store.Call.Fate p c (some q) written) (hc : ∀ r, c ≠ .updateStatus r) :
    q.KeepsStatus ⟨k, p⟩ := by
  cases h with
  | kept => exact .refl _
  | updated hk hv => exact ⟨hk, rfl⟩
  | restated hk hv => exact absurd rfl (hc _)
  | marked now hd hf => exact ⟨rfl, rfl⟩

inductive OwnerCall where
  | create (r : AnyRecord)
  | update (r : AnyRecord)
  | delete (now : Instant) (key : Key)
  | seed (host : Host) (root : String)

namespace OwnerCall

def act : OwnerCall → Store → Store
  | create r, s => (Store.Call.create r).act s
  | update r, s => (Store.Call.update r).act s
  | delete now key, s => (Store.Call.delete now key).act s
  | seed host root, s => (RecordFiles.seed host root s : Except LoadError Nat × Store).2

/-- The records that the call asks to create. -/
def asked : OwnerCall → List AnyRecord
  | create r => [r]
  | update _ | delete _ _ => []
  | seed host root => RecordFiles.loaded host root

/-- The records that the call brings in: those with a free key. -/
def brings (c : OwnerCall) (s : Store) : List AnyRecord :=
  c.asked.filter fun r => (s.get? r.key).isNone

variable {s : Store} {c : OwnerCall} {key : Key} {p q r : AnyRecord}

theorem mem_brings : r ∈ c.brings s ↔ r ∈ c.asked ∧ s.get? r.key = none := by
  simp [brings]

theorem act_seed (host : Host) (root : String) (s : Store) : (seed host root).act s =
    (RecordFiles.loaded host root).foldl (fun s r => (Store.create r s).2) s :=
  RecordFiles.seed_apply host root s

theorem act_wellFormed (hs : s.WellFormed) (c : OwnerCall) : (c.act s).WellFormed := by
  cases c with
  | create r => exact Store.Call.act_wellFormed hs _
  | update r => exact Store.Call.act_wellFormed hs _
  | delete now key => exact Store.Call.act_wellFormed hs _
  | seed host root =>
    rw [act_seed]
    exact hs.creates _

/-- A record that stays stored over a call of its owner keeps its status. -/
theorem keepsStatus_of_stored (hs : s.WellFormed) (hp : s.get? key = some p)
    (hq : (c.act s).get? key = some q) : q.KeepsStatus p := by
  obtain ⟨k, p⟩ := p
  obtain rfl : p.key = key := hs.key_eq hp
  have hcall : ∀ c : Store.Call, (∀ r, c ≠ .updateStatus r) → (c.act s).get? p.key = some q →
      q.KeepsStatus ⟨k, p⟩ := by
    intro c hc hq
    have hfate := Store.Call.fate hs hp c
    rw [hq] at hfate
    exact hfate.keepsStatus hc
  cases c with
  | create r => exact hcall _ (by simp) hq
  | update r => exact hcall _ (by simp) hq
  | delete now key => exact hcall _ (by simp) hq
  | seed host root =>
    rw [act_seed, Store.get?_creates_of_stored hp] at hq
    cases hq
    exact .refl _

/-- What a call puts under a free key is one of the records that it brings in. -/
theorem exists_mem_brings (hs : s.WellFormed) (hn : s.get? key = none)
    (hq : (c.act s).get? key = some q) : ∃ r ∈ c.brings s, q.KeepsStatus r := by
  cases c with
  | create r =>
    obtain ⟨r', hc, rfl, rfl⟩ := Store.Call.created_of_none hs hn hq
    cases hc
    exact ⟨r, mem_brings.2 ⟨List.mem_singleton_self r, hn⟩, .issue s r⟩
  | update r =>
    obtain ⟨r', hc, -⟩ := Store.Call.created_of_none hs hn hq
    cases hc
  | delete now key' =>
    obtain ⟨r', hc, -⟩ := Store.Call.created_of_none hs hn hq
    cases hc
  | seed host root =>
    have hkey : q.key = key := (act_wellFormed hs _).key_eq hq
    rw [act_seed] at hq
    rcases Store.get?_of_creates hq with hq | ⟨r, hr, t, rfl⟩
    · rw [hn] at hq
      cases hq
    · have hfree : s.get? r.key = none := by
        rw [← (AnyRecord.KeepsStatus.issue t r).key_eq, hkey, hn]
      exact ⟨r, mem_brings.2 ⟨hr, hfree⟩, .issue t r⟩

/-- Whatever a call brings in is stored with its status. -/
theorem stored_of_mem_brings (hr : r ∈ c.brings s) :
    ∃ q, (c.act s).get? r.key = some q ∧ q.KeepsStatus r := by
  obtain ⟨hasked, hn⟩ := mem_brings.1 hr
  cases c with
  | create r' =>
    obtain rfl : r = r' := List.mem_singleton.1 hasked
    refine ⟨s.issue r, ?_, .issue s r⟩
    rw [act, Store.Call.act_create, Store.get?_create, if_pos ⟨rfl, hn⟩]
  | update r' => cases hasked
  | delete now key' => cases hasked
  | seed host root =>
    obtain ⟨t, ht⟩ := Store.get?_creates_of_none (RecordFiles.nodup_loaded host root) hasked hn
    rw [act_seed]
    exact ⟨t.issue r, ht, .issue t r⟩

/-- The store after these calls on the empty store. -/
def run (calls : List OwnerCall) : Store := calls.foldl (fun s c => c.act s) ∅

variable {calls : List OwnerCall}

theorem run_concat (calls : List OwnerCall) (c : OwnerCall) :
    run (calls ++ [c]) = c.act (run calls) := by
  simp [run]

theorem run_wellFormed (calls : List OwnerCall) : (run calls).WellFormed := by
  induction calls using List.reverseRecOn with
  | nil => exact Store.wellFormed_empty
  | append_singleton calls c ih =>
    rw [run_concat]
    exact act_wellFormed ih c

/-- The record was brought in by one of the calls, and ever since a record has been stored under its
key that has its status. -/
def Origin (calls : List OwnerCall) (r : AnyRecord) : Prop :=
  ∃ before c after, calls = before ++ c :: after ∧ r ∈ c.brings (run before) ∧
    ∀ later, later <+: after →
      ∃ q, (run (before ++ c :: later)).get? r.key = some q ∧ q.KeepsStatus r

theorem origin_of_mem_brings (h : r ∈ c.brings (run calls)) : Origin (calls ++ [c]) r := by
  refine ⟨calls, c, [], rfl, h, fun later hlater => ?_⟩
  obtain rfl : later = [] := List.prefix_nil.1 hlater
  rw [run_concat]
  exact stored_of_mem_brings h

/-- One more call, over which the key stays stored. -/
theorem Origin.concat (h : Origin calls r) (hq : (c.act (run calls)).get? r.key = some q) :
    Origin (calls ++ [c]) r ∧ q.KeepsStatus r := by
  obtain ⟨before, first, after, rfl, hr, hafter⟩ := h
  obtain ⟨p, hp, hkeeps⟩ := hafter after (List.prefix_refl after)
  have hqr : q.KeepsStatus r :=
    (keepsStatus_of_stored (run_wellFormed _) hp hq).trans hkeeps
  refine ⟨⟨before, first, after ++ [c], by simp, hr, fun later hlater => ?_⟩, hqr⟩
  rcases List.prefix_concat_iff.1 hlater with rfl | hlater
  · have hrun : run (before ++ first :: (after ++ [c])) =
        c.act (run (before ++ first :: after)) := by
      rw [← run_concat]
      simp
    rw [hrun]
    exact ⟨q, hq, hqr⟩
  · exact hafter later hlater

/-- Every stored record has an origin, by induction on the calls: the last one either brought the
record in, or found it stored. -/
theorem exists_origin (h : (run calls).get? key = some q) :
    ∃ r, Origin calls r ∧ q.KeepsStatus r := by
  induction calls using List.reverseRecOn generalizing q with
  | nil => cases h
  | append_singleton calls c ih =>
    rw [run_concat] at h
    cases hp : (run calls).get? key with
    | none =>
      obtain ⟨r, hr, hq⟩ := exists_mem_brings (run_wellFormed calls) hp h
      exact ⟨r, origin_of_mem_brings hr, hq⟩
    | some p =>
      obtain ⟨r, horigin, hpr⟩ := ih hp
      have hkey : r.key = key := by
        rw [← hpr.key_eq, (run_wellFormed calls).key_eq hp]
      exact ⟨r, horigin.concat (hkey ▸ h)⟩

end OwnerCall

/-- After any calls of owners on the empty store, each record has the status with which it was
brought in, and has had it ever since. So all that was ever stored has the initial status exactly if
all that was brought in had it. -/
theorem status_provenance (calls : List OwnerCall) :
    (∀ key q, (OwnerCall.run calls).get? key = some q →
      ∃ r, OwnerCall.Origin calls r ∧ q.KeepsStatus r) ∧
    ((∀ earlier, earlier <+: calls → ∀ key q, (OwnerCall.run earlier).get? key = some q →
      q.HasInitialStatus) ↔
    ∀ before c after, calls = before ++ c :: after → ∀ r ∈ c.brings (OwnerCall.run before),
      r.HasInitialStatus) := by
  refine ⟨fun key q hq => OwnerCall.exists_origin hq, fun h before c after hsplit r hr => ?_,
    fun h earlier hearlier key q hq => ?_⟩
  · obtain ⟨q, hq, hkeeps⟩ := OwnerCall.stored_of_mem_brings hr
    have hearlier : before ++ [c] <+: calls := ⟨after, by simp [hsplit]⟩
    rw [← OwnerCall.run_concat] at hq
    exact hkeeps.initial_iff.1 (h _ hearlier _ q hq)
  · obtain ⟨r, ⟨before, c, after, rfl, hr, -⟩, hkeeps⟩ := OwnerCall.exists_origin hq
    obtain ⟨rest, rfl⟩ := hearlier
    exact hkeeps.initial_iff.2 (h before c (after ++ rest) (by simp) r hr)

namespace Small

def frozenInPlace : FrozenStatus AzSpec := FrozenStatus.mk "" (some {}) true

theorem frozenInPlace_ne_initial : frozenInPlace ≠ Status.initial .az := fun h => by
  cases congrArg FrozenStatus.available h

/-- An AZ of which its owner says that it is frozen and in place. -/
def claimedAz : Record .az :=
  { (Record.new "team-a" "z" ({} : AzSpec) : Record .az) with status := frozenInPlace }

/-- The stored AZ as its owner writes it back, now without a status. -/
def disclaimedAz : Record .az :=
  { claimedAz with
    metadata := { claimedAz.metadata with version := 1 }
    status := Status.initial .az }

def disclaimer : List OwnerCall := [.create claimedAz, .update disclaimedAz]

end Small

/-- The update does not take the claimed status back. -/
theorem status_provenance_small : ∃ q r,
    (OwnerCall.run Small.disclaimer).get? Small.claimedAz.key = some q ∧
      OwnerCall.Origin Small.disclaimer r ∧ q.KeepsStatus r ∧ ¬q.HasInitialStatus := by
  have hstored : ((OwnerCall.run Small.disclaimer).get? Small.claimedAz.key).isSome := rfl
  obtain ⟨q, hq⟩ := Option.isSome_iff_exists.1 hstored
  obtain ⟨r, hr, hkeeps⟩ := (status_provenance Small.disclaimer).1 _ q hq
  refine ⟨q, r, hq, hr, hkeeps, ?_⟩
  cases hq
  exact Small.frozenInPlace_ne_initial

/-- A record that was never reconciled is stored as frozen and available. -/
theorem claimed_status_stored : ∃ r : Record .az,
    (OwnerCall.run [.create Small.claimedAz]).get? Small.claimedAz.key = some ⟨.az, r⟩ ∧
      r.status = Small.frozenInPlace ∧ ¬AnyRecord.HasInitialStatus ⟨.az, r⟩ :=
  ⟨_, rfl, rfl, Small.frozenInPlace_ne_initial⟩

end Reconciliation
