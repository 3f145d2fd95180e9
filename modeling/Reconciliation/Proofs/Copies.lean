import Reconciliation.Proofs.Calls

/-! Writers read records, edit their copies and write them back, all in any order. As long as a
record stays stored, its version tells whether a copy is the latest one: exactly the latest copies
are accepted. Versions start anew when a key is used again, so that a copy from before its removal
is taken for the latest one as soon as the new record was written as often. -/
namespace Reconciliation

namespace Store

/-- The call writes back the copy, edited in anything but its key and its version. -/
inductive Call.WritesBack (copy : AnyRecord) : Call → Prop
  | update {r : AnyRecord} (hk : r.key = copy.key)
      (hv : r.metadata.version = copy.metadata.version) : WritesBack copy (.update r)
  | updateStatus {r : AnyRecord} (hk : r.key = copy.key)
      (hv : r.metadata.version = copy.metadata.version) : WritesBack copy (.updateStatus r)

variable {s t : Store} {copy : AnyRecord} {w : Call}

namespace Call

theorem WritesBack.exists_carried (hw : w.WritesBack copy) :
    ∃ r, w.Carries r ∧ r.key = copy.key ∧ r.metadata.version = copy.metadata.version := by
  cases hw with
  | @update r hk hv => exact ⟨r, .update, hk, hv⟩
  | @updateStatus r hk hv => exact ⟨r, .updateStatus, hk, hv⟩

/-- A copy that is written back is accepted exactly if it has the stored version. -/
theorem WritesBack.accepted_iff (hw : w.WritesBack copy) (hs : s.WellFormed) {q : AnyRecord}
    (hq : s.get? copy.key = some q) :
    w.accepted s = true ↔ copy.metadata.version = q.metadata.version := by
  obtain ⟨r, hr, hk, hv⟩ := hw.exists_carried
  have hanswer := hr.answer hs
  rw [← hk] at hq
  rw [← hv, accepted, outcome]
  generalize w.perform s = answer at hanswer ⊢
  cases hanswer with
  | missing hn =>
    rw [hn] at hq
    cases hq
  | conflict hq' hne =>
    cases hq'.symm.trans hq
    exact iff_of_false Bool.false_ne_true hne
  | accepted hq' heq =>
    cases hq'.symm.trans hq
    exact iff_of_true rfl heq

/-- A copy that is written back with another version is told the stored one. -/
theorem WritesBack.perform_of_ne (hw : w.WritesBack copy) (hs : s.WellFormed) {q : AnyRecord}
    (hq : s.get? copy.key = some q) (h : copy.metadata.version ≠ q.metadata.version) :
    w.perform s =
      (.error (.conflict copy.key copy.metadata.version q.metadata.version), s) := by
  obtain ⟨r, hr, hk, hv⟩ := hw.exists_carried
  have hanswer := hr.answer hs
  rw [← hk] at hq
  rw [← hv] at h
  rw [← hk, ← hv]
  generalize w.perform s = answer at hanswer ⊢
  cases hanswer with
  | missing hn =>
    rw [hn] at hq
    cases hq
  | conflict hq' hne =>
    cases hq'.symm.trans hq
    rfl
  | accepted hq' heq =>
    cases hq'.symm.trans hq
    exact absurd heq h

theorem WritesBack.not_accepted (hw : w.WritesBack copy) (hs : s.WellFormed)
    (h : ¬s.Stored copy.key) : w.accepted s = false := by
  obtain ⟨r, hr, hk, -⟩ := hw.exists_carried
  have hnone : s.get? r.key = none := by simpa [Stored, hk] using h
  have hanswer := hr.answer hs
  rw [accepted, outcome]
  generalize w.perform s = answer at hanswer ⊢
  cases hanswer with
  | missing | conflict => rfl
  | accepted hq =>
    rw [hnone] at hq
    cases hq

theorem WritesBack.writes (hw : w.WritesBack copy) (h : w.accepted s = true) :
    w.writes copy.key s = true := by
  cases hw with
  | update hk hv => simp [Call.writes, hk, h]
  | updateStatus hk hv => simp [Call.writes, hk, h]

theorem Carries.get?_of_handed_out {c : Call} {r : AnyRecord} (h : c.Carries r)
    (hs : s.WellFormed) {copies : List AnyRecord} (hc : c.perform s = (.ok copies, t))
    (hcopy : copy ∈ copies) (hstored : t.Stored copy.key) : t.get? copy.key = some copy := by
  have hanswer := h.answer hs
  rw [hc] at hanswer
  cases hanswer with
  | accepted hq hv hq' =>
    obtain rfl := List.mem_singleton.1 hcopy
    rcases hq' with hnone | hsome
    · rw [Stored, hnone] at hstored
      cases hstored
    · exact hsome

/-- A copy that a call hands out is what is then stored under its key, if anything is. -/
theorem get?_of_handed_out (hs : s.WellFormed) {c : Call} {copies : List AnyRecord}
    (hc : c.perform s = (.ok copies, t)) (hcopy : copy ∈ copies) (hstored : t.Stored copy.key) :
    t.get? copy.key = some copy := by
  cases c with
  | get key =>
    cases hr : s.get? key with
    | none =>
      rw [perform_get, Store.get, hr] at hc
      cases hc
    | some r =>
      rw [perform_get, Store.get, hr] at hc
      cases hc
      obtain rfl := List.mem_singleton.1 hcopy
      rw [hs.key_eq hr, hr]
  | list k ns =>
    rw [perform_list] at hc
    cases hc
    obtain ⟨key, hr, -, -⟩ := mem_list.1 hcopy
    rw [hs.key_eq hr, hr]
  | create r =>
    cases hr : s.get? r.key with
    | some q =>
      rw [perform_create, create_of_stored hr] at hc
      cases hc
    | none =>
      have hget : (Store.create r s).2.get? r.key = some (s.issue r) := by
        rw [get?_create, if_pos ⟨rfl, hr⟩]
      rw [perform_create, create_of_none hr] at hc
      rw [create_of_none hr] at hget
      cases hc
      obtain rfl := List.mem_singleton.1 hcopy
      exact hget
  | update r => exact Carries.update.get?_of_handed_out hs hc hcopy hstored
  | updateStatus r => exact Carries.updateStatus.get?_of_handed_out hs hc hcopy hstored
  | delete now key =>
    rw [perform_delete] at hc
    cases hd : (Store.delete now key s).1 with
    | error e =>
      rw [hd] at hc
      cases hc
    | ok _ =>
      rw [hd] at hc
      cases hc
      cases hcopy

end Call

theorem staysStored_append {key : Key} (calls calls' : List Call) :
    s.StaysStored key (calls ++ calls') ↔
      s.StaysStored key calls ∧ (s.run calls).StaysStored key calls' := by
  induction calls generalizing s with
  | nil => exact ⟨fun h => ⟨h.stored, h⟩, fun h => h.2⟩
  | cons c calls ih =>
    constructor
    · intro h
      have h' := ih.1 h.2
      exact ⟨⟨h.1, h'.1⟩, h'.2⟩
    · intro h
      exact ⟨h.1.1, ih.2 ⟨h.1.2, h.2⟩⟩

/-- The version of what is stored tells how many writes came after a copy of it. -/
theorem exists_version (hs : s.WellFormed) (hcopy : s.get? copy.key = some copy)
    {calls : List Call} (hstay : s.StaysStored copy.key calls) :
    ∃ q, (s.run calls).get? copy.key = some q ∧
      q.metadata.version = copy.metadata.version + s.countWrites copy.key calls := by
  obtain ⟨k, r⟩ := copy
  have hr : s.Holds r := hcopy
  obtain ⟨q, hq, hfollows⟩ := exists_follows hs hr hstay
  have hget : (s.run calls).get? r.key = some ⟨k, q⟩ := hfollows.key ▸ hq
  exact ⟨⟨k, q⟩, hget, hfollows.version⟩

/-- Writing back a copy of a record that stayed stored is accepted exactly if the record was not
written since. -/
theorem accepted_iff_unwritten (hs : s.WellFormed) (hcopy : s.get? copy.key = some copy)
    {calls : List Call} (hstay : s.StaysStored copy.key calls) (hw : w.WritesBack copy) :
    w.accepted (s.run calls) = true ↔ s.countWrites copy.key calls = 0 := by
  obtain ⟨q, hq, hversion⟩ := exists_version hs hcopy hstay
  rw [hw.accepted_iff (run_wellFormed hs calls) hq, hversion]
  omega

/-- Of two writers with the same copy, the one that comes second is refused. -/
theorem second_writer_refused (hs : s.WellFormed) (hcopy : s.get? copy.key = some copy)
    {later between : List Call} {w' : Call} (hstay : s.StaysStored copy.key later)
    (hw : w.WritesBack copy) (hw' : w'.WritesBack copy) (hacc : w.accepted (s.run later) = true)
    (hstay' : (s.run (later ++ [w])).StaysStored copy.key between) :
    w'.accepted (s.run (later ++ w :: between)) = false := by
  have hsplit : later ++ w :: between = (later ++ [w]) ++ between := by simp
  have hrun : s.run (later ++ [w]) = w.act (s.run later) := run_append s later [w]
  have hend : (s.run later).Stored copy.key := by
    obtain ⟨q, hq, -⟩ := exists_version hs hcopy hstay
    rw [Stored, hq]
    rfl
  have hfirst : s.StaysStored copy.key (later ++ [w]) :=
    (staysStored_append later [w]).2 ⟨hstay, hend, hrun ▸ hstay'.stored⟩
  have hboth : s.StaysStored copy.key ((later ++ [w]) ++ between) :=
    (staysStored_append (later ++ [w]) between).2 ⟨hfirst, hstay'⟩
  have hcount : s.countWrites copy.key (later ++ w :: between) ≠ 0 := by
    rw [countWrites_append, countWrites, hw.writes hacc, Bool.toNat_true]
    omega
  rw [hsplit] at hcount ⊢
  rw [Bool.eq_false_iff]
  exact fun h => hcount ((accepted_iff_unwritten hs hcopy hboth hw').1 h)

/-- A copy that the store handed out can be written back, edited, exactly as long as no other write
of the record was accepted. A writer that comes too late is told both versions, and the store stays
as it was; so of two writers with the same copy at most one succeeds. -/
theorem no_lost_update {calls later : List Call} {c : Call} {copies : List AnyRecord}
    (hc : c.perform ((∅ : Store).run calls) = (.ok copies, s)) (hcopy : copy ∈ copies)
    (hstay : s.StaysStored copy.key later) (hw : w.WritesBack copy) :
    (w.accepted (s.run later) = true ↔ s.countWrites copy.key later = 0) ∧
      (s.countWrites copy.key later ≠ 0 → ∃ q, (s.run later).get? copy.key = some q ∧
        w.perform (s.run later) =
          (.error (.conflict copy.key copy.metadata.version q.metadata.version), s.run later)) ∧
      ∀ {w' : Call} {between : List Call}, w'.WritesBack copy →
        w.accepted (s.run later) = true →
        ((s.run (later ++ [w])).StaysStored copy.key between ∨
          ¬(s.run (later ++ w :: between)).Stored copy.key) →
        w'.accepted (s.run (later ++ w :: between)) = false := by
  have hstart : ((∅ : Store).run calls).WellFormed := run_wellFormed wellFormed_empty calls
  have hs : s.WellFormed := by
    have hact : c.act ((∅ : Store).run calls) = s := by rw [Call.act, hc]
    exact hact ▸ c.act_wellFormed hstart
  have hget : s.get? copy.key = some copy := Call.get?_of_handed_out hstart hc hcopy hstay.stored
  refine ⟨accepted_iff_unwritten hs hget hstay hw, ?_, ?_⟩
  · intro hcount
    obtain ⟨q, hq, hversion⟩ := exists_version hs hget hstay
    have hne : copy.metadata.version ≠ q.metadata.version := by omega
    exact ⟨q, hq, hw.perform_of_ne (run_wellFormed hs later) hq hne⟩
  · intro w' between hw' hacc hend
    rcases hend with hstay' | hgone
    · exact second_writer_refused hs hget hstay hw hw' hacc hstay'
    · exact hw'.not_accepted (run_wellFormed hs _) hgone

theorem no_lost_update_small :
    let s := (∅ : Store).run [.create Small.heldZone]
    let mark : Call := .delete ⟨5, 0⟩ Small.firstZone.key
    (Call.update Small.firstZone).accepted s = true ∧
      (Call.updateStatus Small.firstZone).accepted (s.run [.update Small.firstZone]) = false ∧
      ∃ q, (s.run [mark]).get? Small.firstZone.key = some q ∧
        (Call.update Small.firstZone).perform (s.run [mark]) =
          (.error (.conflict Small.firstZone.key 1 q.metadata.version), s.run [mark]) := by
  intro s mark
  have hc : (Call.get Small.firstZone.key).perform ((∅ : Store).run [.create Small.heldZone]) =
      (.ok [⟨.az, Small.firstZone⟩], s) := rfl
  have hcopy : (⟨.az, Small.firstZone⟩ : AnyRecord) ∈ [(⟨.az, Small.firstZone⟩ : AnyRecord)] :=
    List.mem_singleton.2 rfl
  have hw : (Call.update Small.firstZone).WritesBack ⟨.az, Small.firstZone⟩ := .update rfl rfl
  have hw' : (Call.updateStatus Small.firstZone).WritesBack ⟨.az, Small.firstZone⟩ :=
    .updateStatus rfl rfl
  have hnow : s.StaysStored (AnyRecord.key ⟨.az, Small.firstZone⟩) [] := rfl
  have hmarked : s.StaysStored (AnyRecord.key ⟨.az, Small.firstZone⟩) [mark] := ⟨rfl, rfl⟩
  have hfresh := no_lost_update hc hcopy hnow hw
  have hstale := no_lost_update hc hcopy hmarked hw
  have hacc : (Call.update Small.firstZone).accepted s = true := hfresh.1.2 rfl
  refine ⟨hacc, ?_, hstale.2.1 ?_⟩
  · have hstay : (s.run [.update Small.firstZone]).StaysStored
      (AnyRecord.key ⟨.az, Small.firstZone⟩) [] := rfl
    exact hfresh.2.2 hw' hacc (.inl hstay)
  · decide

/-- A record under a key that was free takes any copy that carries its version, whether or not the
copy was handed out in an earlier life of the key. All other copies are refused. -/
theorem former_copy_accepted_iff {calls life : List Call} {r : AnyRecord}
    (hk : r.key = copy.key) (hfree : ¬((∅ : Store).run calls).Stored copy.key)
    (hlife : ((∅ : Store).run (calls ++ [.create r])).StaysStored copy.key life)
    (hw : w.WritesBack copy) :
    let s := (∅ : Store).run (calls ++ [.create r])
    let version := s.countWrites copy.key life + 1
    (w.accepted (s.run life) = true ↔ copy.metadata.version = version) ∧
      (copy.metadata.version ≠ version → w.perform (s.run life) =
        (.error (.conflict copy.key copy.metadata.version version), s.run life)) := by
  intro s version
  have hs : s.WellFormed := run_wellFormed wellFormed_empty _
  have hnone : ((∅ : Store).run calls).get? r.key = none := by simpa [Stored, hk] using hfree
  have hnew : s.get? copy.key = some (((∅ : Store).run calls).issue r) := by
    have hact : s = (Call.create r).act ((∅ : Store).run calls) := run_append _ _ _
    rw [hact, Call.act_create, get?_create, if_pos ⟨hk.symm, hnone⟩]
  have hkey : (((∅ : Store).run calls).issue r).key = copy.key := hs.key_eq hnew
  have hone : (((∅ : Store).run calls).issue r).metadata.version = 1 := rfl
  rw [← hkey] at hnew hlife
  obtain ⟨q, hq, hversion⟩ := exists_version hs hnew hlife
  rw [hkey] at hq hversion
  have hq' : q.metadata.version = version := by omega
  have hend : (s.run life).WellFormed := run_wellFormed hs life
  refine ⟨?_, fun hne => ?_⟩
  · rw [hw.accepted_iff hend hq, hq']
  · rw [← hq'] at hne ⊢
    exact hw.perform_of_ne hend hq hne

namespace Small

/-- A zone at a place, under the uid that its owner chose. -/
def zoneAt (uid place : String) : Record .az :=
  let zone : Record .az :=
    Record.new "team-a" "z" ({ cloudProperties := some (.str place) } : AzSpec)
  { zone with metadata := { zone.metadata with uid := uid } }

/-- A copy of the zone as the store first hands it out. -/
def copyAt (uid place : String) : Record .az :=
  let zone := zoneAt uid place
  { zone with metadata := { zone.metadata with version := 1 } }

end Small

theorem former_copy_accepted_iff_small :
    let calls : List Call :=
      [.create (Small.zoneAt "first" "a"), .delete ⟨5, 0⟩ (Small.zoneAt "first" "a").key]
    let s := (∅ : Store).run (calls ++ [.create (Small.zoneAt "second" "b")])
    ¬((∅ : Store).run calls).Stored (Small.copyAt "first" "a").key ∧
      (Call.update (Small.copyAt "first" "a")).accepted s = true := by
  intro calls s
  have hk : AnyRecord.key (Small.zoneAt "second" "b") =
      AnyRecord.key (Small.copyAt "first" "a") := rfl
  have hfree : ¬((∅ : Store).run calls).Stored (AnyRecord.key (Small.copyAt "first" "a")) := by
    rw [Stored, show ((∅ : Store).run calls).get? _ = none from rfl]
    decide
  have hlife : s.StaysStored (AnyRecord.key (Small.copyAt "first" "a")) [] := rfl
  have hw : (Call.update (Small.copyAt "first" "a")).WritesBack (Small.copyAt "first" "a") :=
    .update rfl rfl
  exact ⟨hfree, (former_copy_accepted_iff hk hfree hlife hw).1.2 rfl⟩

/-- A copy of a removed record need not be refused: where a zone is removed and created anew at
another place, the first copy of the former one is accepted, and puts the new zone back in the
former place. -/
theorem former_copy_overwrites :
    let former : Record .az := Small.copyAt "first" "a"
    let before : List Call := [.create (Small.zoneAt "first" "a"), .delete ⟨5, 0⟩ former.key]
    let s := (∅ : Store).run (before ++ [.create (Small.zoneAt "second" "b")])
    (Call.create (Small.zoneAt "first" "a")).outcome ∅ = .ok [(former : AnyRecord)] ∧
      ((∅ : Store).run before).get? former.key = none ∧ s.Holds (Small.copyAt "second" "b") ∧
      (Call.updateStatus former).accepted s = true ∧ (Call.update former).accepted s = true ∧
      ((Call.update former).act s).Holds (Small.copyAt "second" "a").bumped := by
  refine ⟨?created, ?removed, ?anew, ?status, ?accepted, ?overwritten⟩
  all_goals rfl

end Store

end Reconciliation
