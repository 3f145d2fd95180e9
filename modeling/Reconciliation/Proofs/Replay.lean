import Reconciliation.Proofs.Logs

namespace Reconciliation

namespace Table

variable {κ β : Type} [Ord κ] [Std.TransOrd κ]

/-- The table after these entries were written one after the other. -/
def insertAll (t : Table κ β) (l : List (κ × β)) : Table κ β :=
  l.foldl (fun t e => t.insert e.1 e.2) t

variable [Std.LawfulEqOrd κ] [DecidableEq κ]

theorem get?_insertAll (t : Table κ β) (l : List (κ × β)) (k : κ) :
    (t.insertAll l).get? k = (((∅ : Table κ β).insertAll l).get? k).or (t.get? k) := by
  induction l generalizing t with
  | nil => rfl
  | cons e l ih =>
    have hcons : ∀ t : Table κ β, t.insertAll (e :: l) = (t.insert e.1 e.2).insertAll l :=
      fun _ => rfl
    rw [hcons, hcons, ih, ih ((∅ : Table κ β).insert e.1 e.2), Option.or_assoc, get?_insert,
      get?_insert]
    split <;> simp

/-- Writing the same entries in the same order once more changes nothing. -/
theorem insertAll_insertAll (t : Table κ β) (l : List (κ × β)) :
    (t.insertAll l).insertAll l = t.insertAll l := by
  refine ext_get? fun k => ?_
  rw [get?_insertAll, get?_insertAll t, ← Option.or_assoc, Option.or_self]

end Table

namespace RemoteObject

def fragment? : RemoteObject → Option (String × CloudConfig)
  | fragment name config => some (name, config)
  | _ => none

def deployment? : RemoteObject → Option (String × Manifest)
  | deployment name manifest => some (name, manifest)
  | _ => none

/-- The release that is asked for, and where it is uploaded from. -/
def release? : RemoteObject → Option (ReleaseRef × String)
  | release ref url _ => some (ref, url)
  | _ => none

def stemcell? : RemoteObject → Option (ReleaseRef × String)
  | stemcell ref url _ => some (ref, url)
  | _ => none

end RemoteObject

namespace Director

/-- What is there after an upload, if what is asked for was not there before. -/
def upload (sources : Table String ReleaseRef) (t : Table ReleaseRef Unit)
    (e : ReleaseRef × String) : Table ReleaseRef Unit :=
  if t.contains e.1 then t else ((sources.get? e.2).map fun got => t.insert got ()).getD t

/-- The upload has nothing left to add. -/
def Uploaded (sources : Table String ReleaseRef) (t : Table ReleaseRef Unit)
    (e : ReleaseRef × String) : Prop :=
  t.contains e.1 = true ∨ ∀ got, sources.get? e.2 = some got → t.contains got = true

section

variable {sources : Table String ReleaseRef} {t u : Table ReleaseRef Unit}
  {e : ReleaseRef × String} {l : List (ReleaseRef × String)}

theorem contains_upload (e : ReleaseRef × String) {ref : ReleaseRef} (h : t.contains ref = true) :
    (upload sources t e).contains ref = true := by
  unfold upload
  split
  · exact h
  · cases sources.get? e.2 with
    | none => exact h
    | some got => simp [h]

theorem Uploaded.mono (h : Uploaded sources t e)
    (hu : ∀ {ref}, t.contains ref = true → u.contains ref = true) : Uploaded sources u e :=
  h.imp hu fun h got hg => hu (h got hg)

theorem uploaded_upload (sources : Table String ReleaseRef) (t : Table ReleaseRef Unit)
    (e : ReleaseRef × String) : Uploaded sources (upload sources t e) e := by
  unfold upload
  split
  · next h => exact .inl h
  · refine .inr fun got hg => ?_
    rw [hg]
    simp

theorem Uploaded.upload_eq (h : Uploaded sources t e) : upload sources t e = t := by
  unfold upload
  split
  · rfl
  · next hn =>
    cases hg : sources.get? e.2 with
    | none => rfl
    | some got =>
      obtain ⟨⟨⟩, hgot⟩ := Option.isSome_iff_exists.1 (h.resolve_left hn got hg)
      exact Table.insert_eq_self hgot

theorem contains_foldl_upload (l : List (ReleaseRef × String)) {ref : ReleaseRef}
    (h : t.contains ref = true) : (l.foldl (upload sources) t).contains ref = true := by
  induction l generalizing t with
  | nil => exact h
  | cons e l ih => exact ih (contains_upload e h)

theorem foldl_upload_eq (h : ∀ e ∈ l, Uploaded sources t e) : l.foldl (upload sources) t = t := by
  induction l with
  | nil => rfl
  | cons e l ih =>
    rw [List.foldl_cons, (h e List.mem_cons_self).upload_eq]
    exact ih fun e he => h e (List.mem_cons_of_mem _ he)

theorem uploaded_foldl_upload (t : Table ReleaseRef Unit) (l : List (ReleaseRef × String)) :
    ∀ e ∈ l, Uploaded sources (l.foldl (upload sources) t) e := by
  induction l generalizing t with
  | nil => exact fun e he => nomatch he
  | cons e l ih =>
    intro e' he'
    rcases List.mem_cons.1 he' with rfl | he'
    · exact (uploaded_upload sources t e').mono fun h => contains_foldl_upload l h
    · exact ih _ e' he'

end

/-- The Director with the object brought into place, if there is one and it can be uploaded. -/
def receive (d : Director) (o : Option RemoteObject) : Director := (o.bind d.arrived?).getD d

theorem sources_receive (d : Director) (o : Option RemoteObject) :
    (d.receive o).releaseSources = d.releaseSources ∧
      (d.receive o).stemcellSources = d.stemcellSources ∧ (d.receive o).failure = d.failure := by
  rw [receive]
  cases ho : o.bind d.arrived? with
  | none => exact ⟨rfl, rfl, rfl⟩
  | some d' =>
    obtain ⟨o, -, hd⟩ := Option.bind_eq_some_iff.1 ho
    exact sources_arrived? hd

/-- The Director after these objects were brought into place one after the other. -/
def receiveAll (d : Director) (os : List RemoteObject) : Director :=
  os.foldl (fun d o => d.receive (some o)) d

theorem receiveAll_eq (d : Director) (os : List RemoteObject) : d.receiveAll os =
    { d with
      configs := d.configs.insertAll (os.filterMap (·.fragment?))
      deployments := d.deployments.insertAll (os.filterMap (·.deployment?))
      releases := (os.filterMap (·.release?)).foldl (upload d.releaseSources) d.releases
      stemcells := (os.filterMap (·.stemcell?)).foldl (upload d.stemcellSources) d.stemcells } := by
  induction os generalizing d with
  | nil => rfl
  | cons o os ih =>
    rw [show d.receiveAll (o :: os) = (d.receive (some o)).receiveAll os from rfl, ih]
    cases o with
    | fragment name config => rfl
    | deployment name manifest => rfl
    | release ref url sha1 =>
      have hreceive : d.receive (some (.release ref url sha1)) =
          { d with releases := upload d.releaseSources d.releases (ref, url) } := by
        simp only [receive, Option.bind_some, arrived?, upload]
        split
        · rfl
        · cases d.releaseSources.get? url <;> rfl
      rw [hreceive]
      rfl
    | stemcell ref url sha1 =>
      have hreceive : d.receive (some (.stemcell ref url sha1)) =
          { d with stemcells := upload d.stemcellSources d.stemcells (ref, url) } := by
        simp only [receive, Option.bind_some, arrived?, upload]
        split
        · rfl
        · cases d.stemcellSources.get? url <;> rfl
      rw [hreceive]
      rfl

/-- Bringing the same objects in the same order once more changes nothing, even where several of
them have one name. -/
theorem receiveAll_receiveAll (d : Director) (os : List RemoteObject) :
    (d.receiveAll os).receiveAll os = d.receiveAll os := by
  rw [receiveAll_eq (d.receiveAll os), receiveAll_eq d]
  simp only [Table.insertAll_insertAll, foldl_upload_eq (uploaded_foldl_upload _ _)]

theorem Same.receive {d e : Director} (h : d.Same e) (o : Option RemoteObject) :
    (d.receive o).Same (e.receive o) := by
  obtain ⟨calls, rfl⟩ := same_iff.1 h
  cases o with
  | none => exact h
  | some o =>
    simp only [Director.receive, Option.bind_some, arrived?_calls]
    cases d.arrived? o with
    | none => exact h
    | some d' => exact same_iff.2 ⟨calls, rfl⟩

theorem Same.receiveAll {d e : Director} (h : d.Same e) (os : List RemoteObject) :
    (d.receiveAll os).Same (e.receiveAll os) := by
  induction os generalizing d e with
  | nil => exact h
  | cons o os ih => exact ih (h.receive (some o))

end Director

end Reconciliation
