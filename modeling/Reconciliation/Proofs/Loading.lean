import Mathlib.Data.List.Nodup
import Mathlib.Data.List.Pairwise
import Reconciliation.Proofs.Seeding
import Reconciliation.Proofs.Walk

/-! A directory is loaded only if all of its visible record files can be read, no two of their
documents have one key and every record is valid. What is seeded then is decided by the keys alone:
those that are free are taken, and the others are left to the records that have them. -/
namespace Reconciliation

namespace Key

/-- First by kind, then by namespace, then by name. -/
def Precedes (a b : Key) : Prop :=
  a.kind.rank < b.kind.rank ∨ a.kind = b.kind ∧ (a.ns < b.ns ∨ a.ns = b.ns ∧ a.name < b.name)

theorem compare_eq_lt_iff {a b : Key} : compare a b = .lt ↔ a.Precedes b := by
  have hcompare : compare a b = (compare a.kind.rank b.kind.rank).then
      ((compare a.ns b.ns).then (compare a.name b.name)) := rfl
  have hkind : a.kind.rank = b.kind.rank ↔ a.kind = b.kind :=
    ⟨fun h => Kind.rank_injective h, fun h => by rw [h]⟩
  have hlt : ∀ s t : String, compare s t = .lt ↔ s < t := fun _ _ => compareOfLessAndEq_eq_lt
  rw [hcompare, Precedes, Ordering.then_eq_lt, Ordering.then_eq_lt, Std.compare_eq_lt,
    Std.compare_eq_iff_eq, Std.compare_eq_iff_eq, hlt, hlt, hkind]

end Key

namespace Validation

theorem complaint?_eq_none_iff {rs : List AnyRecord} :
    complaint? rs = none ↔ ∀ r ∈ rs, defects r = [] := by
  have hproblems : complaint? rs = none ↔ problems rs = [] := by
    unfold complaint?
    split <;> simp_all
  simp [hproblems, problems]

end Validation

namespace RecordFiles

variable {host : Host} {root path : String} {entries gathered : List RecordEntry}
  {way way' : List String} {rs rs' : List AnyRecord}

/-- A visible file of records below the directory can be read, and these are its documents. -/
def Documents (host : Host) (root : String) (way : List String) (rs : List AnyRecord) : Prop :=
  ∃ place text, host.directory? root = some place ∧
    host.files.Finds [place] [] (.file way) ∧ isHidden way = false ∧ isRecordFile way = true ∧
    host.read (FileTree.join root ("/".intercalate way)) = .ok text ∧
    AnyRecord.ofYaml text = .ok rs

/-- What a found file adds, if it can be read. -/
def documentsOf (host : Host) (root : String) : FileTree.Found → List AnyRecord
  | .stray => []
  | .file way =>
    if isHidden way || !isRecordFile way then []
    else
      match host.read (FileTree.join root ("/".intercalate way)) with
      | .error _ => []
      | .ok text => (AnyRecord.ofYaml text).toOption.getD []

theorem documentsOf_eq {text : String} (hvisible : isHidden way = false)
    (hfile : isRecordFile way = true)
    (hread : host.read (FileTree.join root ("/".intercalate way)) = .ok text)
    (hyaml : AnyRecord.ofYaml text = .ok rs) : documentsOf host root (.file way) = rs := by
  simp [documentsOf, hvisible, hfile, hread, hyaml, Except.toOption]

theorem records_add (h : add path entries rs = .ok gathered) :
    gathered.map (·.record) = entries.map (·.record) ++ rs := by
  induction rs generalizing entries with
  | nil =>
    cases h
    simp
  | cons r rs ih =>
    unfold add at h
    split at h
    · cases h
    · rw [ih h]
      simp

theorem addFound_file (hvisible : isHidden way = false) (hfile : isRecordFile way = true) :
    addFound host root entries (.file way) = addFile host root entries way :=
  if_neg (by rw [hvisible, hfile]; decide)

theorem addFile_of_ofYaml {text : String}
    (hread : host.read (FileTree.join root ("/".intercalate way)) = .ok text)
    (hyaml : AnyRecord.ofYaml text = .ok rs) :
    addFile host root entries way = add ("/".intercalate way) entries rs := by
  unfold addFile
  dsimp only
  rw [hread]
  dsimp only
  rw [hyaml]

theorem exists_ofYaml_of_addFile (h : addFile host root entries way = .ok gathered) :
    ∃ text rs, host.read (FileTree.join root ("/".intercalate way)) = .ok text ∧
      AnyRecord.ofYaml text = .ok rs ∧ add ("/".intercalate way) entries rs = .ok gathered := by
  unfold addFile at h
  dsimp only at h
  split at h
  · cases h
  · next text hread =>
    split at h
    · cases h
    · next rs hyaml => exact ⟨text, rs, hread, hyaml, h⟩

theorem records_addFound {found : FileTree.Found}
    (h : addFound host root entries found = .ok gathered) :
    gathered.map (·.record) = entries.map (·.record) ++ documentsOf host root found := by
  cases found with
  | stray => cases h
  | file way =>
    by_cases hskipped : (isHidden way || !isRecordFile way) = true
    · have hsame : addFound host root entries (.file way) = .ok entries := if_pos hskipped
      rw [hsame] at h
      cases h
      rw [documentsOf, if_pos hskipped, List.append_nil]
    · obtain ⟨hvisible, hfile⟩ : isHidden way = false ∧ isRecordFile way = true := by
        simpa using hskipped
      rw [addFound_file hvisible hfile] at h
      obtain ⟨text, rs, hread, hyaml, hadd⟩ := exists_ofYaml_of_addFile h
      rw [records_add hadd, documentsOf_eq hvisible hfile hread hyaml]

theorem records_gathered {found : List FileTree.Found}
    (h : found.foldlM (addFound host root) entries = .ok gathered) :
    gathered.map (·.record) = entries.map (·.record) ++ found.flatMap (documentsOf host root) := by
  induction found generalizing entries with
  | nil =>
    cases h
    simp
  | cons f found ih =>
    rw [List.foldlM_cons, Step.except_bind_eq_ok_iff] at h
    obtain ⟨next, hnext, h⟩ := h
    rw [ih h, records_addFound hnext, List.flatMap_cons, List.append_assoc]

theorem Documents.of_mem {place : Place} (hplace : host.directory? root = some place)
    (hfound : FileTree.Found.file way ∈ host.files.walk place) {r : AnyRecord}
    (hr : r ∈ documentsOf host root (.file way)) : ∃ rs, Documents host root way rs ∧ r ∈ rs := by
  simp only [documentsOf] at hr
  split at hr
  · cases hr
  · next hvisible =>
    have hshown : isHidden way = false ∧ isRecordFile way = true := by simpa using hvisible
    split at hr
    · cases hr
    · next text hread =>
      cases hyaml : AnyRecord.ofYaml text with
      | error e =>
        rw [hyaml] at hr
        cases hr
      | ok rs =>
        rw [hyaml] at hr
        exact ⟨rs, ⟨place, text, hplace, FileTree.mem_walk_iff.1 hfound, hshown.1, hshown.2, hread,
          hyaml⟩, hr⟩

theorem Documents.mem_walk {place : Place} (hplace : host.directory? root = some place)
    (h : Documents host root way rs) : FileTree.Found.file way ∈ host.files.walk place ∧
      documentsOf host root (.file way) = rs := by
  obtain ⟨place', text, hplace', hfinds, hvisible, hfile, hread, hyaml⟩ := h
  rw [hplace] at hplace'
  cases hplace'
  exact ⟨FileTree.mem_walk_iff.2 hfinds, documentsOf_eq hvisible hfile hread hyaml⟩

theorem exists_perm_of_load (h : load host root = .ok entries) :
    ∃ place, host.directory? root = some place ∧
      (entries.map (·.record)).Perm ((host.files.walk place).flatMap (documentsOf host root)) := by
  obtain ⟨place, gathered, hplace, hgathered, -, rfl⟩ := exists_gathered_of_load h
  have hrecords := records_gathered hgathered
  rw [List.map_nil, List.nil_append] at hrecords
  exact ⟨place, hplace, hrecords ▸ (List.mergeSort_perm _ _).map _⟩

theorem mem_loaded_iff (h : load host root = .ok entries) {r : AnyRecord} :
    r ∈ entries.map (·.record) ↔ ∃ way rs, Documents host root way rs ∧ r ∈ rs := by
  obtain ⟨place, hplace, hperm⟩ := exists_perm_of_load h
  rw [hperm.mem_iff, List.mem_flatMap]
  constructor
  · rintro ⟨found, hfound, hr⟩
    cases found with
    | stray => cases hr
    | file way => exact ⟨way, Documents.of_mem hplace hfound hr⟩
  · rintro ⟨way, rs, hdocuments, hr⟩
    obtain ⟨hfound, hrs⟩ := hdocuments.mem_walk hplace
    exact ⟨.file way, hfound, hrs ▸ hr⟩

theorem exists_addFound_of_mem {found : List FileTree.Found} {f : FileTree.Found}
    (h : found.foldlM (addFound host root) entries = .ok gathered) (hf : f ∈ found) :
    ∃ before after, addFound host root before f = .ok after := by
  induction found generalizing entries with
  | nil => cases hf
  | cons f' found ih =>
    rw [List.foldlM_cons, Step.except_bind_eq_ok_iff] at h
    obtain ⟨next, hnext, h⟩ := h
    rcases List.mem_cons.1 hf with rfl | hf
    · exact ⟨entries, next, hnext⟩
    · exact ih h hf

/-- No visible file of records is passed over. -/
theorem exists_documents_of_load (h : load host root = .ok entries) {place : Place}
    (hplace : host.directory? root = some place)
    (hfinds : host.files.Finds [place] [] (.file way)) (hvisible : isHidden way = false)
    (hfile : isRecordFile way = true) : ∃ rs, Documents host root way rs := by
  obtain ⟨place', gathered, hplace', hgathered, -⟩ := exists_gathered_of_load h
  rw [hplace] at hplace'
  cases hplace'
  obtain ⟨before, after, hadd⟩ :=
    exists_addFound_of_mem hgathered (FileTree.mem_walk_iff.2 hfinds)
  rw [addFound_file hvisible hfile] at hadd
  obtain ⟨text, rs, hread, hyaml, -⟩ := exists_ofYaml_of_addFile hadd
  exact ⟨rs, place, text, hplace, hfinds, hvisible, hfile, hread, hyaml⟩

/-- No key comes twice, neither in one file nor in two. -/
theorem documents_unique (h : load host root = .ok entries) (hrs : Documents host root way rs)
    (hrs' : Documents host root way' rs') {i j : Nat} {r r' : AnyRecord} (hr : rs[i]? = some r)
    (hr' : rs'[j]? = some r') (hkey : r.key = r'.key) : way = way' ∧ i = j := by
  obtain ⟨place, hplace, hperm⟩ := exists_perm_of_load h
  obtain ⟨hfound, rfl⟩ := hrs.mem_walk hplace
  obtain ⟨hfound', rfl⟩ := hrs'.mem_walk hplace
  have hkeys : ((host.files.walk place).flatMap
      fun f => (documentsOf host root f).map (·.key)).Nodup := by
    rw [← List.map_flatMap, ← (hperm.map _).nodup_iff, List.map_map]
    exact distinct_of_load h
  obtain ⟨hone, htwo⟩ := List.nodup_flatMap.1 hkeys
  by_cases hway : way = way'
  · subst hway
    have hi : i < ((documentsOf host root (.file way)).map (·.key)).length := by
      rw [List.length_map]
      exact (List.getElem?_eq_some_iff.1 hr).1
    refine ⟨rfl, (List.getElem?_inj hi (hone _ hfound)).1 ?_⟩
    rw [List.getElem?_map, List.getElem?_map, hr, hr', Option.map_some, Option.map_some, hkey]
  · have : Std.Symm (Function.onFun List.Disjoint fun f =>
        (documentsOf host root f).map (·.key)) := ⟨fun _ _ h => h.symm⟩
    have hdisjoint := htwo.forall hfound hfound' (by simpa using hway)
    have hmem : r.key ∈ (documentsOf host root (.file way)).map (·.key) :=
      List.mem_map_of_mem (List.mem_of_getElem? hr)
    have hmem' : r.key ∈ (documentsOf host root (.file way')).map (·.key) :=
      hkey ▸ List.mem_map_of_mem (List.mem_of_getElem? hr')
    exact (hdisjoint hmem hmem').elim

theorem pairwise_of_load (h : load host root = .ok entries) :
    entries.Pairwise fun a b => a.record.key.Precedes b.record.key := by
  have hdistinct : entries.Pairwise fun a b => a.record.key ≠ b.record.key :=
    List.pairwise_map.1 (distinct_of_load h)
  obtain ⟨place, gathered, -, -, -, rfl⟩ := exists_gathered_of_load h
  have htrans : ∀ a b c : RecordEntry, (compare a.record.key b.record.key).isLE = true →
      (compare b.record.key c.record.key).isLE = true →
      (compare a.record.key c.record.key).isLE = true := fun _ _ _ => Std.TransCmp.isLE_trans
  have htotal : ∀ a b : RecordEntry, ((compare a.record.key b.record.key).isLE ||
      (compare b.record.key a.record.key).isLE) = true := by
    intro a b
    have hswap : compare b.record.key a.record.key =
        (compare a.record.key b.record.key).swap := Std.OrientedCmp.eq_swap
    rw [hswap]
    cases compare a.record.key b.record.key <;> rfl
  have hsorted := List.pairwise_mergeSort htrans htotal gathered
  refine (hsorted.and hdistinct).imp fun {a b} hab => Key.compare_eq_lt_iff.1 ?_
  rcases Ordering.isLE_iff_eq_lt_or_eq_eq.1 hab.1 with hlt | heq
  · exact hlt
  · exact (hab.2 (Std.LawfulEqCmp.eq_of_compare heq)).elim

theorem defects_of_load (h : load host root = .ok entries) :
    ∀ e ∈ entries, Validation.defects e.record = [] := by
  obtain ⟨place, gathered, -, -, hvalid, rfl⟩ := exists_gathered_of_load h
  intro e he
  exact Validation.complaint?_eq_none_iff.1 hvalid _
    (List.mem_map_of_mem ((List.mergeSort_perm _ _).mem_iff.1 he))

/-- The entries whose keys are free. -/
def unstored (s : Store) (entries : List RecordEntry) : List RecordEntry :=
  entries.filter fun e => (s.get? e.record.key).isNone

/-- Each new key counts once, as it comes once. -/
theorem create_count (hd : Distinct entries) (s : Store) :
    ∃ s' : Store, create entries s = (.ok (unstored s entries).length, s') ∧
      s'.records.size = s.records.size + (unstored s entries).length := by
  induction entries generalizing s with
  | nil => exact ⟨s, rfl, rfl⟩
  | cons e entries ih =>
    obtain ⟨hnew, hd⟩ := List.nodup_cons.1 hd
    cases he : s.get? e.record.key with
    | some q =>
      obtain ⟨s', hcreate, hsize⟩ := ih hd s
      have hsame : unstored s (e :: entries) = unstored s entries :=
        List.filter_cons_of_neg (by simp [he])
      rw [create_cons_of_stored he, hsame]
      exact ⟨s', hcreate, hsize⟩
    | none =>
      obtain ⟨s', hcreate, hsize⟩ := ih hd (Store.create e.record s).2
      have hrest : unstored (Store.create e.record s).2 entries = unstored s entries := by
        refine List.filter_congr fun a ha => ?_
        have hne : a.record.key ≠ e.record.key := fun heq =>
          hnew (List.mem_map.2 ⟨a, ha, heq⟩)
        rw [Store.get?_create_of_ne hne]
      have hone : unstored s (e :: entries) = e :: unstored s entries :=
        List.filter_cons_of_pos (by simp [he])
      have hgrown : (Store.create e.record s).2.records.size = s.records.size + 1 := by
        rw [Store.create_of_none he]
        exact Table.size_insert he _
      rw [hrest] at hcreate hsize
      refine ⟨s', ?_, ?_⟩
      · rw [create_cons_of_none he hcreate, hone, List.length_cons]
      · rw [hsize, hgrown, hone, List.length_cons]
        omega

theorem creates_eq_self {l : List AnyRecord} {s : Store}
    (h : ∀ r ∈ l, (s.get? r.key).isSome = true) :
    l.foldl (fun s r => (Store.create r s).2) s = s := by
  induction l with
  | nil => rfl
  | cons r l ih =>
    obtain ⟨q, hq⟩ := Option.isSome_iff_exists.1 (h r List.mem_cons_self)
    rw [List.foldl_cons, Store.create_of_stored hq]
    exact ih fun r' hr' => h r' (List.mem_cons_of_mem _ hr')

theorem isSome_get?_creates {l : List AnyRecord} (hl : (l.map (·.key)).Nodup) (s : Store) :
    ∀ r ∈ l, ((l.foldl (fun s r => (Store.create r s).2) s).get? r.key).isSome = true := by
  intro r hr
  cases hs : s.get? r.key with
  | some q => rw [Store.get?_creates_of_stored hs, Option.isSome_some]
  | none =>
    obtain ⟨t, ht⟩ := Store.get?_creates_of_none hl hr hs
    rw [ht, Option.isSome_some]

theorem seed_of_error {e : LoadError} (h : load host root = .error e) (s : Store) :
    seed host root s = (.error e, s) := by
  unfold seed
  rw [h]
  rfl

theorem seed_of_ok (h : load host root = .ok entries) (s : Store) :
    seed host root s = create entries s := by
  unfold seed
  rw [h]
  exact Step.bind_ok rfl _

theorem create_eq (hd : Distinct entries) (s : Store) : create entries s =
    (.ok (unstored s entries).length,
      (entries.map (·.record)).foldl (fun s r => (Store.create r s).2) s) := by
  obtain ⟨s', hcount, -⟩ := create_count hd s
  obtain ⟨n, happly⟩ := create_apply entries s
  rw [hcount] at happly ⊢
  exact Prod.ext rfl (Prod.ext_iff.1 happly).2

/-- Seeding takes the free keys and no others, and a second seeding finds none free. -/
theorem seed_of_load (h : load host root = .ok entries) (s : Store) :
    ∃ s' : Store, seed host root s = (.ok (unstored s entries).length, s') ∧
      (∀ e ∈ entries, (s'.get? e.record.key).isSome = true) ∧
      (∀ key r, s.get? key = some r → s'.get? key = some r) ∧
      s'.records.size = s.records.size + (unstored s entries).length ∧
      seed host root s' = (.ok 0, s') := by
  have hdistinct := distinct_of_load h
  have hkeys : ((entries.map (·.record)).map (·.key)).Nodup := by
    rw [List.map_map]
    exact hdistinct
  obtain ⟨s', hcount, hsize⟩ := create_count hdistinct s
  have hs' : s' = (entries.map (·.record)).foldl (fun s r => (Store.create r s).2) s :=
    congrArg Prod.snd (hcount.symm.trans (create_eq hdistinct s))
  have hstored : ∀ e ∈ entries, (s'.get? e.record.key).isSome = true := fun e he =>
    hs' ▸ isSome_get?_creates hkeys s e.record (List.mem_map_of_mem he)
  have hnone : unstored s' entries = [] :=
    List.filter_eq_nil_iff.2 fun e he => by simp [Option.ne_none_iff_isSome.2 (hstored e he)]
  refine ⟨s', (seed_of_ok h s).trans hcount, hstored,
    fun key r hr => hs' ▸ Store.get?_creates_of_stored hr, hsize, ?_⟩
  rw [seed_of_ok h, create_eq hdistinct, hnone, creates_eq_self fun r hr => ?_]
  · rfl
  · obtain ⟨e, he, rfl⟩ := List.mem_map.1 hr
    exact hstored e he

/-- Loading takes all or nothing: every document of every visible record file, in the order of the
keys, if all are valid and no two have one key. Seeding a directory that cannot be loaded changes
nothing. Else it adds the records whose keys are free, tells how many they are, leaves every stored
record as it is, and has nothing left to do the second time. -/
theorem load_and_seed (host : Host) (root : String) (s : Store) :
    (∀ entries, load host root = .ok entries →
      entries.Pairwise (fun a b => a.record.key.Precedes b.record.key) ∧
      (∀ e ∈ entries, Validation.defects e.record = []) ∧
      (∀ place way, host.directory? root = some place →
        host.files.Finds [place] [] (.file way) → isHidden way = false →
        isRecordFile way = true → ∃ rs, Documents host root way rs) ∧
      ∀ r, r ∈ entries.map (·.record) ↔ ∃ way rs, Documents host root way rs ∧ r ∈ rs) ∧
    (∀ way way' rs rs' (i j : Nat) (r r' : AnyRecord), Documents host root way rs →
      Documents host root way' rs' → rs[i]? = some r → rs'[j]? = some r' →
      (way, i) ≠ (way', j) → r.key = r'.key → ∃ e, load host root = .error e) ∧
    (∀ e, load host root = .error e → seed host root s = (.error e, s)) ∧
    ∀ entries, load host root = .ok entries →
      ∃ n, ∃ s' : Store, seed host root s = (.ok n, s') ∧
        (∀ e ∈ entries, (s'.get? e.record.key).isSome = true) ∧
        (∀ key r, s.get? key = some r → s'.get? key = some r) ∧
        n = (entries.filter fun e => (s.get? e.record.key).isNone).length ∧
        s'.records.size = s.records.size + n ∧ seed host root s' = (.ok 0, s') := by
  refine ⟨fun entries h => ⟨pairwise_of_load h, defects_of_load h,
      fun place way hplace hfinds hvisible hfile =>
        exists_documents_of_load h hplace hfinds hvisible hfile,
      fun r => mem_loaded_iff h⟩,
    fun way way' rs rs' i j r r' hrs hrs' hr hr' hdiffer hkey => ?_,
    fun e h => seed_of_error h s, fun entries h => ?_⟩
  · cases hload : load host root with
    | error e => exact ⟨e, rfl⟩
    | ok entries =>
      obtain ⟨rfl, rfl⟩ := documents_unique hload hrs hrs' hr hr' hkey
      exact (hdiffer rfl).elim
  · obtain ⟨s', hseed, hstored, hkept, hsize, hagain⟩ := seed_of_load h s
    exact ⟨_, s', hseed, hstored, hkept, rfl, hsize, hagain⟩

namespace Small

def zone : String :=
  "apiVersion: boshsync.io/v1\nkind: AZ\nmetadata:\n  name: z1\n  namespace: team-a\nspec: \x7b\x7d\n"

def content : List UInt8 := Text.Utf8.encode zone

/-- A host with one file in its one directory. -/
def disk : Host where
  files := ⟨[(["m"], .directory), (["m", "a.yaml"], .file content)]⟩

theorem directory?_disk : disk.directory? "/m" = some ["m"] := by
  have hnames : FileTree.names "/m" = ["", "m"] := by decide +kernel
  have hplain : "/m".toList.any (·.toNat = 0) = false := by decide
  have hlocate : disk.files.locate [] "/m" = .ok ["m"] := by
    rw [FileTree.locate, hnames, hplain]
    simp [FileTree.go]
    decide
  have hroot : disk.workingDirectory = [] := rfl
  simp only [Host.directory?, FileTree.directory?, hroot, hlocate]
  rfl

theorem read_zone : disk.read "/m/a.yaml" = .ok zone := by
  have hnames : FileTree.names "/m/a.yaml" = ["", "m", "a.yaml"] := by decide +kernel
  have hplain : "/m/a.yaml".toList.any (·.toNat = 0) = false := by decide
  have hlocate : disk.files.locate [] "/m/a.yaml" = .ok ["m", "a.yaml"] := by
    rw [FileTree.locate, hnames, hplain]
    simp [FileTree.go]
    decide
  have htext : Text.Utf8.decode? content = some zone := by decide +kernel
  have hnode : disk.files.node? ["m", "a.yaml"] = some (.file content) := rfl
  have hroot : disk.workingDirectory = [] := rfl
  simp only [Host.read, FileTree.read, hroot, hlocate, bind, Except.bind, hnode, htext]
  rfl

theorem exists_ofYaml_zone :
    ∃ r, AnyRecord.ofYaml zone = .ok [r] ∧ Validation.complaint? [r] = none := by
  have hvalid : (AnyRecord.ofYaml zone).toOption.any (fun rs =>
      rs.length = 1 && (Validation.complaint? rs).isNone) = true := by decide +kernel
  cases hyaml : AnyRecord.ofYaml zone with
  | error e =>
    rw [hyaml] at hvalid
    cases hvalid
  | ok rs =>
    rw [hyaml] at hvalid
    obtain ⟨hone, hnone⟩ := Bool.and_eq_true_iff.1 hvalid
    obtain ⟨r, rfl⟩ := List.length_eq_one_iff.1 (of_decide_eq_true hone)
    exact ⟨r, rfl, Option.isNone_iff_eq_none.1 hnone⟩

theorem exists_load : ∃ r, load disk "/m" = .ok [⟨"a.yaml", r⟩] := by
  obtain ⟨r, hyaml, hcomplaint⟩ := exists_ofYaml_zone
  have hwalk : disk.files.walk ["m"] = [.file ["a.yaml"]] := rfl
  have hpath : FileTree.join "/m" ("/".intercalate ["a.yaml"]) = "/m/a.yaml" := by
    decide +kernel
  have hadd : addFound disk "/m" [] (.file ["a.yaml"]) = .ok [⟨"a.yaml", r⟩] := by
    rw [addFound_file (by decide) (by decide +kernel),
      addFile_of_ofYaml (hpath ▸ read_zone) hyaml]
    rfl
  have hgather : [FileTree.Found.file ["a.yaml"]].foldlM (addFound disk "/m") [] =
      .ok [⟨"a.yaml", r⟩] := by
    rw [List.foldlM_cons, hadd]
    rfl
  refine ⟨r, ?_⟩
  unfold load
  rw [directory?_disk]
  dsimp only
  rw [hwalk, hgather]
  simp only [bind, Except.bind, List.map_cons, List.map_nil, hcomplaint, List.mergeSort_singleton]
  rfl

end Small

/-- A file with one record, seeded twice. -/
theorem load_and_seed_small : ∃ s : Store, seed Small.disk "/m" ∅ = (.ok 1, s) ∧
    s.records.size = 1 ∧ seed Small.disk "/m" s = (.ok 0, s) := by
  obtain ⟨r, hload⟩ := Small.exists_load
  obtain ⟨n, s, hseed, -, -, rfl, hsize, hagain⟩ :=
    (load_and_seed Small.disk "/m" ∅).2.2.2 _ hload
  exact ⟨s, hseed, hsize, hagain⟩

end RecordFiles

end Reconciliation
