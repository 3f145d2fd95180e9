import Reconciliation.Proofs.Digits
import Reconciliation.Proofs.Loading
import Reconciliation.Proofs.Payload

namespace Reconciliation

namespace Text

/-- No zero of another script is in ASCII. -/
theorem isDigit_of_isDecimalDigit {c : Char} (h : isDecimalDigit c = true)
    (hascii : c.toNat < 128) : c.isDigit = true := by
  have hzeros : ∀ z ∈ digitZeros, z = 0x30 ∨ 128 ≤ z := by decide
  obtain ⟨z, hz, hc⟩ := List.any_eq_true.1 h
  simp only [Bool.and_eq_true, decide_eq_true_eq] at hc
  rcases hzeros z hz with rfl | hz
  · rw [← Json.isDigit_eq, Json.isDigit_iff]
    omega
  · omega

theorem toNat_lt_of_isDigit {c : Char} (h : c.isDigit = true) : c.toNat < 128 := by
  rw [← Json.isDigit_eq, Json.isDigit_iff] at h
  omega

/-- One to three of the digits, and a percent sign. -/
def IsPercentage (isDigit : Char → Bool) (text : String) : Prop :=
  ∃ ds : List Char, text.toList = ds ++ ['%'] ∧ 1 ≤ ds.length ∧ ds.length ≤ 3 ∧
    ∀ d ∈ ds, isDigit d = true

theorem isPercentage_isDigit_iff {text : String} : IsPercentage Char.isDigit text ↔
    IsPercentage isDecimalDigit text ∧ ∀ c ∈ text.toList, c.toNat < 128 := by
  constructor
  · rintro ⟨ds, htext, hmin, hmax, hds⟩
    refine ⟨⟨ds, htext, hmin, hmax, fun d hd => isDecimalDigit_of_isDigit (hds d hd)⟩, ?_⟩
    intro c hc
    rw [htext, List.mem_append, List.mem_singleton] at hc
    rcases hc with hc | rfl
    · exact toNat_lt_of_isDigit (hds c hc)
    · decide
  · rintro ⟨⟨ds, htext, hmin, hmax, hds⟩, hascii⟩
    refine ⟨ds, htext, hmin, hmax, fun d hd => ?_⟩
    exact isDigit_of_isDecimalDigit (hds d hd)
      (hascii d (htext ▸ List.mem_append_left _ hd))

end Text

theorem UpdatePolicy.nonempty_eq_some_iff {given : Option String} {text : String} :
    nonempty given = some text ↔ given = some text ∧ text ≠ "" := by
  simp [nonempty, Option.filter_eq_some_iff]

namespace Validation

theorem defectIf_eq_nil_iff {condition : Bool} {d : Defect} :
    defectIf condition d = [] ↔ condition = false := by
  cases condition <;> simp [defectIf]

theorem isPercent_iff {text : String} :
    isPercent text = true ↔ Text.IsPercentage Text.isDecimalDigit text := by
  simp only [isPercent, Bool.and_eq_true, beq_iff_eq, decide_eq_true_eq, List.all_eq_true,
    List.getLast?_eq_some_iff, and_assoc]
  constructor
  · rintro ⟨⟨ds, htext⟩, h⟩
    rw [htext, List.dropLast_concat] at h
    exact ⟨ds, htext, h⟩
  · rintro ⟨ds, htext, h⟩
    rw [htext, List.dropLast_concat]
    exact ⟨⟨ds, rfl⟩, h⟩

theorem strategyDefects_eq_nil_iff {s : UpdateStrategy} : strategyDefects s = [] ↔
    (∀ text, UpdatePolicy.nonempty s.maxUnavailablePercent = some text →
      Text.IsPercentage Text.isDecimalDigit text) ∧
    (s.maxReadySeconds ≠ 0 → s.minReadySeconds ≤ s.maxReadySeconds) := by
  have horder : (s.maxReadySeconds > 0 && s.maxReadySeconds < s.minReadySeconds) = false ↔
      (s.maxReadySeconds ≠ 0 → s.minReadySeconds ≤ s.maxReadySeconds) := by
    rw [Bool.and_eq_false_imp, decide_eq_true_eq, decide_eq_false_iff_not, gt_iff_lt,
      UInt64.not_lt, UInt64.pos_iff_ne_zero]
  simp only [strategyDefects, List.append_eq_nil_iff, defectIf_eq_nil_iff, horder,
    UpdatePolicy.nonempty_eq_some_iff]
  refine and_congr_left' ?_
  cases s.maxUnavailablePercent with
  | none => simp
  | some text =>
    by_cases hempty : text = ""
    · simp [hempty, defectIf]
    · simp [hempty, defectIf_eq_nil_iff, isPercent_iff]

theorem strategyDefects_of_valid {rs : List AnyRecord} {d : Record .deployment}
    (hvalid : complaint? rs = none) (hd : ⟨.deployment, d⟩ ∈ rs) :
    strategyDefects (d.spec : DeploymentSpec).updateStrategy = [] := by
  have hdefects := complaint?_eq_none_iff.1 hvalid _ hd
  have hspec := (List.append_eq_nil_iff.1 hdefects).2
  exact (List.append_eq_nil_iff.1 hspec).2

end Validation

theorem WatchTime.Spans.unique {s : UpdateStrategy} {w w' : WatchTime} (h : w.Spans s)
    (h' : w'.Spans s) : w = w' := by
  have hw := WatchTime.ofSeconds?_eq_some_iff.2 h
  have hw' := WatchTime.ofSeconds?_eq_some_iff.2 h'
  exact Option.some.inj (hw.symm.trans hw')

namespace UpdatePolicy

variable {s : UpdateStrategy} {p : UpdatePolicy}

/-- The block is one that can be followed, with percentages in these digits and with the seconds of
the strategy in milliseconds. -/
structure WellFormed (isDigit : Char → Bool) (s : UpdateStrategy) (p : UpdatePolicy) : Prop where
  maxInFlight : (∃ n, p.maxInFlight = .instances n) ∨
    ∃ text, p.maxInFlight = .percent text ∧ Text.IsPercentage isDigit text
  canaryWatchTime : p.canaryWatchTime = p.updateWatchTime
  updateWatchTime : p.updateWatchTime.Spans s
  ordered : ∀ low high, p.updateWatchTime = .range low high → low ≤ high
  vmStrategy : p.vmStrategy ≠ ""

namespace Implements

variable (h : p.Implements s)

include h

theorem maxInFlight_eq_percent_iff {text : String} :
    p.maxInFlight = .percent text ↔ nonempty s.maxUnavailablePercent = some text := by
  rw [h.maxInFlight]
  cases nonempty s.maxUnavailablePercent <;> simp

theorem exists_instances (hnone : nonempty s.maxUnavailablePercent = none) :
    ∃ n, p.maxInFlight = .instances n := by
  rw [h.maxInFlight, hnone]
  exact ⟨_, rfl⟩

theorem vmStrategy_ne_empty : p.vmStrategy ≠ "" := by
  rw [h.vmStrategy]
  cases htype : nonempty s.strategyType with
  | none => decide
  | some t => exact (nonempty_eq_some_iff.1 htype).2

theorem wellFormed (hvalid : Validation.strategyDefects s = []) :
    p.WellFormed Text.isDecimalDigit s := by
  obtain ⟨hpercent, horder⟩ := Validation.strategyDefects_eq_nil_iff.1 hvalid
  refine ⟨?_, h.canaryWatchTime.unique h.updateWatchTime, h.updateWatchTime, ?_,
    h.vmStrategy_ne_empty⟩
  · cases hgiven : nonempty s.maxUnavailablePercent with
    | none => exact .inl (h.exists_instances hgiven)
    | some text =>
      exact .inr ⟨text, h.maxInFlight_eq_percent_iff.2 hgiven, hpercent text hgiven⟩
  · intro low high hrange
    have hspans := h.updateWatchTime
    rw [hrange] at hspans
    obtain ⟨hmax, hlow, hhigh⟩ := hspans
    have hle := UInt64.le_iff_toNat_le.1 (horder hmax)
    rw [UInt64.le_iff_toNat_le, hlow, hhigh]
    omega

/-- All digits are in ASCII exactly if the percentage was given so. -/
theorem wellFormed_ascii_iff (hvalid : Validation.strategyDefects s = []) :
    p.WellFormed Char.isDigit s ↔
      ∀ text, s.maxUnavailablePercent = some text → ∀ c ∈ text.toList, c.toNat < 128 := by
  have hwell := h.wellFormed hvalid
  constructor
  · intro hascii text hgiven
    by_cases hempty : text = ""
    · simp [hempty]
    have hpercent := h.maxInFlight_eq_percent_iff.2 (nonempty_eq_some_iff.2 ⟨hgiven, hempty⟩)
    rcases hascii.maxInFlight with ⟨n, hn⟩ | ⟨text', htext, hdigits⟩
    · rw [hpercent] at hn
      cases hn
    · obtain rfl : text = text' := MaxInFlight.percent.inj (hpercent.symm.trans htext)
      exact (Text.isPercentage_isDigit_iff.1 hdigits).2
  · intro hascii
    refine { hwell with maxInFlight := hwell.maxInFlight.imp_right ?_ }
    rintro ⟨text, htext, hdigits⟩
    obtain ⟨hgiven, -⟩ := nonempty_eq_some_iff.1 (h.maxInFlight_eq_percent_iff.1 htext)
    exact ⟨text, htext, Text.isPercentage_isDigit_iff.2 ⟨hdigits, hascii text hgiven⟩⟩

end Implements

/-- A valid deployment has an update block unless a bound does not fit in milliseconds. The block is
well-formed with decimal digits of any script, and with those of ASCII exactly if the percentage
was given in ASCII. -/
theorem wellFormed_of_valid {rs : List AnyRecord} {d : Record .deployment}
    (hvalid : Validation.complaint? rs = none) (hd : ⟨.deployment, d⟩ ∈ rs) :
    ((∃ p, ofStrategy? (d.spec : DeploymentSpec).updateStrategy = some p) ↔
      (d.spec : DeploymentSpec).updateStrategy.Fits) ∧
    ∀ p, ofStrategy? (d.spec : DeploymentSpec).updateStrategy = some p →
      p.WellFormed Text.isDecimalDigit (d.spec : DeploymentSpec).updateStrategy ∧
      (p.WellFormed Char.isDigit (d.spec : DeploymentSpec).updateStrategy ↔
        ∀ text, (d.spec : DeploymentSpec).updateStrategy.maxUnavailablePercent = some text →
          ∀ c ∈ text.toList, c.toNat < 128) := by
  have hdefects := Validation.strategyDefects_of_valid hvalid hd
  refine ⟨?_, fun p hp => ?_⟩
  · simp only [ofStrategy?_eq_some_iff, exists_implements_iff]
  · have himplements := ofStrategy?_eq_some_iff.1 hp
    exact ⟨himplements.wellFormed hdefects, himplements.wellFormed_ascii_iff hdefects⟩

namespace Small

def updatedBy (s : UpdateStrategy) : Record .deployment :=
  let spec : DeploymentSpec :=
    { azs := ["z"], replicas := 1, containers := [{ role := "server" }], baseImage := "i",
      network := "n", updateStrategy := s }
  Record.new "team-a" "x" spec

def quarters : UpdateStrategy :=
  { minReadySeconds := 5, maxReadySeconds := 60, maxUnavailablePercent := some "25%",
    strategyType := some "" }

/-- The digits are those of full width. -/
def wideQuarters : UpdateStrategy := { maxUnavailablePercent := some "２５%" }

end Small

/-- A range of watch times, a percentage and no type of replacement. -/
theorem wellFormed_of_valid_small :
    Validation.complaint? [⟨.deployment, Small.updatedBy Small.quarters⟩] = none ∧
    ∃ p, ofStrategy? Small.quarters = some p ∧ p.WellFormed Char.isDigit Small.quarters := by
  have hvalid : Validation.complaint? [⟨.deployment, Small.updatedBy Small.quarters⟩] = none := by
    decide +kernel
  obtain ⟨hexists, hwell⟩ := wellFormed_of_valid hvalid (List.mem_singleton.2 rfl)
  obtain ⟨p, hp⟩ := hexists.2 ⟨by decide, fun _ => by decide⟩
  have hascii : "25%".toList.all (fun c => c.toNat < 128) = true := by decide +kernel
  refine ⟨hvalid, p, hp, (hwell p hp).2.2 fun text htext => ?_⟩
  cases htext
  simpa only [List.all_eq_true, decide_eq_true_eq] using hascii

/-- The deployment is valid, and yet its block has no percentage in digits of ASCII. -/
theorem wide_digits_accepted :
    Validation.complaint? [⟨.deployment, Small.updatedBy Small.wideQuarters⟩] = none ∧
    ∃ p, ofStrategy? Small.wideQuarters = some p ∧ p.maxInFlight = .percent "２５%" ∧
      ¬p.WellFormed Char.isDigit Small.wideQuarters := by
  obtain ⟨p, hp⟩ := exists_implements_iff.2
    (⟨by decide, fun _ => by decide⟩ : Small.wideQuarters.Fits)
  have hpercent : p.maxInFlight = .percent "２５%" := hp.maxInFlight_eq_percent_iff.2 (by decide)
  refine ⟨by decide +kernel, p, ofStrategy?_eq_some_iff.2 hp, hpercent, fun h => ?_⟩
  rcases h.maxInFlight with ⟨n, hn⟩ | ⟨text, htext, hdigits⟩
  · rw [hpercent] at hn
    cases hn
  · obtain rfl : "２５%" = text := MaxInFlight.percent.inj (hpercent.symm.trans htext)
    have hascii := (Text.isPercentage_isDigit_iff.1 hdigits).2
    exact absurd (hascii '２' (by decide)) (by decide)

end UpdatePolicy

end Reconciliation
