import Vaa.Failure
import Vaa.Simstudy.Study

/-!
# The vector of the study

`main` ends with writing its report as a JSON object (`Report.stable`).

A report passes the tests of `main` only if each fault of it was detected and none was
seen in the clean population. Each fault is injected once, and counted as either detected
or missed (`counted_of_runFaultInjection`), so that a report the study ends with is in
order, whatever the hash, the draws and the bytes of the records (`inOrder_of_study`).
-/

namespace Vaa.Simstudy

open Merkle ProofStore Json

/-! ## The JSON values -/

/-- A summary, as serialized. -/
def PopulationSummary.toValue (summary : PopulationSummary) : Value :=
  .object [
    ("m_records", .ofNat summary.mRecords),
    ("invoices_count", .ofNat summary.invoicesCount),
    ("receipts_count", .ofNat summary.receiptsCount),
    ("credit_notes_count", .ofNat summary.creditNotesCount),
    ("write_offs_count", .ofNat summary.writeOffsCount),
    ("ar_open", .ofNat summary.arOpen.toNat),
    ("invoices_total", .ofNat summary.invoicesTotal.toNat),
    ("receipts_total", .ofNat summary.receiptsTotal.toNat),
    ("credit_notes_total", .ofNat summary.creditNotesTotal.toNat),
    ("write_offs_total", .ofNat summary.writeOffsTotal.toNat),
    ("ar_close", .ofNat summary.arClose.toNat)]

/-- A fault, as serialized. -/
def FaultClass.toValue (f : FaultClass) : Value :=
  .object [
    ("name", .string f.name),
    ("injected", .ofNat f.injected),
    ("detected", .ofNat f.detected),
    ("missed", .ofNat f.missed),
    ("false_positives_clean", .ofNat f.falsePositivesClean)]

/-- `stable`: the vector written. -/
def Report.stable (report : Report) : Value :=
  .object [
    ("population", report.population.toValue),
    ("inclusion_sample", .ofNat report.inclusionSample),
    ("inclusion_passed", .ofNat report.inclusionPassed),
    ("selective_disclosure_checks", .ofNat report.selectiveDisclosureChecks),
    ("selective_disclosure_passed", .ofNat report.selectiveDisclosurePassed),
    ("roll_forward_holds", .bool report.rollForwardHolds),
    ("faults", .array (report.faults.map FaultClass.toValue)),
    ("origin_falsehood_injected", .ofNat report.originFalsehoodInjected),
    ("origin_falsehood_detected", .ofNat report.originFalsehoodDetected),
    ("seed", .ofNat report.seed),
    ("note", .string ("Timings are host-dependent (local measurements) and omitted from " ++
      "the committed vector."))]

/-! ## Faults -/

/-- A fault is injected once, and either detected or missed. -/
structure FaultClass.Counted (f : FaultClass) : Prop where
  injected_eq : f.injected = 1
  detected_add_missed : f.detected + f.missed = 1

theorem counted_tallyFault (name : String) (copy : List AccountingRecord)
    (summary : PopulationSummary) (cleanOk : Bool) :
    (tallyFault name copy summary cleanOk).Counted := by
  refine ⟨rfl, ?_⟩
  rw [tallyFault]
  cases rollForwardHolds copy summary <;> rfl

theorem counted_proofFault (name : String) (detected : Bool) :
    (proofFault name detected).Counted := by
  refine ⟨rfl, ?_⟩
  cases detected <;> rfl

section Counted

variable {sha256 : Bytes → Hash} {records : List AccountingRecord} {summary : PopulationSummary}
  {leaves : List Hash} {store : ProofStore} {indices : List ℕ} {faults : List FaultClass}

theorem counted_of_tallyFaults (hfaults : tallyFaults records summary = .ok faults) :
    ∀ f ∈ faults, f.Counted := by
  simp only [tallyFaults, Result.bind_eq_ok_iff] at hfaults
  obtain ⟨first, -, ⟨⟩⟩ := hfaults
  simp only [List.forall_mem_cons, List.not_mem_nil, false_implies, implies_true, and_true]
  exact ⟨counted_tallyFault .., counted_tallyFault .., counted_tallyFault ..⟩

theorem counted_of_tamperedMerkleLeaf
    (hfaults : tamperedMerkleLeaf sha256 leaves store indices = .ok faults) :
    ∀ f ∈ faults, f.Counted := by
  rw [tamperedMerkleLeaf] at hfaults
  split at hfaults
  · cases hfaults
    exact List.forall_mem_nil _
  · simp only [Result.bind_eq_ok_iff] at hfaults
    obtain ⟨i, -, leaf, -, stored, -, detected, -, ⟨⟩⟩ := hfaults
    exact List.forall_mem_singleton.2 (counted_proofFault ..)

theorem counted_of_wrongIndex (hfaults : wrongIndex sha256 leaves indices = .ok faults) :
    ∀ f ∈ faults, f.Counted := by
  rw [wrongIndex] at hfaults
  split at hfaults
  · cases hfaults
    exact List.forall_mem_nil _
  · simp only [Result.bind_eq_ok_iff] at hfaults
    obtain ⟨i, -, j, -, proof, -, root, -, leaf, -, detected, -, ⟨⟩⟩ := hfaults
    exact List.forall_mem_singleton.2 (counted_proofFault ..)

theorem counted_of_wrongRoot (hfaults : wrongRoot sha256 leaves indices = .ok faults) :
    ∀ f ∈ faults, f.Counted := by
  rw [wrongRoot] at hfaults
  split at hfaults
  · cases hfaults
    exact List.forall_mem_nil _
  · simp only [Result.bind_eq_ok_iff] at hfaults
    obtain ⟨i, -, proof, -, leaf, -, detected, -, ⟨⟩⟩ := hfaults
    exact List.forall_mem_singleton.2 (counted_proofFault ..)

/-- Each fault is injected once, and counted once. -/
theorem counted_of_runFaultInjection
    (hfaults : runFaultInjection sha256 records summary leaves store indices = .ok faults) :
    ∀ f ∈ faults, f.Counted := by
  simp only [runFaultInjection, Result.bind_eq_ok_iff] at hfaults
  obtain ⟨inRecords, htally, tampered, htampered, moved, hmoved, wrong, hwrong, ⟨⟩⟩ := hfaults
  intro f hf
  simp only [List.mem_append] at hf
  rcases hf with ((hf | hf) | hf) | hf
  · exact counted_of_tallyFaults htally f hf
  · exact counted_of_tamperedMerkleLeaf htampered f hf
  · exact counted_of_wrongIndex hmoved f hf
  · exact counted_of_wrongRoot hwrong f hf

end Counted

/-! ## Reports in order -/

/-- The faults of a report are detected, none of them in the clean population, and the
    falsehood at the origin is not. -/
structure Report.InOrder (report : Report) : Prop where
  holds : report.rollForwardHolds = true
  detected : ∀ f ∈ report.faults, f.injected = 1 ∧ f.detected = 1 ∧ f.falsePositivesClean = 0
  origin_undetected : report.originFalsehoodDetected = 0

theorem checkFaultClass_eq_ok_iff {f : FaultClass} :
    checkFaultClass f = .ok () ↔ f.falsePositivesClean = 0 ∧ f.missed = 0 := by
  rw [checkFaultClass]
  split
  · next hpositive => exact iff_of_false Result.error_ne_ok fun h => hpositive h.1
  · next hnone =>
    rw [not_not] at hnone
    split
    · next hmissed => exact iff_of_false Result.error_ne_ok fun h => hmissed h.2
    · next hdetected => exact iff_of_true rfl ⟨hnone, not_not.1 hdetected⟩

theorem checkReport_eq_ok_iff {report : Report} : checkReport report = .ok () ↔
    report.inclusionPassed = report.inclusionSample ∧
      report.selectiveDisclosurePassed = report.selectiveDisclosureChecks ∧
      ∀ f ∈ report.faults, f.falsePositivesClean = 0 ∧ f.missed = 0 := by
  rw [checkReport]
  split
  · next hinclusion => exact iff_of_false Result.error_ne_ok fun h => hinclusion h.1
  · next hinclusion =>
    rw [not_not] at hinclusion
    split
    · next hdisclosure => exact iff_of_false Result.error_ne_ok fun h => hdisclosure h.2.1
    · next hdisclosure =>
      rw [not_not] at hdisclosure
      rw [and_iff_right hinclusion, and_iff_right hdisclosure, Result.bind_eq_ok_iff]
      simp only [← checkFaultClass_eq_ok_iff]
      constructor
      · rintro ⟨_, hchecked, -⟩ f hf
        obtain ⟨_, hok⟩ := Result.exists_mapM_eq_ok_iff.1 ⟨_, hchecked⟩ f hf
        exact hok
      · intro hall
        obtain ⟨checked, hchecked⟩ :=
          Result.exists_mapM_eq_ok_iff.2 fun f hf => ⟨(), hall f hf⟩
        exact ⟨checked, hchecked, rfl⟩

section Study

variable {sha256 : Bytes → Hash} {toVec : AccountingRecord → Bytes} {overflowChecks : Bool}
  {inclusionSample : ℕ} {originDraw : UInt64} {report : Report}

theorem inOrder_of_studyPopulation {records : List AccountingRecord} {summary : PopulationSummary}
    (hreport : studyPopulation sha256 overflowChecks toVec inclusionSample originDraw records
      summary = .ok report) : report.InOrder ∧ report.population = summary := by
  rw [studyPopulation] at hreport
  simp only at hreport
  split at hreport
  · cases hreport
  · next hholds =>
    simp only [Result.bind_eq_ok_iff] at hreport
    obtain ⟨indices, -, store, -, inclusionPassed, -, sdPassed, -, faults, hfaults, _, hcheck,
      ⟨⟩⟩ := hreport
    obtain ⟨-, -, hdetected⟩ := checkReport_eq_ok_iff.1 hcheck
    have hcounted := counted_of_runFaultInjection hfaults
    refine ⟨⟨eq_true_of_ne_false hholds, fun f hf => ?_, ?_⟩, rfl⟩
    · obtain ⟨hpositives, hmissed⟩ := hdetected f hf
      obtain ⟨hinjected, hadd⟩ := hcounted f hf
      rw [hmissed, Nat.add_zero] at hadd
      exact ⟨hinjected, hadd, hpositives⟩
    · simp only [origin_falsehood_undetected]

/-- A study ends with a report in order, or with none. -/
theorem inOrder_of_study {m : ℕ} {draws : Draws}
    (hreport : study sha256 overflowChecks toVec m inclusionSample draws originDraw =
      .ok report) : report.InOrder ∧ report.population.mRecords = m := by
  rw [study, Result.bind_eq_ok_iff] at hreport
  obtain ⟨⟨records, summary⟩, hgenerate, hreport⟩ := hreport
  obtain ⟨hinOrder, hpopulation⟩ := inOrder_of_studyPopulation hreport
  obtain ⟨-, arClose, -, hp⟩ := generatePopulation_eq_ok_iff.1 hgenerate
  obtain ⟨-, rfl⟩ := Prod.mk.inj hp
  refine ⟨hinOrder, ?_⟩
  rw [hpopulation]
  exact (length_recordsOf draws (turns (kinds m))).trans (length_turns m)

end Study

end Vaa.Simstudy
