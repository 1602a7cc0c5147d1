import Vaa.Simstudy.Study
import Vaa.Simstudy.Coincidence
import Vaa.Failure

/-!
# How the study ends

The study of a population ends in one of five ways, told by the draws of the generator and
by the hash (`study_outcome`):

* without any record, it panics when it alters the first one;
* when the balance of the draws goes below zero, the generator panics if the build checks
  overflows, and otherwise the study bails out, as the population it got does not balance;
* else it reports, unless the hash lets one of the faults in the proofs pass, and then it
  bails out naming the first of these.
-/

namespace Vaa.Simstudy

open Accounting Merkle Cli RecordKind

variable {sha256 : Bytes → Hash} {toVec : AccountingRecord → Bytes} {overflowChecks : Bool}
  {m inclusionSample : ℕ} {draws : Draws} {originDraw : UInt64}

/-! ## The generator -/

/-- The numbers of records whose ids do not run out are small enough for the totals. -/
theorem totalsFit_of_lt (hm : m < 2 ^ 32) (draws : Draws) : TotalsFit m draws := by
  refine totalsFit_of_le ?_ draws
  rw [u64Max]
  omega

/-- The generator returns, or panics, as it computes the closing balance. -/
theorem generatePopulation_of_lt (hm : m < 2 ^ 32) :
    generatePopulation overflowChecks m draws =
      closingBalance overflowChecks draws.arOpen (generated m draws).totals >>= fun arClose =>
        .ok ((generated m draws).records, (generated m draws).summary draws.arOpen arClose) := by
  have hpush : pushAll overflowChecks draws (generatorAfter draws []) (kinds m) =
      .ok (generated m draws) := by
    rw [pushAll_generatorAfter fun _ => by decide, List.length_nil, Nat.zero_add, length_turns,
      machine_eq_ok_iff]
    exact ⟨fun _ => hm, rfl⟩
  change pushAll overflowChecks draws (generatorAfter draws []) (kinds m) >>= _ = _
  rw [hpush]
  rfl

/-- With overflow checks, a closing balance is only computed for solvent draws. -/
theorem solvent_of_closingBalance (hfit : TotalsFit m draws) {arClose : UInt64}
    (hclose : closingBalance true draws.arOpen (generated m draws).totals = .ok arClose) :
    Solvent m draws := by
  have htotal := toNat_totals_generated hfit
  have hreceipts := htotal receipt
  have hcreditNotes := htotal creditNote
  have hwriteOffs := htotal writeOff
  have hadd : (draws.arOpen + (generated m draws).totals.get invoice.slot).toNat =
      draws.arOpen.toNat + draws.total m .invoice := by
    rw [UInt64.toNat_add, htotal]
    exact Nat.mod_eq_of_lt (Nat.lt_of_le_sub_one (by decide) hfit.open_le)
  rw [closingBalance] at hclose
  simp only [addWords, subWords, Result.bind_eq_ok_iff, machine_eq_ok_iff, forall_const]
    at hclose
  -- Each subtraction leaves what the next one takes.
  obtain ⟨_, ⟨-, rfl⟩, _, ⟨hle, rfl⟩, _, ⟨hle', rfl⟩, hle'', -⟩ := hclose
  rw [toNat_sub hle', toNat_sub hle] at hle''
  rw [toNat_sub hle] at hle'
  rw [Solvent]
  omega

/-- Computing the closing balance may panic, but does not fail otherwise. -/
theorem closingBalance_eq_panicked {arOpen : UInt64} {totals : Vector UInt64 4}
    {fault : Fault AnyhowError}
    (hfault : closingBalance overflowChecks arOpen totals = .error fault) :
    fault = .panicked := by
  rw [closingBalance] at hfault
  simp only [addWords, subWords, Result.bind_eq_error_iff, Result.machine_eq_error_iff] at hfault
  -- Each operation on words fails by a panic only.
  rcases hfault with ⟨-, h⟩ | ⟨_, -, ⟨-, h⟩ | ⟨_, -, ⟨-, h⟩ | ⟨_, -, -, h⟩⟩⟩ <;> exact h

/-- Without overflow checks, a closing balance is always computed. -/
theorem exists_closingBalance (arOpen : UInt64) (totals : Vector UInt64 4) :
    ∃ arClose, closingBalance false arOpen totals = .ok arClose := by
  simp [closingBalance, addWords, subWords, Result.bind_eq_ok_iff, machine_eq_ok_iff]

/-! ## The study -/

/-- The records of a generated population. -/
def generatedRecords (m : ℕ) (draws : Draws) : List AccountingRecord :=
  recordsOf draws (turns (kinds m))

/-- How the study of `m` records fails. -/
inductive StudyFault (sha256 : Bytes → Hash) (overflowChecks : Bool)
    (toVec : AccountingRecord → Bytes) (m inclusionSample : ℕ) (draws : Draws) :
    Fault AnyhowError → Prop
  | empty : m = 0 → StudyFault sha256 overflowChecks toVec m inclusionSample draws .panicked
  | overflow : overflowChecks = true → ¬Solvent m draws →
      StudyFault sha256 overflowChecks toVec m inclusionSample draws .panicked
  | unclean : overflowChecks = false → ¬Solvent m draws →
      StudyFault sha256 overflowChecks toVec m inclusionSample draws
        (.err ⟨["clean population does not satisfy the roll-forward identity"]⟩)
  | missed {name : String} : 0 < m → Solvent m draws →
      missedFault sha256 (leavesOfRecords sha256 toVec (generatedRecords m draws))
        (min inclusionSample m) = some name →
      StudyFault sha256 overflowChecks toVec m inclusionSample draws
        (.err ⟨[s!"fault {name} missed {1} of {1}"]⟩)

/-- The study of draws that owe more than there is. -/
theorem study_of_not_solvent (hm : m < 2 ^ 32) (howes : ¬Solvent m draws) :
    study sha256 overflowChecks toVec m inclusionSample draws originDraw =
      if overflowChecks = true then .error .panicked
      else bail "clean population does not satisfy the roll-forward identity" := by
  have hfit := totalsFit_of_lt hm draws
  rw [study, generatePopulation_of_lt hm]
  cases overflowChecks with
  | true =>
    cases hclose : closingBalance true draws.arOpen (generated m draws).totals with
    | ok arClose => exact absurd (solvent_of_closingBalance hfit hclose) howes
    | error fault =>
      obtain rfl := closingBalance_eq_panicked hclose
      rfl
  | false =>
    obtain ⟨arClose, hclose⟩ := exists_closingBalance draws.arOpen (generated m draws).totals
    have hroll : rollForwardHolds (generated m draws).records
        ((generated m draws).summary draws.arOpen arClose) = false := by
      rw [← Bool.not_eq_true]
      exact fun hholds => howes (solvent_of_holds hfit hholds)
    rw [hclose, Result.ok_bind, Result.ok_bind, studyPopulation, hroll]
    rfl

/-- The study of solvent draws is that of an accepted population. -/
theorem study_of_solvent (sha256 : Bytes → Hash) (toVec : AccountingRecord → Bytes)
    (overflowChecks : Bool) (inclusionSample : ℕ) (originDraw : UInt64) (hm : m < 2 ^ 32)
    (hsolvent : Solvent m draws) : ∃ summary,
      generatePopulation overflowChecks m draws = .ok (generatedRecords m draws, summary) ∧
      rollForwardHolds (generatedRecords m draws) summary = true ∧
      study sha256 overflowChecks toVec m inclusionSample draws originDraw =
        studyPopulation sha256 overflowChecks toVec inclusionSample originDraw
          (generatedRecords m draws) summary := by
  have hclean : GeneratesClean overflowChecks m draws :=
    clean_of_solvent (totalsFit_of_lt hm draws) (fun _ => hm) hsolvent
  obtain ⟨records, summary, hgenerate, hclean⟩ := hclean
  obtain ⟨-, arClose, -, hp⟩ := generatePopulation_eq_ok_iff.1 hgenerate
  obtain ⟨hrecords, -⟩ := Prod.mk.inj hp
  obtain rfl : generatedRecords m draws = records := hrecords
  refine ⟨summary, hgenerate, hclean.holds, ?_⟩
  rw [study, hgenerate]
  rfl

/-- The study of no records panics. -/
theorem study_zero : study sha256 overflowChecks toVec 0 inclusionSample draws originDraw =
    .error .panicked := by
  obtain ⟨summary, -, hholds, hstudy⟩ := study_of_solvent (m := 0) sha256 toVec overflowChecks
    inclusionSample originDraw (Nat.two_pow_pos 32) (Nat.zero_le _ : Solvent 0 draws)
  have hnil : generatedRecords 0 draws = [] := rfl
  rw [hnil] at hholds hstudy
  -- The first fault alters a record that is not there.
  rw [hstudy]
  simp only [studyPopulation, hholds, Bool.true_eq_false, if_false, List.length_nil, Nat.min_zero]
  rfl

/-- The study of some records, and solvent draws, ends as the hash lets a fault pass or not. -/
theorem study_of_pos (sha256 : Bytes → Hash) (toVec : AccountingRecord → Bytes)
    (overflowChecks : Bool) (inclusionSample : ℕ) (originDraw : UInt64) (hm : m < 2 ^ 32)
    (hsolvent : Solvent m draws) (hpos : 0 < m) : ∃ summary,
      generatePopulation overflowChecks m draws = .ok (generatedRecords m draws, summary) ∧
      let missed := missedFault sha256 (leavesOfRecords sha256 toVec (generatedRecords m draws))
        (min inclusionSample m)
      let result := study sha256 overflowChecks toVec m inclusionSample draws originDraw
      (missed = none → result =
        .ok (reportOf sha256 toVec inclusionSample (generatedRecords m draws) summary)) ∧
      ∀ name, missed = some name → result = bail s!"fault {name} missed {1} of {1}" := by
  obtain ⟨summary, hgenerate, hholds, hstudy⟩ :=
    study_of_solvent sha256 toVec overflowChecks inclusionSample originDraw hm hsolvent
  refine ⟨summary, hgenerate, ?_⟩
  have hlength : (generatedRecords m draws).length = m := by
    rw [generatedRecords, length_recordsOf, length_turns]
  have hmem : ∀ r ∈ generatedRecords m draws, r.value ≠ 0 := fun r hr => value_ne_zero_of_mem hr
  rw [hstudy]
  revert hlength hmem hholds
  cases generatedRecords m draws with
  | nil => exact fun _ hlength => absurd hlength hpos.ne
  | cons first rest =>
    intro hholds hlength hmem
    have hlt : (first :: rest).length < 2 ^ 32 := hlength ▸ hm
    rw [studyPopulation_eq hlt hholds (hmem first List.mem_cons_self), hlength]
    refine ⟨fun hnone => ?_, fun name hsome => ?_⟩
    · rw [hnone]
    · rw [hsome]

/-! ## The outcome -/

/-- The study of `m` records reports: there are some, their draws are solvent, and the hash
    lets none of the faults pass. -/
structure StudyReport (sha256 : Bytes → Hash) (overflowChecks : Bool)
    (toVec : AccountingRecord → Bytes) (m inclusionSample : ℕ) (draws : Draws)
    (report : Report) : Prop where
  pos : 0 < m
  solvent : Solvent m draws
  detected : missedFault sha256 (leavesOfRecords sha256 toVec (generatedRecords m draws))
    (min inclusionSample m) = none
  report_eq : ∃ summary,
    generatePopulation overflowChecks m draws = .ok (generatedRecords m draws, summary) ∧
    report = reportOf sha256 toVec inclusionSample (generatedRecords m draws) summary

theorem StudyReport.study_eq {report : Report} (hm : m < 2 ^ 32)
    (hreport : StudyReport sha256 overflowChecks toVec m inclusionSample draws report)
    (originDraw : UInt64) :
    study sha256 overflowChecks toVec m inclusionSample draws originDraw = .ok report := by
  obtain ⟨summary, hgenerate, rfl⟩ := hreport.report_eq
  obtain ⟨summary', hgenerate', hok, -⟩ := study_of_pos sha256 toVec overflowChecks
    inclusionSample originDraw hm hreport.solvent hreport.pos
  obtain ⟨-, rfl⟩ := Prod.mk.inj (Except.ok.inj (hgenerate.symm.trans hgenerate'))
  exact hok hreport.detected

theorem StudyFault.study_eq {fault : Fault AnyhowError} (hm : m < 2 ^ 32)
    (hfault : StudyFault sha256 overflowChecks toVec m inclusionSample draws fault)
    (originDraw : UInt64) :
    study sha256 overflowChecks toVec m inclusionSample draws originDraw = .error fault := by
  cases hfault with
  | empty hzero =>
    subst hzero
    exact study_zero
  | overflow hchecks howes => rw [study_of_not_solvent hm howes, if_pos hchecks]
  | unclean hchecks howes =>
    rw [study_of_not_solvent hm howes, if_neg (by rw [hchecks]; exact Bool.false_ne_true), bail]
  | missed hpos hsolvent hmissed =>
    obtain ⟨_, -, -, hfails⟩ :=
      study_of_pos sha256 toVec overflowChecks inclusionSample originDraw hm hsolvent hpos
    exact hfails _ hmissed

/-- The study always ends in one of these ways. -/
theorem exists_outcome (sha256 : Bytes → Hash) (toVec : AccountingRecord → Bytes)
    (overflowChecks : Bool) (inclusionSample : ℕ) (draws : Draws) (hm : m < 2 ^ 32) :
    (∃ report, StudyReport sha256 overflowChecks toVec m inclusionSample draws report) ∨
      ∃ fault, StudyFault sha256 overflowChecks toVec m inclusionSample draws fault := by
  by_cases hsolvent : Solvent m draws
  · rcases Nat.eq_zero_or_pos m with hzero | hpos
    · exact .inr ⟨_, .empty hzero⟩
    · cases hmissed : missedFault sha256
          (leavesOfRecords sha256 toVec (generatedRecords m draws)) (min inclusionSample m) with
      | none =>
        obtain ⟨summary, hgenerate, -⟩ :=
          study_of_solvent sha256 toVec overflowChecks inclusionSample 0 hm hsolvent
        exact .inl ⟨_, hpos, hsolvent, hmissed, summary, hgenerate, rfl⟩
      | some name => exact .inr ⟨_, .missed hpos hsolvent hmissed⟩
  · cases overflowChecks with
    | true => exact .inr ⟨_, .overflow rfl hsolvent⟩
    | false => exact .inr ⟨_, .unclean rfl hsolvent⟩

/-- The study returns a report exactly for some records and solvent draws, if the hash lets
    none of the faults pass, and otherwise fails in one of the four other ways. -/
theorem study_outcome (sha256 : Bytes → Hash) (toVec : AccountingRecord → Bytes)
    (overflowChecks : Bool) (m inclusionSample : ℕ) (draws : Draws) (originDraw : UInt64)
    (hm : m < 2 ^ 32) :
    let result := study sha256 overflowChecks toVec m inclusionSample draws originDraw
    (∀ report, result = .ok report ↔
      StudyReport sha256 overflowChecks toVec m inclusionSample draws report) ∧
    ∀ fault, result = .error fault ↔
      StudyFault sha256 overflowChecks toVec m inclusionSample draws fault := by
  intro result
  refine ⟨fun report => ⟨fun hok => ?_, fun h => h.study_eq hm originDraw⟩,
    fun fault => ⟨fun hfails => ?_, fun h => h.study_eq hm originDraw⟩⟩
  · rcases exists_outcome sha256 toVec overflowChecks inclusionSample draws hm with
      ⟨report', h⟩ | ⟨fault, h⟩
    · obtain rfl := Except.ok.inj (hok.symm.trans (h.study_eq hm originDraw))
      exact h
    · exact absurd (hok.symm.trans (h.study_eq hm originDraw)) Result.ok_ne_error
  · rcases exists_outcome sha256 toVec overflowChecks inclusionSample draws hm with
      ⟨report, h⟩ | ⟨fault', h⟩
    · exact absurd (hfails.symm.trans (h.study_eq hm originDraw)) Result.error_ne_ok
    · obtain rfl := Except.error.inj (hfails.symm.trans (h.study_eq hm originDraw))
      exact h

/-- Nine records with scarce draws, in a build that checks overflows. -/
theorem study_outcome_nine :
    study Sha256.digest true AccountingRecord.canonicalBytes 9 256 scarceDraws 0 =
      .error .panicked :=
  ((study_outcome Sha256.digest AccountingRecord.canonicalBytes true 9 256 scarceDraws 0
    (by decide)).2 .panicked).2 (.overflow rfl (by decide))

end Vaa.Simstudy
