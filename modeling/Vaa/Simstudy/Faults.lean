import Vaa.Simstudy.RollForward

/-!
# Faults in a population

A fault replaces some records of a population by others. Two populations accepted
against one summary have the same totals modulo `2 ^ 64` (`modEq_of_holds`), so an
accepted fault replaces records by others of the same totals; those of a single record
are less than `2 ^ 64`, and tell its value and, unless that is zero, its kind.

The study injects three faults of this sort at the first record (`tallyFaults`), and
counts them as detected (`tallyFaults_detected`). A falsehood that is already in the
records and their summary is not a fault of this sort (`origin_falsehood_undetected`).
-/

namespace Vaa.Simstudy

open List

/-! ## Replaced records -/

theorem recordsTotal_perm (kind : RecordKind) {records records' : List AccountingRecord}
    (hperm : records ~ records') : recordsTotal kind records = recordsTotal kind records' := by
  induction hperm with
  | nil => rfl
  | cons r _ ih => rw [recordsTotal_cons, recordsTotal_cons, ih]
  | swap r r' records => simp only [recordsTotal_cons, Nat.add_left_comm]
  | trans _ _ ih ih' => rw [ih, ih']

theorem recordsTotal_singleton_lt (kind : RecordKind) (r : AccountingRecord) :
    recordsTotal kind [r] < 2 ^ 64 := by
  rw [recordsTotal_singleton]
  split
  · exact r.value.toNat_lt
  · exact Nat.two_pow_pos 64

/-- Two populations accepted against one summary have the same totals. -/
theorem modEq_of_holds {records records' : List AccountingRecord} {summary : PopulationSummary}
    (hholds : rollForwardHolds records summary = true)
    (hholds' : rollForwardHolds records' summary = true) (kind : RecordKind) :
    recordsTotal kind records ≡ recordsTotal kind records' [MOD 2 ^ 64] := by
  have htotal := ((rollForwardHolds_iff _ _).1 hholds).1 kind
  have htotal' := ((rollForwardHolds_iff _ _).1 hholds').1 kind
  exact htotal.trans htotal'.symm

/-- An accepted fault replaces records by others of the same totals. -/
theorem modEq_of_replaced {records records' rest : List AccountingRecord}
    (removed added : List AccountingRecord) {summary : PopulationSummary}
    (hholds : rollForwardHolds records summary = true)
    (hholds' : rollForwardHolds records' summary = true)
    (hperm : records ~ removed ++ rest) (hperm' : records' ~ added ++ rest) (kind : RecordKind) :
    recordsTotal kind removed ≡ recordsTotal kind added [MOD 2 ^ 64] := by
  have hmod := modEq_of_holds hholds hholds' kind
  rw [recordsTotal_perm kind hperm, recordsTotal_perm kind hperm', recordsTotal_append,
    recordsTotal_append] at hmod
  exact Nat.ModEq.add_right_cancel' _ hmod

section Single

variable {records records' rest : List AccountingRecord} {r r' : AccountingRecord}
  {summary : PopulationSummary}

/-- A fault that replaces one record by another is detected, unless it keeps the value,
    and the kind or a value of zero. -/
theorem replaced_detected (hholds : rollForwardHolds records summary = true)
    (hperm : records ~ r :: rest) (hperm' : records' ~ r' :: rest) (kind : RecordKind)
    (hne : recordsTotal kind [r] ≠ recordsTotal kind [r']) :
    rollForwardHolds records' summary = false := by
  by_contra hholds'
  rw [Bool.not_eq_false] at hholds'
  have hmod := modEq_of_replaced [r] [r'] hholds hholds' hperm hperm' kind
  exact hne (hmod.eq_of_lt_of_lt (recordsTotal_singleton_lt _ r) (recordsTotal_singleton_lt _ r'))

theorem recordsTotal_kind_ne_zero (hvalue : r.value ≠ 0) : recordsTotal r.kind [r] ≠ 0 := by
  rw [recordsTotal_singleton, if_pos rfl]
  intro hzero
  exact hvalue (UInt64.toNat_inj.1 hzero)

/-- A fault that removes a record is detected, unless its value is zero. -/
theorem removed_detected (hholds : rollForwardHolds records summary = true)
    (hperm : records ~ r :: records') (hvalue : r.value ≠ 0) :
    rollForwardHolds records' summary = false := by
  by_contra hholds'
  rw [Bool.not_eq_false] at hholds'
  have hmod := modEq_of_replaced [r] [] hholds hholds' hperm
    (Perm.refl _) r.kind
  exact recordsTotal_kind_ne_zero hvalue
    (hmod.eq_of_lt_of_lt (recordsTotal_singleton_lt _ r) (Nat.two_pow_pos 64))

/-- A fault that adds a record is detected, unless its value is zero. -/
theorem added_detected (hholds : rollForwardHolds records summary = true)
    (hperm : records' ~ r :: records) (hvalue : r.value ≠ 0) :
    rollForwardHolds records' summary = false := by
  by_contra hholds'
  rw [Bool.not_eq_false] at hholds'
  -- Seen from the changed population, the fault removes the record again.
  rw [removed_detected hholds' hperm hvalue] at hholds
  exact absurd hholds Bool.false_ne_true

/-- A fault that changes the value of a record is detected. -/
theorem value_detected (hholds : rollForwardHolds records summary = true)
    (hperm : records ~ r :: rest) {value : UInt64} (hvalue : value ≠ r.value)
    (hperm' : records' ~ { r with value := value } :: rest) :
    rollForwardHolds records' summary = false := by
  refine replaced_detected hholds hperm hperm' r.kind ?_
  rw [recordsTotal_singleton, recordsTotal_singleton, if_pos rfl, if_pos rfl]
  intro heq
  exact hvalue (UInt64.toNat_inj.1 heq.symm)

/-- A fault that changes the kind of a record is detected, unless its value is zero. -/
theorem kind_detected (hholds : rollForwardHolds records summary = true)
    (hperm : records ~ r :: rest) (hvalue : r.value ≠ 0) {kind : RecordKind}
    (hkind : kind ≠ r.kind) (hperm' : records' ~ { r with kind := kind } :: rest) :
    rollForwardHolds records' summary = false := by
  refine replaced_detected hholds hperm hperm' r.kind ?_
  -- The kind of the record loses its value.
  rw [recordsTotal_singleton _ { r with kind := kind }, if_neg hkind]
  exact recordsTotal_kind_ne_zero hvalue

end Single

/-! ## The faults of the study -/

/-- `FaultClass`. -/
structure FaultClass where
  name : String
  injected : ℕ
  detected : ℕ
  missed : ℕ
  falsePositivesClean : ℕ
  deriving DecidableEq, Repr

/-- The entry of `run_fault_injection` for a copy of the records that the tally checks. -/
def tallyFault (name : String) (copy : List AccountingRecord) (summary : PopulationSummary)
    (cleanOk : Bool) : FaultClass :=
  let detected := !rollForwardHolds copy summary
  { name := name
    injected := 1
    detected := detected.toNat
    missed := (!detected).toNat
    falsePositivesClean := (!cleanOk).toNat }

/-- The first three blocks of `run_fault_injection`. The first of them indexes the
    records before the others ask whether there is any. -/
def tallyFaults (records : List AccountingRecord) (summary : PopulationSummary) :
    Result AnyhowError (List FaultClass) := do
  let cleanOk := rollForwardHolds records summary
  let first ← Result.index records 0
  let altered := records.set 0 { first with value := first.value + 1 }
  let omitted := records.eraseIdx 0
  let duplicated := records ++ [first]
  return [tallyFault "altered_record_value" altered summary cleanOk,
    tallyFault "omitted_record" omitted summary cleanOk,
    tallyFault "duplicated_record" duplicated summary cleanOk]

/-- A population that is accepted and starts with a record of some value passes the
    study: each fault is detected, and none is seen in the population itself. -/
theorem tallyFaults_detected (first : AccountingRecord) (records : List AccountingRecord)
    (summary : PopulationSummary) (hholds : rollForwardHolds (first :: records) summary = true)
    (hvalue : first.value ≠ 0) : tallyFaults (first :: records) summary =
      .ok [⟨"altered_record_value", 1, 1, 0, 0⟩, ⟨"omitted_record", 1, 1, 0, 0⟩,
        ⟨"duplicated_record", 1, 1, 0, 0⟩] := by
  have hperm := Perm.refl (first :: records)
  have haltered : rollForwardHolds ({ first with value := first.value + 1 } :: records) summary =
      false := value_detected hholds hperm (by simp) (Perm.refl _)
  have homitted := removed_detected hholds hperm hvalue
  have hduplicated := added_detected hholds (perm_append_singleton first (first :: records)) hvalue
  change Except.ok [tallyFault _ ({ first with value := first.value + 1 } :: records) summary _,
    tallyFault _ records summary _, tallyFault _ (first :: records ++ [first]) summary _] = _
  simp only [tallyFault, haltered, homitted, hduplicated, hholds, Bool.not_false, Bool.not_true,
    Bool.toNat_true, Bool.toNat_false]

/-! ## Falsehood at the origin -/

/-- The invoice and the receipt of `origin_falsehood_check`. -/
def falseLegs (claimedInvoice : UInt64) : List AccountingRecord :=
  [{ id := 0
     kind := .invoice
     value := claimedInvoice
     counterparty := "Alpha Counterparty"
     date := "2026-04-01" },
   { id := 1
     kind := .receipt
     value := claimedInvoice
     counterparty := "Alpha Counterparty"
     date := "2026-04-15" }]

/-- The summary of `origin_falsehood_check`. -/
def falseSummary (claimedInvoice : UInt64) : PopulationSummary where
  mRecords := 2
  invoicesCount := 1
  receiptsCount := 1
  creditNotesCount := 0
  writeOffsCount := 0
  arOpen := 10000
  invoicesTotal := claimedInvoice
  receiptsTotal := claimedInvoice
  creditNotesTotal := 0
  writeOffsTotal := 0
  arClose := 10000

/-- `origin_falsehood_check`, with `rng.gen::<u64>()` drawing `draw`: the numbers of
    falsehoods injected and detected. -/
def originFalsehoodCheck (draw : UInt64) : ℕ × ℕ :=
  let truthInvoice := 100000 + draw % 100000
  let claimedInvoice := truthInvoice + 50000
  let holds := rollForwardHolds (falseLegs claimedInvoice) (falseSummary claimedInvoice)
  (1, (!holds).toNat)

/-- An invoice overstated together with its receipt is accepted. -/
theorem falseLegs_hold {claimedInvoice : UInt64}
    (hfit : 10000 + claimedInvoice.toNat ≤ Accounting.u64Max) :
    rollForwardHolds (falseLegs claimedInvoice) (falseSummary claimedInvoice) = true := by
  rw [rollForwardHolds_iff]
  refine ⟨fun kind => ?_, hfit, hfit, rfl⟩
  have hlt := claimedInvoice.toNat_lt
  cases kind with
  | invoice => exact Nat.mod_eq_of_lt hlt
  | receipt => exact Nat.mod_eq_of_lt hlt
  | creditNote => rfl
  | writeOff => rfl

/-- No falsehood at the origin is detected, whatever is drawn. -/
theorem origin_falsehood_undetected (draw : UInt64) : originFalsehoodCheck draw = (1, 0) := by
  -- Both additions stay far below the range of the words.
  have hclaimed : (100000 + draw % 100000 + 50000).toNat = 150000 + draw.toNat % 100000 := by
    rw [UInt64.toNat_add, UInt64.toNat_add, UInt64.toNat_mod]
    simp only [UInt64.reduceToNat]
    omega
  have hlt : draw.toNat % 100000 < 100000 := Nat.mod_lt _ (by decide)
  have hfit : 10000 + (100000 + draw % 100000 + 50000).toNat ≤ Accounting.u64Max := by
    rw [hclaimed, Accounting.u64Max]
    omega
  rw [originFalsehoodCheck, falseLegs_hold hfit]
  rfl

/-! ## Single faults -/

/-- Every fault in a single record of an accepted population is detected. -/
theorem single_fault_detected (records : List AccountingRecord) (summary : PopulationSummary)
    (hholds : rollForwardHolds records summary = true) (i : ℕ) (hi : i < records.length) :
    (∀ value ≠ records[i].value,
      rollForwardHolds (records.set i { records[i] with value := value }) summary = false) ∧
    (records[i].value ≠ 0 →
      rollForwardHolds (records.eraseIdx i) summary = false ∧
      (∀ j ≤ records.length,
        rollForwardHolds (records.insertIdx j records[i]) summary = false) ∧
      ∀ kind ≠ records[i].kind,
        rollForwardHolds (records.set i { records[i] with kind := kind }) summary = false) := by
  have hperm : records ~ records[i] :: records.eraseIdx i := (getElem_cons_eraseIdx_perm hi).symm
  constructor
  · intro value hvalue
    exact value_detected hholds hperm hvalue (set_perm_cons_eraseIdx hi _)
  · intro hvalue
    refine ⟨removed_detected hholds hperm hvalue, ?_, ?_⟩
    · intro j hj
      exact added_detected hholds (perm_insertIdx _ _ hj) hvalue
    · intro kind hkind
      exact kind_detected hholds hperm hvalue hkind (set_perm_cons_eraseIdx hi _)

theorem omitted_receipt_detected :
    rollForwardHolds ((falseLegs 150000).eraseIdx 1) (falseSummary 150000) = false :=
  ((single_fault_detected (falseLegs 150000) (falseSummary 150000) (by decide) 1
    (by decide)).2 (by decide)).1

end Vaa.Simstudy
