import Vaa.Accounting
import Mathlib.Data.Nat.ModEq

/-!
# The roll-forward of a population

The crate `vaa-simstudy` recomputes the receivables roll-forward of a population of
records (`rollForwardHolds`): the values of the records are added up kind by kind, with
`wrapping_add`, the totals compared with those of a summary, and the summary checked
as an `ArRollForward`.

The totals of the records are thus known modulo `2 ^ 64` only, while the equation is
checked exactly: the recomputation decides the roll-forward over the natural numbers,
save for populations whose values wrap around to totals that balance
(`roll_forward_iff`).
-/

namespace Vaa.Simstudy

open Accounting

/-- `RecordKind`. -/
inductive RecordKind
  | invoice
  | receipt
  | creditNote
  | writeOff
  deriving DecidableEq, Repr

/-- `AccountingRecord`. -/
structure AccountingRecord where
  id : UInt32
  kind : RecordKind
  value : UInt64
  counterparty : String
  date : String
  deriving DecidableEq, Repr

/-- `PopulationSummary`. -/
structure PopulationSummary where
  mRecords : ℕ
  invoicesCount : ℕ
  receiptsCount : ℕ
  creditNotesCount : ℕ
  writeOffsCount : ℕ
  arOpen : UInt64
  invoicesTotal : UInt64
  receiptsTotal : UInt64
  creditNotesTotal : UInt64
  writeOffsTotal : UInt64
  arClose : UInt64
  deriving DecidableEq, Repr

/-- The entry of `totals` for a kind. -/
def RecordKind.slot : RecordKind → Fin 4
  | invoice => 0
  | receipt => 1
  | creditNote => 2
  | writeOff => 3

/-- One turn of the loop of `roll_forward_holds`. -/
def addRecord (totals : Vector UInt64 4) (r : AccountingRecord) : Vector UInt64 4 :=
  let k := r.kind.slot
  totals.set k (totals[k] + r.value)

/-- The equation the totals of a summary are checked by. -/
def PopulationSummary.rollForward (summary : PopulationSummary) : ArRollForward where
  arOpen := summary.arOpen
  invoices := summary.invoicesTotal
  arClose := summary.arClose
  receipts := summary.receiptsTotal
  creditNotes := summary.creditNotesTotal
  writeOffs := summary.writeOffsTotal

/-- `roll_forward_holds`. -/
def rollForwardHolds (records : List AccountingRecord) (summary : PopulationSummary) : Bool :=
  let totals := records.foldl addRecord (Vector.replicate 4 0)
  if totals[0] ≠ summary.invoicesTotal ∨ totals[1] ≠ summary.receiptsTotal ∨
      totals[2] ≠ summary.creditNotesTotal ∨ totals[3] ≠ summary.writeOffsTotal then
    false
  else
    summary.rollForward.verify.isOk

/-! ## Totals by kind -/

/-- The sum of the values of the records of a kind. -/
def recordsTotal (kind : RecordKind) (records : List AccountingRecord) : ℕ :=
  total ((records.filter fun r => r.kind = kind).map fun r => r.value)

/-- The total of the summary for a kind. -/
def PopulationSummary.total (summary : PopulationSummary) : RecordKind → UInt64
  | .invoice => summary.invoicesTotal
  | .receipt => summary.receiptsTotal
  | .creditNote => summary.creditNotesTotal
  | .writeOff => summary.writeOffsTotal

theorem recordsTotal_cons (kind : RecordKind) (r : AccountingRecord)
    (records : List AccountingRecord) : recordsTotal kind (r :: records) =
      (if r.kind = kind then r.value.toNat else 0) + recordsTotal kind records := by
  rw [recordsTotal, List.filter_cons]
  by_cases hkind : r.kind = kind
  · rw [if_pos (by simpa using hkind), if_pos hkind]
    rfl
  · rw [if_neg (by simpa using hkind), if_neg hkind, Nat.zero_add]
    rfl

theorem recordsTotal_append (kind : RecordKind) (records rest : List AccountingRecord) :
    recordsTotal kind (records ++ rest) = recordsTotal kind records + recordsTotal kind rest := by
  induction records with
  | nil => exact (Nat.zero_add _).symm
  | cons r records ih =>
    rw [List.cons_append, recordsTotal_cons, recordsTotal_cons, ih, Nat.add_assoc]

theorem recordsTotal_singleton (kind : RecordKind) (r : AccountingRecord) :
    recordsTotal kind [r] = if r.kind = kind then r.value.toNat else 0 := by
  rw [recordsTotal_cons]
  rfl

theorem slot_injective : Function.Injective RecordKind.slot := by
  intro kind kind' heq
  cases kind <;> cases kind' <;> first | rfl | exact absurd heq (by decide)

theorem slot_ne {kind kind' : RecordKind} (hne : kind ≠ kind') :
    (kind.slot : ℕ) ≠ kind'.slot := by
  intro heq
  exact hne (slot_injective (Fin.ext heq))

/-- A record adds its value to the total of its kind, modulo `2 ^ 64`. -/
theorem toNat_addRecord (totals : Vector UInt64 4) (r : AccountingRecord) (kind : RecordKind) :
    (addRecord totals r)[kind.slot].toNat =
      (totals[kind.slot].toNat + if r.kind = kind then r.value.toNat else 0) % 2 ^ 64 := by
  simp only [addRecord, Fin.getElem_fin]
  by_cases hkind : r.kind = kind
  · subst hkind
    rw [Vector.getElem_set_self, UInt64.toNat_add, if_pos rfl]
  · rw [Vector.getElem_set_ne _ _ (slot_ne hkind), if_neg hkind, Nat.add_zero]
    exact (Nat.mod_eq_of_lt (UInt64.toNat_lt _)).symm

/-- The loop adds up the values of each kind, modulo `2 ^ 64`. -/
theorem toNat_foldl_addRecord (totals : Vector UInt64 4) (records : List AccountingRecord)
    (kind : RecordKind) : (records.foldl addRecord totals)[kind.slot].toNat =
      (totals[kind.slot].toNat + recordsTotal kind records) % 2 ^ 64 := by
  induction records generalizing totals with
  | nil => exact (Nat.mod_eq_of_lt totals[kind.slot].toNat_lt).symm
  | cons r records ih =>
    rw [List.foldl_cons, ih, toNat_addRecord, recordsTotal_cons, Nat.mod_add_mod, Nat.add_assoc]

/-- The tally of the summary balances, over the natural numbers and within 64 bits. -/
structure PopulationSummary.Balances (summary : PopulationSummary) : Prop where
  open_le : summary.arOpen.toNat + summary.invoicesTotal.toNat ≤ u64Max
  close_le : summary.arClose.toNat + summary.receiptsTotal.toNat +
    summary.creditNotesTotal.toNat + summary.writeOffsTotal.toNat ≤ u64Max
  balance : summary.arOpen.toNat + summary.invoicesTotal.toNat =
    summary.arClose.toNat + summary.receiptsTotal.toNat + summary.creditNotesTotal.toNat +
      summary.writeOffsTotal.toNat

/-- The equation of a summary is accepted exactly when its tally balances. -/
theorem isOk_rollForward_iff (summary : PopulationSummary) :
    summary.rollForward.verify.isOk = true ↔ summary.Balances := by
  have hok : summary.rollForward.verify.isOk = true ↔ summary.rollForward.verify = .ok () := by
    cases summary.rollForward.verify <;> simp [Except.isOk, Except.toBool]
  rw [hok, summary.rollForward.decides.ok_iff]
  exact ⟨fun ⟨hopen, hclose, heq⟩ => ⟨hopen, hclose, heq⟩,
    fun h => ⟨h.open_le, h.close_le, h.balance⟩⟩

/-- The recomputation compares the totals modulo `2 ^ 64`, and the tally exactly. -/
theorem rollForwardHolds_iff (records : List AccountingRecord) (summary : PopulationSummary) :
    rollForwardHolds records summary = true ↔
      (∀ kind, recordsTotal kind records % 2 ^ 64 = (summary.total kind).toNat) ∧
        summary.Balances := by
  have htotal (kind : RecordKind) :
      (records.foldl addRecord (Vector.replicate 4 0))[kind.slot] = summary.total kind ↔
        recordsTotal kind records % 2 ^ 64 = (summary.total kind).toNat := by
    rw [← UInt64.toNat_inj, toNat_foldl_addRecord, Fin.getElem_fin, Vector.getElem_replicate,
      UInt64.toNat_zero, Nat.zero_add]
  have hall : (∀ kind, recordsTotal kind records % 2 ^ 64 = (summary.total kind).toNat) ↔
      ∀ kind : RecordKind,
        (records.foldl addRecord (Vector.replicate 4 0))[kind.slot] = summary.total kind :=
    forall_congr' fun kind => (htotal kind).symm
  rw [hall, ← isOk_rollForward_iff, rollForwardHolds]
  split
  · next hne =>
    simp only [Bool.false_eq_true, false_iff, not_and]
    intro heq
    exact absurd hne (by
      simpa [not_or] using ⟨heq .invoice, heq .receipt, heq .creditNote, heq .writeOff⟩)
  · next heq =>
    simp only [not_or, not_not] at heq
    obtain ⟨hinvoice, hreceipt, hcreditNote, hwriteOff⟩ := heq
    refine (and_iff_right ?_).symm
    intro kind
    cases kind with
    | invoice => exact hinvoice
    | receipt => exact hreceipt
    | creditNote => exact hcreditNote
    | writeOff => exact hwriteOff

/-! ## Exactness -/

/-- The roll-forward holds over the natural numbers. -/
structure RollsForward (records : List AccountingRecord) (summary : PopulationSummary) : Prop where
  totals : ∀ kind, recordsTotal kind records = (summary.total kind).toNat
  balances : summary.Balances

/-- The values of some kind do not fit 64 bits, and all of them wrap around to a
    summary that balances. -/
structure WrapsAround (records : List AccountingRecord) (summary : PopulationSummary) : Prop where
  beyond : ∃ kind, u64Max < recordsTotal kind records
  totals : ∀ kind, recordsTotal kind records ≡ (summary.total kind).toNat [MOD 2 ^ 64]
  balances : summary.Balances

/-- The recomputation decides the roll-forward over the natural numbers exactly for
    the populations that do not wrap around. -/
theorem roll_forward_iff (records : List AccountingRecord) (summary : PopulationSummary) :
    (rollForwardHolds records summary = true ↔ RollsForward records summary) ↔
      ¬WrapsAround records summary := by
  have hmod (kind : RecordKind) :
      recordsTotal kind records ≡ (summary.total kind).toNat [MOD 2 ^ 64] ↔
        recordsTotal kind records % 2 ^ 64 = (summary.total kind).toNat := by
    rw [Nat.ModEq, Nat.mod_eq_of_lt (summary.total kind).toNat_lt]
  rw [rollForwardHolds_iff]
  constructor
  · rintro hexact ⟨⟨kind, hbeyond⟩, htotals, hbalances⟩
    -- The recomputation accepts, but the total of `kind` does not fit the summary.
    have hholds := hexact.1 ⟨fun kind => (hmod kind).1 (htotals kind), hbalances⟩
    rw [hholds.totals kind] at hbeyond
    exact absurd (toNat_le_u64Max _) (not_le.2 hbeyond)
  · intro hwraps
    constructor
    · rintro ⟨htotals, hbalances⟩
      refine ⟨fun kind => ?_, hbalances⟩
      by_contra hne
      refine hwraps ⟨⟨kind, ?_⟩, fun kind => (hmod kind).2 (htotals kind), hbalances⟩
      by_contra hfit
      rw [← htotals kind, Nat.mod_eq_of_lt (Nat.lt_of_le_sub_one (by decide) (not_lt.1 hfit))]
        at hne
      exact hne rfl
    · intro hholds
      refine ⟨fun kind => ?_, hholds.balances⟩
      rw [hholds.totals kind]
      exact Nat.mod_eq_of_lt (summary.total kind).toNat_lt

/-- An invoice of half the range of 64 bits. -/
def halfInvoice : AccountingRecord where
  id := 0
  kind := .invoice
  value := 0x8000000000000000
  counterparty := "Aurora Components"
  date := "2026-04-01"

/-- A summary without any movement, of two invoices. -/
def emptySummary : PopulationSummary where
  mRecords := 2
  invoicesCount := 2
  receiptsCount := 0
  creditNotesCount := 0
  writeOffsCount := 0
  arOpen := 0
  invoicesTotal := 0
  receiptsTotal := 0
  creditNotesTotal := 0
  writeOffsTotal := 0
  arClose := 0

/-- Two invoices of half the range add up to nothing. -/
theorem wrap_accepted : ¬∀ (records : List AccountingRecord) (summary : PopulationSummary),
    rollForwardHolds records summary = true ↔ RollsForward records summary := by
  intro hall
  have hholds : rollForwardHolds [halfInvoice, halfInvoice] emptySummary = true := by decide
  have htotal := ((hall _ _).1 hholds).totals .invoice
  exact absurd htotal (by decide)

end Vaa.Simstudy
