import Vaa.BoundedSum
import Vaa.Rust
import Mathlib.Tactic.NormNum

/-!
# The accounting equations

The crate `vaa-accounting`: five equations over `u64` records in minor units, each
checked as a tally, a sum on either side computed by `checked_add`.

`equations_decided`: every check decides its tally over the natural numbers, reporting
an overflow exactly when one of the sides does not fit 64 bits; so the equation
holds over the integers when the check passes, and the order of the entries of a
side does not matter.
-/

namespace Vaa.Accounting

open BoundedSum

/-- `AccountingError`. -/
inductive AccountingError
  | equationDoesNotHold
  | overflow
  deriving DecidableEq, Repr

/-- The text of an error. -/
def AccountingError.text : AccountingError → String
  | equationDoesNotHold => "accounting equation did not hold under the disclosed records"
  | overflow => "accounting equation overflowed u64 during recomputation"

/-! ## 64-bit sums -/

/-- `u64::MAX`. -/
def u64Max : ℕ := 2 ^ 64 - 1

/-- `u64::checked_add`. -/
def checkedAdd (a b : UInt64) : Option UInt64 :=
  if a.toNat + b.toNat ≤ u64Max then some (a + b) else none

/-- `a.checked_add(b).ok_or(AccountingError::Overflow)`. -/
def addOrOverflow (a b : UInt64) : Result AccountingError UInt64 :=
  Result.okOr (checkedAdd a b) .overflow

/-- The loop of the sums: `for x in xs { acc = acc.checked_add(*x).ok_or(Overflow)?; }`. -/
def sumOrOverflow (acc : UInt64) (xs : List UInt64) : Result AccountingError UInt64 :=
  xs.foldlM addOrOverflow acc

/-- The comparison every check ends with, once the two sides are computed. -/
def tally (lhs rhs : Result AccountingError UInt64) : Result AccountingError Unit := do
  let lhs ← lhs
  let rhs ← rhs
  if lhs = rhs then
    .ok ()
  else
    .error (.err .equationDoesNotHold)

/-! ## The equations -/

/-- `InvoiceTotal`: `Gross = Net + Tax − Discount`. -/
structure InvoiceTotal where
  net : UInt64
  tax : UInt64
  discount : UInt64
  gross : UInt64
  deriving DecidableEq, Repr

/-- `InvoiceTotal::verify`. -/
def InvoiceTotal.verify (t : InvoiceTotal) : Result AccountingError Unit :=
  tally (addOrOverflow t.net t.tax) (addOrOverflow t.gross t.discount)

/-- `ArRollForward`: `AR_close = AR_open + Invoices − Receipts − CreditNotes − WriteOffs`. -/
structure ArRollForward where
  arOpen : UInt64
  invoices : UInt64
  arClose : UInt64
  receipts : UInt64
  creditNotes : UInt64
  writeOffs : UInt64
  deriving DecidableEq, Repr

/-- `ArRollForward::verify`. -/
def ArRollForward.verify (t : ArRollForward) : Result AccountingError Unit :=
  tally (addOrOverflow t.arOpen t.invoices) do
    let rhs ← addOrOverflow t.arClose t.receipts
    let rhs ← addOrOverflow rhs t.creditNotes
    addOrOverflow rhs t.writeOffs

/-- `DebitsCredits`: `Σ Debits = Σ Credits`. -/
structure DebitsCredits where
  debits : List UInt64
  credits : List UInt64
  deriving DecidableEq, Repr

/-- `DebitsCredits::verify`. -/
def DebitsCredits.verify (t : DebitsCredits) : Result AccountingError Unit :=
  tally (sumOrOverflow 0 t.debits) (sumOrOverflow 0 t.credits)

/-- `BankReconciliation`: `BookCash + Σ ReconcilingItems = BankBalance`. -/
structure BankReconciliation where
  bookCash : UInt64
  reconcilingItems : List UInt64
  bankBalance : UInt64
  deriving DecidableEq, Repr

/-- `BankReconciliation::verify`. -/
def BankReconciliation.verify (t : BankReconciliation) : Result AccountingError Unit :=
  tally (sumOrOverflow t.bookCash t.reconcilingItems) (.ok t.bankBalance)

/-- `VatPayable`: `VAT_payable = OutputVAT − InputVAT`. -/
structure VatPayable where
  outputVat : UInt64
  inputVat : UInt64
  vatPayable : UInt64
  deriving DecidableEq, Repr

/-- `VatPayable::verify`. -/
def VatPayable.verify (t : VatPayable) : Result AccountingError Unit :=
  tally (.ok t.outputVat) (addOrOverflow t.vatPayable t.inputVat)

/-! ## Exact sides -/

/-- The sum of the entries of a slice. -/
def total (xs : List UInt64) : ℕ := (xs.map UInt64.toNat).sum

/-- A side computes the number `n`, or overflows when it does not fit 64 bits. -/
def Computes (side : Result AccountingError UInt64) (n : ℕ) : Prop :=
  side = if n ≤ u64Max then .ok (UInt64.ofNat n) else .error (.err .overflow)

theorem toNat_le_u64Max (a : UInt64) : a.toNat ≤ u64Max := Nat.le_sub_one_of_lt a.toNat_lt

theorem computes_ok (a : UInt64) : Computes (.ok a) a.toNat := by
  rw [Computes, if_pos (toNat_le_u64Max a), UInt64.ofNat_toNat]

/-- A checked addition is one of the numbers, bounded. -/
theorem checkedAdd_eq (a b : UInt64) :
    checkedAdd a b = (add u64Max a.toNat b.toNat).map UInt64.ofNat := by
  rw [checkedAdd, add]
  split
  · rw [Option.map_some, UInt64.ofNat_add, UInt64.ofNat_toNat, UInt64.ofNat_toNat]
  · rfl

/-- The loop of the sums is the running total of the numbers, bounded. -/
theorem sumOrOverflow_eq (acc : UInt64) (xs : List UInt64) : sumOrOverflow acc xs =
    Result.okOr ((addAll u64Max acc.toNat (xs.map UInt64.toNat)).map UInt64.ofNat) .overflow := by
  induction xs generalizing acc with
  | nil =>
    rw [sumOrOverflow, List.foldlM_nil, List.map_nil, addAll, List.foldlM_nil]
    exact congrArg Except.ok UInt64.ofNat_toNat.symm
  | cons x xs ih =>
    rw [sumOrOverflow, List.foldlM_cons, addOrOverflow, checkedAdd_eq, List.map_cons, addAll,
      List.foldlM_cons, add]
    by_cases hx : acc.toNat + x.toNat ≤ u64Max
    · -- The sum fits 64 bits, so the accumulator holds the exact one.
      have hsum : (UInt64.ofNat (acc.toNat + x.toNat)).toNat = acc.toNat + x.toNat :=
        UInt64.toNat_ofNat_of_lt' (Nat.lt_of_le_sub_one (by decide) hx)
      have hrest := ih (UInt64.ofNat (acc.toNat + x.toNat))
      rw [hsum] at hrest
      rw [if_pos hx]
      exact hrest
    · rw [if_neg hx]
      rfl

/-- The order of the entries does not matter to a sum, nor to whether it overflows. -/
theorem sumOrOverflow_perm (acc : UInt64) {xs ys : List UInt64} (hperm : xs.Perm ys) :
    sumOrOverflow acc xs = sumOrOverflow acc ys := by
  rw [sumOrOverflow_eq, sumOrOverflow_eq, addAll_perm (toNat_le_u64Max acc) (hperm.map _)]

/-- A sum computes the exact total, whatever overflows on the way. -/
theorem computes_sum (acc : UInt64) (xs : List UInt64) :
    Computes (sumOrOverflow acc xs) (acc.toNat + total xs) := by
  rw [Computes, sumOrOverflow_eq, addAll_eq (toNat_le_u64Max acc), total]
  split <;> rfl

theorem computes_add (a b : UInt64) : Computes (addOrOverflow a b) (a.toNat + b.toNat) := by
  have hsum := computes_sum a [b]
  simpa [sumOrOverflow, total] using hsum

/-! ## Decisions -/

/-- The outcome of a check decides its tally from the exact sides: an overflow of
    either comes before an inequality. -/
structure Decides (outcome : Result AccountingError Unit) (lhs rhs : ℕ) : Prop where
  overflow_iff : outcome = .error (.err .overflow) ↔ u64Max < lhs ∨ u64Max < rhs
  ok_iff : outcome = .ok () ↔ lhs ≤ u64Max ∧ rhs ≤ u64Max ∧ lhs = rhs
  differ_iff : outcome = .error (.err .equationDoesNotHold) ↔
    lhs ≤ u64Max ∧ rhs ≤ u64Max ∧ lhs ≠ rhs

/-- Two numbers of 64 bits are compared as they are. -/
theorem ofNat_eq_ofNat_iff {l r : ℕ} (hl : l ≤ u64Max) (hr : r ≤ u64Max) :
    UInt64.ofNat l = UInt64.ofNat r ↔ l = r := by
  refine ⟨fun heq => ?_, congrArg UInt64.ofNat⟩
  have hnat := congrArg UInt64.toNat heq
  rwa [UInt64.toNat_ofNat_of_lt' (Nat.lt_of_le_sub_one (by decide) hl),
    UInt64.toNat_ofNat_of_lt' (Nat.lt_of_le_sub_one (by decide) hr)] at hnat

section Tally

variable {lhs rhs : Result AccountingError UInt64} {l r : ℕ}

/-- A check compares the numbers its sides compute, if they fit 64 bits. -/
theorem Computes.tally_eq (hl : Computes lhs l) (hr : Computes rhs r) : tally lhs rhs =
    if l ≤ u64Max ∧ r ≤ u64Max then
      if l = r then .ok () else .error (.err .equationDoesNotHold)
    else .error (.err .overflow) := by
  rw [hl, hr, tally]
  by_cases hfit : l ≤ u64Max
  · by_cases hfit' : r ≤ u64Max
    · rw [if_pos hfit, if_pos hfit', if_pos ⟨hfit, hfit'⟩]
      exact if_congr (ofNat_eq_ofNat_iff hfit hfit') rfl rfl
    · rw [if_pos hfit, if_neg hfit', if_neg (not_and_of_not_right _ hfit')]
      rfl
  · rw [if_neg hfit, if_neg (not_and_of_not_left _ hfit)]
    rfl

/-- A check decides the tally of the numbers its sides compute. -/
theorem Computes.decides (hl : Computes lhs l) (hr : Computes rhs r) :
    Decides (tally lhs rhs) l r := by
  rw [hl.tally_eq hr]
  constructor
  · rw [← not_le, ← not_le, ← not_and_or]
    split_ifs with hfit <;> simp [hfit]
  · rw [← and_assoc]
    split_ifs with hfit heq <;> simp [*]
  · rw [← and_assoc]
    split_ifs with hfit heq <;> simp [*]

end Tally

theorem InvoiceTotal.decides (t : InvoiceTotal) :
    Decides t.verify (t.net.toNat + t.tax.toNat) (t.gross.toNat + t.discount.toNat) :=
  (computes_add t.net t.tax).decides (computes_add t.gross t.discount)

theorem ArRollForward.decides (t : ArRollForward) :
    Decides t.verify (t.arOpen.toNat + t.invoices.toNat)
      (t.arClose.toNat + t.receipts.toNat + t.creditNotes.toNat + t.writeOffs.toNat) := by
  refine (computes_add t.arOpen t.invoices).decides ?_
  have hsum := computes_sum t.arClose [t.receipts, t.creditNotes, t.writeOffs]
  simpa [sumOrOverflow, total, Nat.add_assoc] using hsum

theorem DebitsCredits.decides (t : DebitsCredits) :
    Decides t.verify (total t.debits) (total t.credits) := by
  have hdebits := computes_sum 0 t.debits
  have hcredits := computes_sum 0 t.credits
  rw [UInt64.toNat_zero, Nat.zero_add] at hdebits hcredits
  exact hdebits.decides hcredits

theorem BankReconciliation.decides (t : BankReconciliation) :
    Decides t.verify (t.bookCash.toNat + total t.reconcilingItems) t.bankBalance.toNat :=
  (computes_sum t.bookCash t.reconcilingItems).decides (computes_ok t.bankBalance)

theorem VatPayable.decides (t : VatPayable) :
    Decides t.verify t.outputVat.toNat (t.vatPayable.toNat + t.inputVat.toNat) :=
  (computes_ok t.outputVat).decides (computes_add t.vatPayable t.inputVat)

/-! ## The five equations -/

/-- Every check decides its tally over the natural numbers, for slices of any length;
    when it passes, the equation holds over the integers, and reordering a slice
    changes nothing. -/
theorem equations_decided :
    (∀ t : InvoiceTotal,
      Decides t.verify (t.net.toNat + t.tax.toNat) (t.gross.toNat + t.discount.toNat) ∧
      (t.verify = .ok () → (t.gross.toNat : ℤ) = t.net.toNat + t.tax.toNat - t.discount.toNat)) ∧
    (∀ t : ArRollForward,
      Decides t.verify (t.arOpen.toNat + t.invoices.toNat)
        (t.arClose.toNat + t.receipts.toNat + t.creditNotes.toNat + t.writeOffs.toNat) ∧
      (t.verify = .ok () → (t.arClose.toNat : ℤ) = t.arOpen.toNat + t.invoices.toNat -
        t.receipts.toNat - t.creditNotes.toNat - t.writeOffs.toNat)) ∧
    (∀ t : DebitsCredits,
      Decides t.verify (total t.debits) (total t.credits) ∧
      (t.verify = .ok () → (total t.debits : ℤ) = total t.credits) ∧
      ∀ debits credits, t.debits.Perm debits → t.credits.Perm credits →
        DebitsCredits.verify { debits := debits, credits := credits } = t.verify) ∧
    (∀ t : BankReconciliation,
      Decides t.verify (t.bookCash.toNat + total t.reconcilingItems) t.bankBalance.toNat ∧
      (t.verify = .ok () →
        (t.bookCash.toNat + total t.reconcilingItems : ℤ) = t.bankBalance.toNat) ∧
      ∀ items, t.reconcilingItems.Perm items →
        BankReconciliation.verify { t with reconcilingItems := items } = t.verify) ∧
    (∀ t : VatPayable,
      Decides t.verify t.outputVat.toNat (t.vatPayable.toNat + t.inputVat.toNat) ∧
      (t.verify = .ok () → (t.vatPayable.toNat : ℤ) = t.outputVat.toNat - t.inputVat.toNat)) := by
  refine ⟨fun t => ⟨t.decides, ?_⟩, fun t => ⟨t.decides, ?_⟩, fun t => ⟨t.decides, ?_, ?_⟩,
    fun t => ⟨t.decides, ?_, ?_⟩, fun t => ⟨t.decides, ?_⟩⟩
  · intro hok
    obtain ⟨-, -, heq⟩ := t.decides.ok_iff.1 hok
    omega
  · intro hok
    obtain ⟨-, -, heq⟩ := t.decides.ok_iff.1 hok
    omega
  · intro hok
    obtain ⟨-, -, heq⟩ := t.decides.ok_iff.1 hok
    exact congrArg Nat.cast heq
  · intro debits credits hdebits hcredits
    rw [DebitsCredits.verify, DebitsCredits.verify, sumOrOverflow_perm 0 hdebits,
      sumOrOverflow_perm 0 hcredits]
  · intro hok
    obtain ⟨-, -, heq⟩ := t.decides.ok_iff.1 hok
    exact_mod_cast heq
  · intro items hitems
    rw [BankReconciliation.verify, BankReconciliation.verify,
      sumOrOverflow_perm t.bookCash hitems]
  · intro hok
    obtain ⟨-, -, heq⟩ := t.decides.ok_iff.1 hok
    omega

theorem equations_decided_reordered :
    DebitsCredits.verify { debits := [3000, 500, 1500], credits := [2200, 2000, 800] } =
      DebitsCredits.verify { debits := [500, 1500, 3000], credits := [2000, 800, 2200] } :=
  (equations_decided.2.2.1 { debits := [500, 1500, 3000], credits := [2000, 800, 2200] }).2.2 _ _
    (by decide) (by decide)

end Vaa.Accounting
