import Vaa.Simstudy.RollForward
import Mathlib.Algebra.BigOperators.Group.List.Basic

/-!
# The generated population

`generatePopulation` draws the values of `m` records, kind by kind, and an opening
balance, and subtracts its way to the closing balance of the summary. The draws of the
seeded generator are an argument (`Draws`): a value within its range for every call.

Half of the records are invoices, but nothing relates their values to those of the
others. The summary balances exactly when the receipts, credit notes and write-offs
drawn do not exceed the opening balance and the invoices (`generated_clean_iff`); below
zero, the subtraction panics when the build checks overflows, and wraps around to a
summary that does not balance when it does not.
-/

namespace Vaa.Simstudy

open Accounting RecordKind

/-! ## Draws -/

/-- The least value `draw_value` gives a record of a kind. -/
def RecordKind.low : RecordKind → UInt64
  | invoice => 400000
  | receipt => 350000
  | creditNote => 50000
  | writeOff => 50000

/-- The bound of the range `draw_value` draws from for a kind. -/
def RecordKind.spread : RecordKind → UInt64
  | invoice => 7600000
  | receipt => 7400000
  | creditNote => 500000
  | writeOff => 400000

/-- What the random number generator draws: `genRange kind i` at the call of `gen_range`
    for the `i`-th record of a kind, and `gen` at the call of `gen`. -/
structure Draws where
  genRange : RecordKind → ℕ → UInt64
  genRange_lt : ∀ kind i, genRange kind i < kind.spread
  gen : UInt64

/-- `draw_value`. -/
def Draws.drawValue (draws : Draws) (kind : RecordKind) (i : ℕ) : UInt64 :=
  kind.low + draws.genRange kind i

/-- `ar_open`. -/
def Draws.arOpen (draws : Draws) : UInt64 := 18200000 + draws.gen % 5000000

/-! ## The generator -/

/-- `kinds`: the numbers of records of each kind. The capacity reserved for the records
    before leaves only numbers whose multiples by 50 fit a word. -/
def kinds (m : ℕ) : List (RecordKind × ℕ) :=
  [(.invoice, m * 50 / 100), (.receipt, m * 35 / 100), (.creditNote, m * 10 / 100),
    (.writeOff, m - (m * 50 / 100 + m * 35 / 100 + m * 10 / 100))]

def counterparties : Vector String 12 :=
  #v["Aurora Components", "Bracken Foundry", "Caldera Logistics", "Drumlin Press",
    "Elder Surveyors", "Felspar Brewing", "Gimbal Estates", "Heron Imports", "Indigo Labs",
    "Jasper Tooling", "Kelp Studios", "Larch Trading"]

/-- `format!("2026-04-{day:02}")`. -/
def dateOf (day : UInt32) : String :=
  "2026-04-" ++ (if day < 10 then "0" else "") ++ toString day.toNat

/-- The record a turn of the loop pushes. -/
def recordOf (draws : Draws) (id : UInt32) (kind : RecordKind) (i : ℕ) : AccountingRecord where
  id := id
  kind := kind
  value := draws.drawValue kind i
  counterparty := counterparties[id.toNat % 12]
  date := dateOf (1 + id % 28)

/-- `counts[k_ix] += 1`. -/
def countRecord (counts : Vector ℕ 4) (kind : RecordKind) : Vector ℕ 4 :=
  counts.setIfInBounds kind.slot (counts.get kind.slot + 1)

/-- The variables of the loop. -/
structure Generator where
  records : List AccountingRecord
  totals : Vector UInt64 4
  counts : Vector ℕ 4
  id : UInt32

/-- One turn of the inner loop. The kinds are listed in the order of the totals. -/
def pushRecord (overflowChecks : Bool) (draws : Draws) (kind : RecordKind) (g : Generator)
    (i : ℕ) : Result AnyhowError Generator := do
  let record := recordOf draws g.id kind i
  let id ← machine overflowChecks (g.id.toNat + 1 < 2 ^ 32) (g.id + 1)
  return {
    records := g.records ++ [record]
    totals := addRecord g.totals record
    counts := countRecord g.counts kind
    id := id
  }

/-- The loops. -/
def pushAll (overflowChecks : Bool) (draws : Draws) (g : Generator)
    (kinds : List (RecordKind × ℕ)) : Result AnyhowError Generator :=
  kinds.foldlM (fun g (kind, kc) =>
    (List.range kc).foldlM (pushRecord overflowChecks draws kind) g) g

/-- `a + b`. -/
def addWords (overflowChecks : Bool) (a b : UInt64) : Result AnyhowError UInt64 :=
  machine overflowChecks (a.toNat + b.toNat ≤ u64Max) (a + b)

/-- `a - b`. -/
def subWords (overflowChecks : Bool) (a b : UInt64) : Result AnyhowError UInt64 :=
  machine overflowChecks (b.toNat ≤ a.toNat) (a - b)

/-- `ar_close`. -/
def closingBalance (overflowChecks : Bool) (arOpen : UInt64) (totals : Vector UInt64 4) :
    Result AnyhowError UInt64 := do
  let arClose ← addWords overflowChecks arOpen (totals.get invoice.slot)
  let arClose ← subWords overflowChecks arClose (totals.get receipt.slot)
  let arClose ← subWords overflowChecks arClose (totals.get creditNote.slot)
  subWords overflowChecks arClose (totals.get writeOff.slot)

/-- `summary`. -/
def Generator.summary (g : Generator) (arOpen arClose : UInt64) : PopulationSummary where
  mRecords := g.records.length
  invoicesCount := g.counts.get invoice.slot
  receiptsCount := g.counts.get receipt.slot
  creditNotesCount := g.counts.get creditNote.slot
  writeOffsCount := g.counts.get writeOff.slot
  arOpen := arOpen
  invoicesTotal := g.totals.get invoice.slot
  receiptsTotal := g.totals.get receipt.slot
  creditNotesTotal := g.totals.get creditNote.slot
  writeOffsTotal := g.totals.get writeOff.slot
  arClose := arClose

/-- `generate_population`. -/
def generatePopulation (overflowChecks : Bool) (m : ℕ) (draws : Draws) :
    Result AnyhowError (List AccountingRecord × PopulationSummary) := do
  let start : Generator :=
    { records := [], totals := Vector.replicate 4 0, counts := Vector.replicate 4 0, id := 0 }
  let g ← pushAll overflowChecks draws start (kinds m)
  let arClose ← closingBalance overflowChecks draws.arOpen g.totals
  return (g.records, g.summary draws.arOpen arClose)

/-! ## Runs of the loop -/

/-- The turns of the loop: the kind of the record, and its number among those. -/
def turns (kinds : List (RecordKind × ℕ)) : List (RecordKind × ℕ) :=
  kinds.flatMap fun (kind, kc) => (List.range kc).map fun i => (kind, i)

/-- The records of some turns. -/
def recordsOf (draws : Draws) (ts : List (RecordKind × ℕ)) : List AccountingRecord :=
  ts.zipIdx.map fun (t, n) => recordOf draws (UInt32.ofNat n) t.1 t.2

/-- The variables of the loop after some turns. -/
def generatorAfter (draws : Draws) (ts : List (RecordKind × ℕ)) : Generator where
  records := recordsOf draws ts
  totals := (recordsOf draws ts).foldl addRecord (Vector.replicate 4 0)
  counts := (ts.map Prod.fst).foldl countRecord (Vector.replicate 4 0)
  id := UInt32.ofNat ts.length

section Run

variable {overflowChecks : Bool} {draws : Draws} {ts : List (RecordKind × ℕ)}

theorem recordsOf_concat (t : RecordKind × ℕ) : recordsOf draws (ts ++ [t]) =
    recordsOf draws ts ++ [recordOf draws (UInt32.ofNat ts.length) t.1 t.2] := by
  simp [recordsOf, List.zipIdx_append]

/-- One turn of the loop adds its record. -/
theorem pushRecord_generatorAfter (hlen : overflowChecks = true → ts.length < 2 ^ 32)
    (kind : RecordKind) (i : ℕ) :
    pushRecord overflowChecks draws kind (generatorAfter draws ts) i =
      machine overflowChecks (ts.length + 1 < 2 ^ 32)
        (generatorAfter draws (ts ++ [(kind, i)])) := by
  have hid : (overflowChecks = true →
      (generatorAfter draws ts).id.toNat + 1 < 2 ^ 32) ↔
        (overflowChecks = true → ts.length + 1 < 2 ^ 32) := by
    refine forall_congr' fun hchecks => ?_
    rw [generatorAfter, UInt32.toNat_ofNat_of_lt' (hlen hchecks)]
  have hafter : generatorAfter draws (ts ++ [(kind, i)]) = {
      records := recordsOf draws ts ++ [recordOf draws (UInt32.ofNat ts.length) kind i]
      totals := addRecord (generatorAfter draws ts).totals
        (recordOf draws (UInt32.ofNat ts.length) kind i)
      counts := countRecord (generatorAfter draws ts).counts kind
      id := UInt32.ofNat ts.length + 1 } := by
    simp only [generatorAfter, recordsOf_concat, List.map_append, List.map_singleton,
      List.foldl_append, List.foldl_cons, List.foldl_nil, List.length_append,
      List.length_singleton, UInt32.ofNat_add]
    rfl
  rw [pushRecord, machine, machine, hafter]
  simp only [hid]
  split
  · rfl
  · rfl

/-- The inner loop adds the records of a kind. -/
theorem foldlM_pushRecord (hlen : overflowChecks = true → ts.length < 2 ^ 32)
    (kind : RecordKind) (is : List ℕ) :
    is.foldlM (pushRecord overflowChecks draws kind) (generatorAfter draws ts) =
      machine overflowChecks (ts.length + is.length < 2 ^ 32)
        (generatorAfter draws (ts ++ is.map fun i => (kind, i))) := by
  induction is generalizing ts with
  | nil =>
    rw [List.foldlM_nil, List.map_nil, List.append_nil, List.length_nil, Nat.add_zero, machine,
      if_pos hlen]
    rfl
  | cons i is ih =>
    rw [List.foldlM_cons, pushRecord_generatorAfter hlen]
    have hlength : ts.length + (i :: is).length = (ts ++ [(kind, i)]).length + is.length := by
      simp only [List.length_append, List.length_cons, List.length_nil]
      omega
    refine machine_bind (fun hlt => by simp only [List.length_cons] at hlt; omega) fun hin => ?_
    rw [ih (by simpa using hin), List.append_assoc, ← hlength]
    rfl

/-- The loops add the records of every turn, unless the ids run out. -/
theorem pushAll_generatorAfter (hlen : overflowChecks = true → ts.length < 2 ^ 32)
    (kinds : List (RecordKind × ℕ)) :
    pushAll overflowChecks draws (generatorAfter draws ts) kinds =
      machine overflowChecks (ts.length + (turns kinds).length < 2 ^ 32)
        (generatorAfter draws (ts ++ turns kinds)) := by
  induction kinds generalizing ts with
  | nil =>
    rw [pushAll, List.foldlM_nil, turns, List.flatMap_nil, List.append_nil, List.length_nil,
      Nat.add_zero, machine, if_pos hlen]
    rfl
  | cons k kinds ih =>
    obtain ⟨kind, kc⟩ := k
    have hturns : turns ((kind, kc) :: kinds) =
        (List.range kc).map (fun i => (kind, i)) ++ turns kinds := rfl
    have hlength : ts.length + (turns ((kind, kc) :: kinds)).length =
        (ts ++ (List.range kc).map fun i => (kind, i)).length + (turns kinds).length := by
      rw [hturns, List.length_append, List.length_append, Nat.add_assoc]
    have hcons (g : Generator) : pushAll overflowChecks draws g ((kind, kc) :: kinds) =
        (List.range kc).foldlM (pushRecord overflowChecks draws kind) g >>= fun g =>
          pushAll overflowChecks draws g kinds := List.foldlM_cons
    rw [hcons, foldlM_pushRecord hlen]
    refine machine_bind (fun hlt => ?_) fun hin => ?_
    · rw [hlength, List.length_append, List.length_map] at hlt
      exact lt_of_le_of_lt (Nat.le_add_right _ _) hlt
    · rw [hturns, ← List.append_assoc, ← hturns, hlength]
      exact ih (by simpa using hin)

end Run

/-! ## The summary -/

/-- The number of records of a kind. -/
def RecordKind.share (m : ℕ) : RecordKind → ℕ
  | invoice => m * 50 / 100
  | receipt => m * 35 / 100
  | creditNote => m * 10 / 100
  | writeOff => m - (m * 50 / 100 + m * 35 / 100 + m * 10 / 100)

/-- The sum of the values drawn for a kind. -/
def Draws.total (draws : Draws) (m : ℕ) (kind : RecordKind) : ℕ :=
  ((List.range (kind.share m)).map fun i => (draws.drawValue kind i).toNat).sum

theorem recordsTotal_recordsOf (draws : Draws) (kind : RecordKind) (ts : List (RecordKind × ℕ)) :
    recordsTotal kind (recordsOf draws ts) =
      (ts.map fun t => if t.1 = kind then (draws.drawValue t.1 t.2).toNat else 0).sum := by
  induction ts using List.reverseRecOn with
  | nil => rfl
  | append_singleton ts t ih =>
    rw [recordsOf_concat, recordsTotal_append, ih, recordsTotal_singleton, List.map_append,
      List.sum_append, List.map_singleton, List.sum_singleton]
    rfl

/-- The totals of the records are those of the draws. -/
theorem recordsTotal_generated (draws : Draws) (m : ℕ) (kind : RecordKind) :
    recordsTotal kind (recordsOf draws (turns (kinds m))) = draws.total m kind := by
  rw [recordsTotal_recordsOf, Draws.total]
  cases kind <;> simp [turns, kinds, RecordKind.share, Function.comp_def]

theorem length_recordsOf (draws : Draws) (ts : List (RecordKind × ℕ)) :
    (recordsOf draws ts).length = ts.length := by
  rw [recordsOf, List.length_map, List.length_zipIdx]

theorem length_turns (m : ℕ) : (turns (kinds m)).length = m := by
  simp only [turns, kinds, List.flatMap_cons, List.flatMap_nil, List.length_append,
    List.length_map, List.length_range, List.length_nil]
  omega

/-- A record counts for its kind. -/
theorem get_countRecord (counts : Vector ℕ 4) (kind kind' : RecordKind) :
    (countRecord counts kind).get kind'.slot =
      counts.get kind'.slot + if kind = kind' then 1 else 0 := by
  change (counts.setIfInBounds kind.slot (counts.get kind.slot + 1))[(kind'.slot : ℕ)] = _
  by_cases hkind : kind = kind'
  · subst hkind
    rw [Vector.getElem_setIfInBounds_self, if_pos rfl]
  · rw [Vector.getElem_setIfInBounds_ne _ (slot_ne hkind), if_neg hkind]
    rfl

theorem get_foldl_countRecord (counts : Vector ℕ 4) (ks : List RecordKind)
    (kind : RecordKind) : (ks.foldl countRecord counts).get kind.slot =
      counts.get kind.slot + ks.count kind := by
  induction ks generalizing counts with
  | nil => rfl
  | cons k ks ih =>
    rw [List.foldl_cons, ih, get_countRecord, List.count_cons, Nat.add_assoc,
      Nat.add_comm (ks.count kind)]
    simp only [beq_iff_eq]

/-- The counts add up to the number of turns. -/
theorem counts_generatorAfter (draws : Draws) (ts : List (RecordKind × ℕ)) :
    (generatorAfter draws ts).counts.get invoice.slot +
      (generatorAfter draws ts).counts.get receipt.slot +
        (generatorAfter draws ts).counts.get creditNote.slot +
          (generatorAfter draws ts).counts.get writeOff.slot = ts.length := by
  have hcount (kind : RecordKind) :
      (generatorAfter draws ts).counts.get kind.slot = (ts.map Prod.fst).count kind := by
    have hzero : (Vector.replicate 4 0 : Vector ℕ 4).get kind.slot = 0 :=
      Vector.getElem_replicate kind.slot.isLt
    rw [generatorAfter, get_foldl_countRecord, hzero, Nat.zero_add]
  change (generatorAfter draws ts).counts.get invoice.slot +
    (generatorAfter draws ts).counts.get receipt.slot +
      (generatorAfter draws ts).counts.get creditNote.slot +
        (generatorAfter draws ts).counts.get writeOff.slot = ts.length
  rw [hcount, hcount, hcount, hcount, ← List.length_map Prod.fst]
  induction ts.map Prod.fst with
  | nil => rfl
  | cons k ks ih =>
    simp only [List.count_cons, List.length_cons, ← ih]
    cases k <;> simp <;> omega

/-! ## Clean populations -/

/-- The totals of the draws, with the opening balance, fit 64 bits. -/
structure TotalsFit (m : ℕ) (draws : Draws) : Prop where
  open_le : draws.arOpen.toNat + draws.total m .invoice ≤ u64Max
  total_le : ∀ kind, draws.total m kind ≤ u64Max

/-- A population of `m` records that satisfies the identity, with a closing balance
    computed without going below zero. -/
structure Clean (m : ℕ) (records : List AccountingRecord) (summary : PopulationSummary) :
    Prop where
  receipts_le : summary.receiptsTotal.toNat ≤
    summary.arOpen.toNat + summary.invoicesTotal.toNat
  creditNotes_le : summary.creditNotesTotal.toNat ≤
    summary.arOpen.toNat + summary.invoicesTotal.toNat - summary.receiptsTotal.toNat
  writeOffs_le : summary.writeOffsTotal.toNat ≤
    summary.arOpen.toNat + summary.invoicesTotal.toNat - summary.receiptsTotal.toNat -
      summary.creditNotesTotal.toNat
  close : summary.arClose.toNat =
    summary.arOpen.toNat + summary.invoicesTotal.toNat - summary.receiptsTotal.toNat -
      summary.creditNotesTotal.toNat - summary.writeOffsTotal.toNat
  counts : summary.invoicesCount + summary.receiptsCount + summary.creditNotesCount +
    summary.writeOffsCount = m
  holds : rollForwardHolds records summary = true

/-- The generator returns a clean population. -/
def GeneratesClean (overflowChecks : Bool) (m : ℕ) (draws : Draws) : Prop :=
  ∃ records summary, generatePopulation overflowChecks m draws = .ok (records, summary) ∧
    Clean m records summary

section Clean

variable {overflowChecks : Bool} {m : ℕ} {draws : Draws}

/-- The generator after its loops. -/
def generated (m : ℕ) (draws : Draws) : Generator := generatorAfter draws (turns (kinds m))

theorem toNat_totals_generated (hfit : TotalsFit m draws) (kind : RecordKind) :
    ((generated m draws).totals.get kind.slot).toNat = draws.total m kind := by
  change ((recordsOf draws (turns (kinds m))).foldl addRecord
    (Vector.replicate 4 0))[kind.slot].toNat = _
  rw [toNat_foldl_addRecord, recordsTotal_generated, Fin.getElem_fin,
    Vector.getElem_replicate, UInt64.toNat_zero, Nat.zero_add]
  exact Nat.mod_eq_of_lt (Nat.lt_of_le_sub_one (by decide) (hfit.total_le kind))

/-- The generator returns unless the ids or the balance leave their range. -/
theorem generatePopulation_eq_ok_iff {p : List AccountingRecord × PopulationSummary} :
    generatePopulation overflowChecks m draws = .ok p ↔ (overflowChecks = true → m < 2 ^ 32) ∧
      ∃ arClose, closingBalance overflowChecks draws.arOpen (generated m draws).totals =
        .ok arClose ∧
        ((generated m draws).records, (generated m draws).summary draws.arOpen arClose) = p := by
  have hpush : pushAll overflowChecks draws (generatorAfter draws []) (kinds m) =
      machine overflowChecks (m < 2 ^ 32) (generated m draws) := by
    rw [pushAll_generatorAfter (fun _ => by decide), List.nil_append, List.length_nil,
      Nat.zero_add, length_turns]
    rfl
  change (pushAll overflowChecks draws (generatorAfter draws []) (kinds m) >>= fun g =>
    closingBalance overflowChecks draws.arOpen g.totals >>= fun arClose =>
      Except.ok (g.records, g.summary draws.arOpen arClose)) = .ok p ↔ _
  rw [hpush, Result.bind_eq_ok_iff]
  simp only [machine_eq_ok_iff, Result.bind_eq_ok_iff, Except.ok.injEq]
  constructor
  · rintro ⟨_, ⟨hids, rfl⟩, arClose, hclose, hp⟩
    exact ⟨hids, arClose, hclose, hp⟩
  · rintro ⟨hids, arClose, hclose, hp⟩
    exact ⟨_, ⟨hids, rfl⟩, arClose, hclose, hp⟩

/-- The balance of the draws does not go below zero. -/
def Solvent (m : ℕ) (draws : Draws) : Prop :=
  draws.total m .receipt + draws.total m .creditNote + draws.total m .writeOff ≤
    draws.arOpen.toNat + draws.total m .invoice

instance : Decidable (Solvent m draws) := inferInstanceAs (Decidable (_ ≤ _))

/-- An accepted summary does not owe more than it has. -/
theorem solvent_of_holds (hfit : TotalsFit m draws) {arClose : UInt64}
    (hholds : rollForwardHolds (generated m draws).records
      ((generated m draws).summary draws.arOpen arClose) = true) : Solvent m draws := by
  obtain ⟨-, -, -, hbalance⟩ := (rollForwardHolds_iff _ _).1 hholds
  have htotal := toNat_totals_generated hfit
  change draws.arOpen.toNat + ((generated m draws).totals.get invoice.slot).toNat =
    arClose.toNat + ((generated m draws).totals.get receipt.slot).toNat +
      ((generated m draws).totals.get creditNote.slot).toNat +
        ((generated m draws).totals.get writeOff.slot).toNat at hbalance
  rw [htotal, htotal, htotal, htotal] at hbalance
  rw [Solvent]
  omega

theorem toNat_sub {a b : UInt64} (hle : b.toNat ≤ a.toNat) :
    (a - b).toNat = a.toNat - b.toNat :=
  UInt64.toNat_sub_of_le a b (UInt64.le_iff_toNat_le.2 hle)

/-- The closing balance is computed exactly as long as it stays above zero. -/
theorem closingBalance_eq_ok {arOpen : UInt64} {totals : Vector UInt64 4} {t : RecordKind → ℕ}
    (ht : ∀ kind, (totals.get kind.slot).toNat = t kind)
    (hopen : arOpen.toNat + t invoice ≤ u64Max)
    (hle : t receipt + t creditNote + t writeOff ≤ arOpen.toNat + t invoice) :
    ∃ arClose, closingBalance overflowChecks arOpen totals = .ok arClose ∧
      arClose.toNat = arOpen.toNat + t invoice - t receipt - t creditNote - t writeOff := by
  simp only [← ht] at hopen hle ⊢
  rw [closingBalance]
  generalize totals.get invoice.slot = a at hopen hle ⊢
  generalize totals.get receipt.slot = b at hle ⊢
  generalize totals.get creditNote.slot = c at hle ⊢
  generalize totals.get writeOff.slot = d at hle ⊢
  have hadd : (arOpen + a).toNat = arOpen.toNat + a.toNat := by
    rw [UInt64.toNat_add]
    exact Nat.mod_eq_of_lt (Nat.lt_of_le_sub_one (by decide) hopen)
  have hreceipts : b.toNat ≤ (arOpen + a).toNat := by omega
  have hsub := toNat_sub hreceipts
  have hcreditNotes : c.toNat ≤ (arOpen + a - b).toNat := by omega
  have hsub' := toNat_sub hcreditNotes
  have hwriteOffs : d.toNat ≤ (arOpen + a - b - c).toNat := by omega
  refine ⟨arOpen + a - b - c - d, ?_, ?_⟩
  · simp only [addWords, subWords, Result.bind_eq_ok_iff, machine_eq_ok_iff]
    exact ⟨_, ⟨fun _ => hopen, rfl⟩, _, ⟨fun _ => hreceipts, rfl⟩, _,
      ⟨fun _ => hcreditNotes, rfl⟩, fun _ => hwriteOffs, rfl⟩
  · rw [toNat_sub hwriteOffs, hsub', hsub, hadd]

/-- A summary that tells the totals of the records and closes exactly is clean. -/
theorem clean_summary {g : Generator} {arOpen arClose : UInt64} {t : RecordKind → ℕ}
    (ht : ∀ kind, (g.totals.get kind.slot).toNat = t kind)
    (htotals : ∀ kind, recordsTotal kind g.records = t kind)
    (hcounts : g.counts.get invoice.slot + g.counts.get receipt.slot +
      g.counts.get creditNote.slot + g.counts.get writeOff.slot = m)
    (hopen : arOpen.toNat + t invoice ≤ u64Max)
    (hle : t receipt + t creditNote + t writeOff ≤ arOpen.toNat + t invoice)
    (hclose : arClose.toNat =
      arOpen.toNat + t invoice - t receipt - t creditNote - t writeOff) :
    Clean m g.records (g.summary arOpen arClose) := by
  have hreceipts : t receipt ≤ arOpen.toNat + t invoice := by omega
  have hcreditNotes : t creditNote ≤ arOpen.toNat + t invoice - t receipt := by omega
  have hwriteOffs : t writeOff ≤ arOpen.toNat + t invoice - t receipt - t creditNote := by omega
  have hbalance : arOpen.toNat + t invoice =
      arClose.toNat + t receipt + t creditNote + t writeOff := by
    omega
  -- The entries of the totals are the fields of the summary.
  simp only [← ht] at hopen hreceipts hcreditNotes hwriteOffs hclose hbalance
  refine ⟨hreceipts, hcreditNotes, hwriteOffs, hclose, hcounts, ?_⟩
  rw [rollForwardHolds_iff]
  refine ⟨fun kind => ?_, hopen, hbalance ▸ hopen, hbalance⟩
  rw [htotals kind, ← ht, Nat.mod_eq_of_lt (UInt64.toNat_lt _)]
  cases kind <;> rfl

/-- Solvent draws give a clean population. -/
theorem clean_of_solvent (hfit : TotalsFit m draws) (hids : overflowChecks = true → m < 2 ^ 32)
    (hsolvent : Solvent m draws) : GeneratesClean overflowChecks m draws := by
  have htotals := toNat_totals_generated hfit
  have hcounts := counts_generatorAfter draws (turns (kinds m))
  rw [length_turns] at hcounts
  obtain ⟨arClose, hclosing, hclose⟩ := closingBalance_eq_ok htotals hfit.open_le hsolvent
  exact ⟨_, _, generatePopulation_eq_ok_iff.2 ⟨hids, arClose, hclosing, rfl⟩,
    clean_summary htotals (recordsTotal_generated draws m) hcounts hfit.open_le hsolvent hclose⟩

/-- A clean population comes from solvent draws. -/
theorem solvent_of_clean (hfit : TotalsFit m draws)
    (hclean : GeneratesClean overflowChecks m draws) :
    (overflowChecks = true → m < 2 ^ 32) ∧ Solvent m draws := by
  obtain ⟨records, summary, hgenerate, hclean⟩ := hclean
  obtain ⟨hids, arClose, -, hp⟩ := generatePopulation_eq_ok_iff.1 hgenerate
  obtain ⟨rfl, rfl⟩ := Prod.mk.inj hp
  exact ⟨hids, solvent_of_holds hfit hclean.holds⟩

end Clean

/-- The generated population is clean exactly when the balance of the draws does not go
    below zero and, in a build that checks overflows, the ids do not run out. -/
theorem generated_clean_iff (overflowChecks : Bool) (m : ℕ) (draws : Draws)
    (hfit : TotalsFit m draws) : GeneratesClean overflowChecks m draws ↔
      (overflowChecks = true → m < 2 ^ 32) ∧ Solvent m draws :=
  ⟨solvent_of_clean hfit, fun ⟨hids, hsolvent⟩ => clean_of_solvent hfit hids hsolvent⟩

/-- The draws with the least invoices and opening balance, and the most of the rest. -/
def scarceDraws : Draws where
  genRange kind _ := if kind = .invoice then 0 else kind.spread - 1
  genRange_lt kind _ := by cases kind <;> exact UInt64.lt_iff_toNat_lt.2 (by decide)
  gen := 0

theorem generated_clean_eight : GeneratesClean true 8 scarceDraws :=
  (generated_clean_iff true 8 scarceDraws
    ⟨by decide, fun kind => by cases kind <;> decide⟩).2 ⟨fun _ => by decide, by decide⟩

/-- Of nine records, three receipts can exceed the opening balance and four invoices. -/
theorem nine_records_unclean : TotalsFit 9 scarceDraws ∧
    ¬GeneratesClean true 9 scarceDraws ∧ ¬GeneratesClean false 9 scarceDraws := by
  have hfit : TotalsFit 9 scarceDraws := ⟨by decide, fun kind => by cases kind <;> decide⟩
  have howes : ¬Solvent 9 scarceDraws := by decide
  exact ⟨hfit, fun hclean => howes (solvent_of_clean hfit hclean).2,
    fun hclean => howes (solvent_of_clean hfit hclean).2⟩

/-! ## Every draw -/

theorem drawValue_bounds (draws : Draws) (kind : RecordKind) (i : ℕ) :
    kind.low.toNat ≤ (draws.drawValue kind i).toNat ∧
      (draws.drawValue kind i).toNat ≤ kind.low.toNat + kind.spread.toNat - 1 := by
  have hlt : (draws.genRange kind i).toNat < kind.spread.toNat :=
    UInt64.lt_iff_toNat_lt.1 (draws.genRange_lt kind i)
  have hword : kind.low.toNat + kind.spread.toNat < 2 ^ 64 := by cases kind <;> decide
  rw [Draws.drawValue, UInt64.toNat_add, Nat.mod_eq_of_lt (by omega)]
  omega

theorem total_bounds (draws : Draws) (m : ℕ) (kind : RecordKind) :
    kind.share m * kind.low.toNat ≤ draws.total m kind ∧
      draws.total m kind ≤ kind.share m * (kind.low.toNat + kind.spread.toNat - 1) := by
  rw [Draws.total]
  induction kind.share m with
  | zero => simp
  | succ n ih =>
    rw [List.range_succ, List.map_append, List.sum_append, List.map_singleton,
      List.sum_singleton, Nat.succ_mul, Nat.succ_mul]
    exact ⟨Nat.add_le_add ih.1 (drawValue_bounds draws kind n).1,
      Nat.add_le_add ih.2 (drawValue_bounds draws kind n).2⟩

theorem arOpen_bounds (draws : Draws) :
    18200000 ≤ draws.arOpen.toNat ∧ draws.arOpen.toNat ≤ 23200000 := by
  have hlt : (draws.gen % 5000000).toNat < 5000000 := by
    rw [UInt64.toNat_mod]
    exact Nat.mod_lt _ (by decide)
  have hadd : draws.arOpen.toNat = 18200000 + (draws.gen % 5000000).toNat := by
    rw [Draws.arOpen, UInt64.toNat_add]
    exact Nat.mod_eq_of_lt (by simp only [UInt64.reduceToNat]; omega)
  omega

theorem total_scarceDraws (m : ℕ) (kind : RecordKind) : scarceDraws.total m kind =
    kind.share m * (scarceDraws.drawValue kind 0).toNat := by
  simp [Draws.total, Draws.drawValue, scarceDraws]

/-- The totals of a population that is not too large fit 64 bits, whatever is drawn. -/
theorem totalsFit_of_le {m : ℕ} (hm : 23200000 + 8000000 * m ≤ u64Max) (draws : Draws) :
    TotalsFit m draws := by
  have htotal (kind : RecordKind) : draws.total m kind ≤ 8000000 * m := by
    refine (total_bounds draws m kind).2.trans ?_
    rw [Nat.mul_comm]
    refine Nat.mul_le_mul ?_ ?_
    · cases kind <;> decide
    · cases kind <;> simp only [RecordKind.share] <;> omega
  exact ⟨(Nat.add_le_add (arOpen_bounds draws).2 (htotal _)).trans hm,
    fun kind => (htotal kind).trans ((Nat.le_add_left _ _).trans hm)⟩

/-- Every draw gives a clean population up to eight records, and not beyond. -/
theorem clean_for_all_draws_iff {m : ℕ} (hm : 23200000 + 8000000 * m ≤ u64Max) :
    (∀ draws, GeneratesClean false m draws) ↔ m ≤ 8 := by
  have hfit (draws : Draws) : TotalsFit m draws := totalsFit_of_le hm draws
  constructor
  · intro hclean
    have hsolvent := (solvent_of_clean (hfit scarceDraws) (hclean scarceDraws)).2
    have hinvoices : (scarceDraws.drawValue .invoice 0).toNat = 400000 := by decide
    have hreceipts : (scarceDraws.drawValue .receipt 0).toNat = 7749999 := by decide
    have hopen : scarceDraws.arOpen.toNat = 18200000 := by decide
    rw [Solvent, total_scarceDraws m .receipt, total_scarceDraws m .invoice, hinvoices,
      hreceipts, hopen] at hsolvent
    -- From nine records on, the receipts alone exceed what there is.
    simp only [RecordKind.share] at hsolvent
    omega
  · intro hle draws
    refine clean_of_solvent (hfit draws) (fun hchecks => absurd hchecks Bool.false_ne_true) ?_
    have hinvoices := (total_bounds draws m .invoice).1
    have hreceipts := (total_bounds draws m .receipt).2
    have hcreditNotes := (total_bounds draws m .creditNote).2
    have hwriteOffs := (total_bounds draws m .writeOff).2
    have hopen := (arOpen_bounds draws).1
    simp only [RecordKind.share, RecordKind.low, RecordKind.spread, UInt64.reduceToNat]
      at hinvoices hreceipts hcreditNotes hwriteOffs
    rw [Solvent]
    omega

theorem clean_for_all_draws_two_hundred :
    (∀ draws, GeneratesClean false 200 draws) ↔ 200 ≤ 8 :=
  clean_for_all_draws_iff (by decide)

end Vaa.Simstudy
