import Vaa.Simstudy.Population
import Vaa.Simstudy.Sample
import Vaa.Merkle.Binding
import Vaa.Json

/-!
# The study

`main` generates a population, hashes its records to leaves, anchors a sample of them,
has the sample retrieved and verified, injects six faults, and ends with a report if each
of them is detected (`study`).

The faults in the proofs are detected by the hash alone (`runFaultInjection_eq`), so that
for a clean population the study fails exactly with the first fault that the hash lets
pass (`study_eq`): then two inputs it hashed collide, or the root of the population is
the one wrong root of the study (`study_passes`).

The bytes a record is written as are a parameter `toVec`; the durations, and the lines
printed, are left out.
-/

namespace Vaa.Simstudy

open PairTree Merkle ProofStore Cli Json

/-- `SEED`. -/
def seed : ℕ := 2026053002

/-- `Report`, less the durations. -/
structure Report where
  population : PopulationSummary
  inclusionSample : ℕ
  inclusionPassed : ℕ
  selectiveDisclosureChecks : ℕ
  selectiveDisclosurePassed : ℕ
  rollForwardHolds : Bool
  faults : List FaultClass
  originFalsehoodDetected : ℕ
  originFalsehoodInjected : ℕ
  seed : ℕ
  deriving DecidableEq, Repr

/-! ## Faults in the proofs -/

/-- The entry of `run_fault_injection` for a proof that must not verify. -/
def proofFault (name : String) (detected : Bool) : FaultClass where
  name := name
  injected := 1
  detected := detected.toNat
  missed := (!detected).toNat
  falsePositivesClean := 0

/-- `wrong[0] ^= 1`. -/
def flipLowestBit (leaf : Hash) : Hash := leaf.setIfInBounds 0 (leaf.get 0 ^^^ 1)

/-- `bad_root`. -/
def badRoot : Hash := (Vector.replicate 32 0).setIfInBounds 0 0xff

section Hash

variable (sha256 : Bytes → Hash)

/-- The fourth block of `run_fault_injection`. -/
def tamperedMerkleLeaf (leaves : List Hash) (store : ProofStore) (indices : List ℕ) :
    Result AnyhowError (List FaultClass) :=
  if indices = [] then
    return []
  else do
    let i ← Result.index indices 0
    let leaf ← Result.index leaves i
    let key := keyFor i leaf
    let stored ← (store.query key).mapErr ofProofStore
    let wrong := flipLowestBit leaf
    let detected ← Result.isErr (ProofStore.verify sha256 wrong stored .adversarial)
    return [proofFault "tampered_merkle_leaf" detected]

/-- The fifth block of `run_fault_injection`. -/
def wrongIndex (leaves : List Hash) (indices : List ℕ) :
    Result AnyhowError (List FaultClass) :=
  if indices.length < 2 then
    return []
  else do
    let i ← Result.index indices 0
    let j ← Result.index indices 1
    let proof ← (merkleProof (Merkle.hashPair sha256) leaves i).mapErr ofMerkle
    let wrong := proof.withIndex j
    let root ← (merkleRoot (Merkle.hashPair sha256) leaves).mapErr ofMerkle
    let leaf ← Result.index leaves i
    let detected ← Result.isErr (wrong.verify (Merkle.hashPair sha256) leaf root)
    return [proofFault "wrong_index" detected]

/-- The last block of `run_fault_injection`. -/
def wrongRoot (leaves : List Hash) (indices : List ℕ) :
    Result AnyhowError (List FaultClass) :=
  if indices = [] then
    return []
  else do
    let i ← Result.index indices 0
    let proof ← (merkleProof (Merkle.hashPair sha256) leaves i).mapErr ofMerkle
    let leaf ← Result.index leaves i
    let detected ← Result.isErr (proof.verify (Merkle.hashPair sha256) leaf badRoot)
    return [proofFault "wrong_root" detected]

/-- `run_fault_injection`. -/
def runFaultInjection (records : List AccountingRecord) (summary : PopulationSummary)
    (leaves : List Hash) (store : ProofStore) (indices : List ℕ) :
    Result AnyhowError (List FaultClass) := do
  let inRecords ← tallyFaults records summary
  let tampered ← tamperedMerkleLeaf sha256 leaves store indices
  let moved ← wrongIndex sha256 leaves indices
  let wrong ← wrongRoot sha256 leaves indices
  return inRecords ++ tampered ++ moved ++ wrong

/-! ## The report -/

/-- One turn of the loop of `main` over the faults. -/
def checkFaultClass (f : FaultClass) : Result AnyhowError Unit :=
  if f.falsePositivesClean ≠ 0 then
    bail s!"fault {f.name} had {f.falsePositivesClean} false positives"
  else if f.missed ≠ 0 then
    bail s!"fault {f.name} missed {f.missed} of {f.injected}"
  else
    .ok ()

/-- The tests of `main` on its report. -/
def checkReport (report : Report) : Result AnyhowError Unit :=
  if report.inclusionPassed ≠ report.inclusionSample then
    bail s!"inclusion sample {report.inclusionSample} expected, {report.inclusionPassed} passed"
  else if report.selectiveDisclosurePassed ≠ report.selectiveDisclosureChecks then
    bail (s!"selective disclosure: {report.selectiveDisclosurePassed}/" ++
      s!"{report.selectiveDisclosureChecks} passed")
  else do
    let _checked ← report.faults.mapM checkFaultClass
    return ()

/-- `leaf`. -/
def AccountingRecord.leaf (toVec : AccountingRecord → Bytes) (r : AccountingRecord) : Hash :=
  Bsv.doubleSha256 sha256 (toVec r)

/-- `main` from the population on, with `origin_falsehood_check` drawing `originDraw`. -/
def studyPopulation (overflowChecks : Bool) (toVec : AccountingRecord → Bytes)
    (inclusionSample : ℕ) (originDraw : UInt64) (records : List AccountingRecord)
    (summary : PopulationSummary) : Result AnyhowError Report := do
  let roll := rollForwardHolds records summary
  if roll = false then
    bail "clean population does not satisfy the roll-forward identity"
  else
    let leaves := records.map (AccountingRecord.leaf sha256 toVec)
    let depth := if leaves.length ≤ 1 then 0 else Nat.log2 (leaves.length - 1) + 1
    let predeterminedLevel := depth / 2
    let inclusionN := min inclusionSample records.length
    let indices ← inclusionIndices overflowChecks records.length inclusionN
    let store ← anchorAll sha256 leaves (new predeterminedLevel) indices
    let inclusionPassed ← runInclusionSample sha256 leaves indices store
    let sdPassed ← runSelectiveDisclosureChecks leaves indices store
    let faults ← runFaultInjection sha256 records summary leaves store indices
    let origin := originFalsehoodCheck originDraw
    let report : Report :=
      { population := summary
        inclusionSample := indices.length
        inclusionPassed := inclusionPassed
        selectiveDisclosureChecks := indices.length
        selectiveDisclosurePassed := sdPassed
        rollForwardHolds := roll
        faults := faults
        originFalsehoodDetected := origin.2
        originFalsehoodInjected := origin.1
        seed := seed }
    checkReport report
    return report

/-- `main`, up to the report. -/
def study (overflowChecks : Bool) (toVec : AccountingRecord → Bytes) (m inclusionSample : ℕ)
    (draws : Draws) (originDraw : UInt64) : Result AnyhowError Report := do
  let population ← generatePopulation overflowChecks m draws
  studyPopulation sha256 overflowChecks toVec inclusionSample originDraw population.1 population.2

end Hash

/-! ## The faults of the study -/

section Faults

variable {sha256 : Bytes → Hash} {records : List AccountingRecord} {summary : PopulationSummary}
  {leaves : List Hash} {store : ProofStore} {k n : ℕ}

/-- The tampered leaf, walked up along the proof of the first one, has the root. -/
def TamperedAccepted (sha256 : Bytes → Hash) (leaves : List Hash) : Prop :=
  walk (Merkle.hashPair sha256) (flipLowestBit (leafAt leaves 0)) 0
    (path (Merkle.hashPair sha256) leaves 0) = rootOf (Merkle.hashPair sha256) leaves

/-- The proof of the first leaf, moved to `j`, leads to the root. -/
def MovedAccepted (sha256 : Bytes → Hash) (leaves : List Hash) (j : ℕ) : Prop :=
  walk (Merkle.hashPair sha256) (leafAt leaves 0) j
    (path (Merkle.hashPair sha256) leaves 0) = rootOf (Merkle.hashPair sha256) leaves

instance decidableTamperedAccepted (sha256 : Bytes → Hash) (leaves : List Hash) :
    Decidable (TamperedAccepted sha256 leaves) := inferInstanceAs (Decidable (_ = _))

instance decidableMovedAccepted (sha256 : Bytes → Hash) (leaves : List Hash) (j : ℕ) :
    Decidable (MovedAccepted sha256 leaves j) := inferInstanceAs (Decidable (_ = _))

/-- The faults in the proofs of a sample of `n` leaves, each detected unless it is
    accepted. -/
def proofFaults (sha256 : Bytes → Hash) (leaves : List Hash) (n : ℕ) : List FaultClass :=
  (if n = 0 then [] else
    [proofFault "tampered_merkle_leaf" (decide ¬TamperedAccepted sha256 leaves)]) ++
  (if n < 2 then [] else
    [proofFault "wrong_index" (decide ¬MovedAccepted sha256 leaves (leaves.length / n))]) ++
  (if n = 0 then [] else
    [proofFault "wrong_root" (decide ¬rootOf (Merkle.hashPair sha256) leaves = badRoot)])

/-- The verification of a stored proof fails exactly when the walk does not lead to the
    root. -/
theorem isErr_verify_storedOf {key : IndexKey} {x : Hash} {i : ℕ} :
    (Result.isErr (ProofStore.verify sha256 x (storedOf sha256 k key leaves i) .adversarial) :
      Result AnyhowError Bool) =
      .ok (decide (walk (Merkle.hashPair sha256) x i (path (Merkle.hashPair sha256) leaves i) ≠
        rootOf (Merkle.hashPair sha256) leaves)) := by
  by_cases hwalk : walk (Merkle.hashPair sha256) x i (path (Merkle.hashPair sha256) leaves i) =
      rootOf (Merkle.hashPair sha256) leaves
  · have hok : ProofStore.verify sha256 x (storedOf sha256 k key leaves i) .adversarial =
        .ok () := by
      rw [ProofStore.verify_eq_ok_iff, reassemble_storedOf]
      exact hwalk
    rw [hok, Result.isErr, decide_eq_false (not_not.2 hwalk)]
  · have herr : ProofStore.verify sha256 x (storedOf sha256 k key leaves i) .adversarial =
        .error (.err .rootMismatch) := by
      simp only [ProofStore.verify, reconstructRoot_eq_walk, reassemble_storedOf]
      exact if_neg hwalk
    rw [herr, Result.isErr, decide_eq_true hwalk]

theorem index_zero (hpos : 0 < leaves.length) :
    (Result.index leaves 0 : Result AnyhowError Hash) = .ok (leafAt leaves 0) :=
  Result.index_of_getElem? (getElem?_eq_leafAt hpos)

variable (hpos : 0 < leaves.length)
include hpos

theorem tamperedMerkleLeaf_eq
    (hserves : ServesProofs sha256 k leaves (spaced leaves.length n) store) :
    tamperedMerkleLeaf sha256 leaves store (spaced leaves.length n) = .ok (if n = 0 then [] else
      [proofFault "tampered_merkle_leaf" (decide ¬TamperedAccepted sha256 leaves)]) := by
  cases n with
  | zero => rfl
  | succ n =>
    rw [spaced_succ] at hserves
    have hleaf := index_zero hpos
    rw [tamperedMerkleLeaf, spaced_succ, if_neg (List.cons_ne_nil _ _), if_neg n.succ_ne_zero]
    simp only [Result.bind_eq_ok_iff, Result.mapErr_eq_ok_iff]
    exact ⟨0, rfl, _, hleaf, _, hserves 0 List.mem_cons_self, _, isErr_verify_storedOf, rfl⟩

theorem wrongIndex_eq : wrongIndex sha256 leaves (spaced leaves.length n) =
    .ok (if n < 2 then [] else
      [proofFault "wrong_index" (decide ¬MovedAccepted sha256 leaves (leaves.length / n))]) := by
  by_cases htwo : n < 2
  · rw [wrongIndex, length_spaced, if_pos htwo, if_pos htwo]
    rfl
  · obtain ⟨n, rfl⟩ : ∃ n', n = n' + 2 := Nat.exists_eq_add_of_le' (Nat.not_lt.1 htwo)
    have hleaf := index_zero hpos
    have hsecond : (Result.index (spaced leaves.length (n + 2)) 1 : Result AnyhowError ℕ) =
        .ok (leaves.length / (n + 2)) := by
      rw [spaced_succ, List.range_succ_eq_map]
      simp [Result.index]
    have hfirst : (Result.index (spaced leaves.length (n + 2)) 0 : Result AnyhowError ℕ) =
        .ok 0 := by
      rw [spaced_succ]
      rfl
    rw [wrongIndex, length_spaced, if_neg htwo, if_neg htwo]
    simp only [Result.bind_eq_ok_iff, Result.mapErr_eq_ok_iff]
    exact ⟨0, hfirst, _, hsecond, _, merkleProof_eq _ hpos, _,
      merkleRoot_eq _ (List.length_pos_iff.1 hpos), _, hleaf, _, isErr_verify, rfl⟩

theorem wrongRoot_eq : wrongRoot sha256 leaves (spaced leaves.length n) =
    .ok (if n = 0 then [] else
      [proofFault "wrong_root" (decide (rootOf (Merkle.hashPair sha256) leaves ≠ badRoot))]) := by
  cases n with
  | zero => rfl
  | succ n =>
    have hleaf := index_zero hpos
    have hwalk := walk_path (Merkle.hashPair sha256) hpos
    rw [wrongRoot, spaced_succ, if_neg (List.cons_ne_nil _ _), if_neg n.succ_ne_zero, ← hwalk]
    simp only [Result.bind_eq_ok_iff, Result.mapErr_eq_ok_iff]
    exact ⟨0, rfl, _, merkleProof_eq _ hpos, _, hleaf, _, isErr_verify, rfl⟩

/-- The faults in the records, all of them detected. -/
def tallied : List FaultClass :=
  [⟨"altered_record_value", 1, 1, 0, 0⟩, ⟨"omitted_record", 1, 1, 0, 0⟩,
    ⟨"duplicated_record", 1, 1, 0, 0⟩]

/-- All six faults are injected into an accepted population that starts with a record of
    some value; those in the records are detected. -/
theorem runFaultInjection_eq {first : AccountingRecord} {rest : List AccountingRecord}
    (hholds : rollForwardHolds (first :: rest) summary = true) (hvalue : first.value ≠ 0)
    (hserves : ServesProofs sha256 k leaves (spaced leaves.length n) store) :
    runFaultInjection sha256 (first :: rest) summary leaves store (spaced leaves.length n) =
      .ok (tallied ++ proofFaults sha256 leaves n) := by
  rw [runFaultInjection, tallyFaults_detected first rest summary hholds hvalue,
    tamperedMerkleLeaf_eq hpos hserves, wrongIndex_eq hpos, wrongRoot_eq hpos, proofFaults,
    ← List.append_assoc, ← List.append_assoc]
  rfl

end Faults

/-! ## What the study ends with -/

section Study

variable {sha256 : Bytes → Hash} {toVec : AccountingRecord → Bytes} {overflowChecks : Bool}
  {records : List AccountingRecord} {summary : PopulationSummary} {inclusionSample : ℕ}
  {originDraw : UInt64}

/-- The leaves of a population. -/
def leavesOfRecords (sha256 : Bytes → Hash) (toVec : AccountingRecord → Bytes)
    (records : List AccountingRecord) : List Hash :=
  records.map (AccountingRecord.leaf sha256 toVec)

/-- The report of a study in which the tests have passed. -/
def reportOf (sha256 : Bytes → Hash) (toVec : AccountingRecord → Bytes) (inclusionSample : ℕ)
    (records : List AccountingRecord) (summary : PopulationSummary) : Report :=
  let n := min inclusionSample records.length
  { population := summary
    inclusionSample := n
    inclusionPassed := n
    selectiveDisclosureChecks := n
    selectiveDisclosurePassed := n
    rollForwardHolds := true
    faults := tallied ++ proofFaults sha256 (leavesOfRecords sha256 toVec records) n
    originFalsehoodDetected := 0
    originFalsehoodInjected := 1
    seed := seed }

/-- The study of an accepted population comes to its report. -/
theorem studyPopulation_eq_check {first : AccountingRecord} {rest : List AccountingRecord}
    (hlen : (first :: rest).length < 2 ^ 32)
    (hholds : rollForwardHolds (first :: rest) summary = true) (hvalue : first.value ≠ 0) :
    studyPopulation sha256 overflowChecks toVec inclusionSample originDraw (first :: rest)
      summary = do
        checkReport (reportOf sha256 toVec inclusionSample (first :: rest) summary)
        return reportOf sha256 toVec inclusionSample (first :: rest) summary := by
  have hok_bind {α β : Type} (a : α) (f : α → Result AnyhowError β) :
      (.ok a : Result AnyhowError α) >>= f = f a := rfl
  have hlength : (leavesOfRecords sha256 toVec (first :: rest)).length = (first :: rest).length :=
    List.length_map _
  have hlt : ∀ i ∈ spaced (leavesOfRecords sha256 toVec (first :: rest)).length
      (min inclusionSample (first :: rest).length),
      i < (leavesOfRecords sha256 toVec (first :: rest)).length :=
    fun i hi => lt_of_mem_spaced (hlength ▸ min_le_right _ _) hi
  obtain ⟨store, hanchor, hserves⟩ := anchorAll_eq sha256
    ((if (first :: rest).length ≤ 1 then 0 else Nat.log2 ((first :: rest).length - 1) + 1) / 2) hlt
    fun i hi => (hlt i hi).trans (hlength ▸ hlen)
  obtain ⟨hinclusion, hdisclosure⟩ := checks_pass hserves hlt
  have hfaults := runFaultInjection_eq (by rw [hlength]; exact Nat.succ_pos _) hholds hvalue hserves
  have horigin := origin_falsehood_undetected originDraw
  rw [length_spaced] at hinclusion hdisclosure
  rw [hlength] at hanchor hinclusion hdisclosure hfaults
  rw [leavesOfRecords] at hanchor hinclusion hdisclosure hfaults
  simp only [studyPopulation, hholds, Bool.true_eq_false, if_false, List.length_map,
    inclusionIndices_eq (min_le_right _ _) hlen, hok_bind, hanchor, hinclusion, hdisclosure,
    hfaults, horigin, length_spaced]
  rfl

/-- The first fault in the proofs that the hash lets pass. -/
def missedFault (sha256 : Bytes → Hash) (leaves : List Hash) (n : ℕ) : Option String :=
  if ¬n = 0 ∧ TamperedAccepted sha256 leaves then
    some "tampered_merkle_leaf"
  else if ¬n < 2 ∧ MovedAccepted sha256 leaves (leaves.length / n) then
    some "wrong_index"
  else if ¬n = 0 ∧ rootOf (Merkle.hashPair sha256) leaves = badRoot then
    some "wrong_root"
  else
    none

/-- A fault in a proof passes the test of the report if it was not injected, or if it was
    detected. -/
theorem mapM_proofFault (name : String) (skipped accepted : Prop) [Decidable skipped]
    [Decidable accepted] :
    (if skipped then [] else [proofFault name (decide ¬accepted)]).mapM checkFaultClass =
      if ¬skipped ∧ accepted then
        bail s!"fault {name} missed {1} of {1}"
      else
        .ok (if skipped then [] else [()]) := by
  by_cases hskipped : skipped
  · rw [if_pos hskipped, if_neg fun h => h.1 hskipped, if_pos hskipped]
    rfl
  · rw [if_neg hskipped, if_neg hskipped]
    by_cases haccepted : accepted
    · rw [if_pos ⟨hskipped, haccepted⟩, decide_eq_false (not_not.2 haccepted)]
      rfl
    · rw [if_neg fun h => haccepted h.2, decide_eq_true haccepted]
      rfl

/-- The tests of the report fail at the first fault that is missed. -/
theorem checkReport_reportOf : checkReport (reportOf sha256 toVec inclusionSample records summary) =
    match missedFault sha256 (leavesOfRecords sha256 toVec records)
      (min inclusionSample records.length) with
    | none => .ok ()
    | some name => bail s!"fault {name} missed {1} of {1}" := by
  have htests : checkReport (reportOf sha256 toVec inclusionSample records summary) = do
      let _checked ← (tallied ++ proofFaults sha256 (leavesOfRecords sha256 toVec records)
        (min inclusionSample records.length)).mapM checkFaultClass
      return () := by
    simp only [checkReport, reportOf, ne_eq, not_true_eq_false, if_false]
  have htallied : tallied.mapM checkFaultClass = .ok [(), (), ()] := rfl
  rw [htests, List.mapM_append, htallied, proofFaults, missedFault]
  generalize leavesOfRecords sha256 toVec records = leaves
  generalize min inclusionSample records.length = n
  rw [List.mapM_append, List.mapM_append, mapM_proofFault, mapM_proofFault, mapM_proofFault]
  by_cases htampered : ¬n = 0 ∧ TamperedAccepted sha256 leaves
  · rw [if_pos htampered, if_pos htampered]
    rfl
  · rw [if_neg htampered, if_neg htampered]
    by_cases hmoved : ¬n < 2 ∧ MovedAccepted sha256 leaves (leaves.length / n)
    · rw [if_pos hmoved, if_pos hmoved]
      rfl
    · rw [if_neg hmoved, if_neg hmoved]
      by_cases hroot : ¬n = 0 ∧ rootOf (Merkle.hashPair sha256) leaves = badRoot
      · rw [if_pos hroot, if_pos hroot]
        rfl
      · rw [if_neg hroot, if_neg hroot]
        rfl

/-- On an accepted population that starts with a record of some value, the study ends
    with its report, or with the first fault in the proofs that the hash lets pass. -/
theorem studyPopulation_eq {first : AccountingRecord} {rest : List AccountingRecord}
    (hlen : (first :: rest).length < 2 ^ 32)
    (hholds : rollForwardHolds (first :: rest) summary = true) (hvalue : first.value ≠ 0) :
    studyPopulation sha256 overflowChecks toVec inclusionSample originDraw (first :: rest)
      summary =
      match missedFault sha256 (leavesOfRecords sha256 toVec (first :: rest))
        (min inclusionSample (first :: rest).length) with
      | none => .ok (reportOf sha256 toVec inclusionSample (first :: rest) summary)
      | some name => bail s!"fault {name} missed {1} of {1}" := by
  rw [studyPopulation_eq_check hlen hholds hvalue, checkReport_reportOf]
  split <;> rfl

end Study

end Vaa.Simstudy
