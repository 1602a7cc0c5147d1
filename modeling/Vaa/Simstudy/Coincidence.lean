import Vaa.Simstudy.Canonical
import Vaa.Simstudy.Study

/-!
# Faults that the hash lets pass

The study of a clean population fails only by a coincidence of the hash
(`study_passes`): the tampered leaf or the moved proof is accepted only if two different
byte strings hashed on the way collide, the wrong root only if it is the root of the
population.

The records of a generated population are numbered, so all different, and so are their
bytes; and each of them has some value, so the faults in the records do not depend on the
hash.
-/

namespace Vaa.Simstudy

open PairTree Merkle ProofStore Cli

variable {sha256 : Bytes → Hash} {toVec : AccountingRecord → Bytes} {leaves : List Hash}

/-! ## Accepted faults -/

theorem flipLowestBit_ne (leaf : Hash) : flipLowestBit leaf ≠ leaf := by
  intro heq
  have hflip : leaf.get 0 ^^^ 1 = leaf.get 0 := by
    have hget : (flipLowestBit leaf)[0] = leaf[0] := by rw [heq]
    rwa [flipLowestBit, Vector.getElem_setIfInBounds_self] at hget
  have hone : leaf.get 0 ^^^ (leaf.get 0 ^^^ 1) = leaf.get 0 ^^^ leaf.get 0 :=
    congrArg (leaf.get 0 ^^^ ·) hflip
  rw [← UInt8.xor_assoc, UInt8.xor_self, UInt8.zero_xor] at hone
  exact absurd hone (by decide)

/-- A tampered leaf is accepted only by a collision on its way up. -/
theorem collision_of_tamperedAccepted (hpos : 0 < leaves.length)
    (haccepted : TamperedAccepted sha256 leaves) :
    Collision (Merkle.hashPair sha256)
      (walkPairs (Merkle.hashPair sha256) (flipLowestBit (leafAt leaves 0)) 0
        (path (Merkle.hashPair sha256) leaves 0)) (rootPairs (Merkle.hashPair sha256) leaves) :=
  collision_of_walk_path hpos (flipLowestBit_ne _) haccepted

/-- A proof moved to another leaf is accepted only if the leaves are equal, or by a
    collision on the way up. -/
theorem collision_of_movedAccepted {j : ℕ} (hj : j < leaves.length)
    (haccepted : MovedAccepted sha256 leaves j) :
    leafAt leaves 0 = leafAt leaves j ∨ Collision (Merkle.hashPair sha256)
      (walkPairs (Merkle.hashPair sha256) (leafAt leaves 0) j
        (path (Merkle.hashPair sha256) leaves 0)) (rootPairs (Merkle.hashPair sha256) leaves) := by
  rcases walk_eq_root (ne_nil_of_lt hj) (length_path ..) haccepted with ⟨hleaf, -⟩ | hc
  · rw [Nat.mod_eq_of_lt (lt_two_pow_height hj), origin_of_lt (by simpa using hj)] at hleaf
    exact .inl hleaf
  · exact .inr hc

/-! ## What the study hashes -/

section Inputs

variable {records : List AccountingRecord} {n : ℕ}

/-- The byte strings hashed by the study of a population with a sample of `n` records:
    those of the records, of the tree over them, and of the walks from the tampered leaf
    and along the moved proof. -/
def hashedInputs (sha256 : Bytes → Hash) (toVec : AccountingRecord → Bytes)
    (records : List AccountingRecord) (n : ℕ) : List Bytes :=
  let leaves := leavesOfRecords sha256 toVec records
  let proof := path (Merkle.hashPair sha256) leaves 0
  records.map toVec ++ treeInputs sha256 leaves ++
    (walkPairs (Merkle.hashPair sha256) (flipLowestBit (leafAt leaves 0)) 0 proof).map pairInput ++
    (walkPairs (Merkle.hashPair sha256) (leafAt leaves 0) (leaves.length / n) proof).map pairInput

theorem mem_hashedInputs {input : Bytes} : input ∈ hashedInputs sha256 toVec records n ↔
    input ∈ records.map toVec ∨ input ∈ treeInputs sha256 (leavesOfRecords sha256 toVec records) ∨
      input ∈ (walkPairs (Merkle.hashPair sha256)
        (flipLowestBit (leafAt (leavesOfRecords sha256 toVec records) 0)) 0
        (path (Merkle.hashPair sha256) (leavesOfRecords sha256 toVec records) 0)).map pairInput ∨
      input ∈ (walkPairs (Merkle.hashPair sha256)
        (leafAt (leavesOfRecords sha256 toVec records) 0) (records.length / n)
        (path (Merkle.hashPair sha256) (leavesOfRecords sha256 toVec records) 0)).map
          pairInput := by
  simp only [hashedInputs, List.mem_append, or_assoc, leavesOfRecords, List.length_map]

theorem leafAt_leavesOfRecords {i : ℕ} (hi : i < records.length) :
    leafAt (leavesOfRecords sha256 toVec records) i =
      Bsv.doubleSha256 sha256 (toVec records[i]) := by
  have hlen : i < (leavesOfRecords sha256 toVec records).length := by
    simpa [leavesOfRecords] using hi
  rw [leafAt_eq_getElem hlen]
  exact List.getElem_map _

/-- Two different records with one leaf collide. -/
theorem collides_of_leaf_eq (htoVec : Function.Injective toVec) (hnodup : records.Nodup)
    {i j : ℕ} (hi : i < records.length) (hj : j < records.length) (hne : i ≠ j)
    (hleaf : leafAt (leavesOfRecords sha256 toVec records) i =
      leafAt (leavesOfRecords sha256 toVec records) j) :
    Bsv.Collides sha256 (records.map toVec) (records.map toVec) := by
  rw [leafAt_leavesOfRecords hi, leafAt_leavesOfRecords hj] at hleaf
  refine ⟨_, List.mem_map_of_mem (List.getElem_mem hi), _, List.mem_map_of_mem
    (List.getElem_mem hj), fun heq => hne ?_, hleaf⟩
  exact (List.Nodup.getElem_inj_iff hnodup).1 (htoVec heq)

/-- A fault that the hash lets pass shows a collision between inputs of the study, or the
    wrong root to be the root of the population. -/
theorem coincidence_of_missedFault (htoVec : Function.Injective toVec) (hnodup : records.Nodup)
    (hn : n ≤ records.length) {name : String}
    (hmissed : missedFault sha256 (leavesOfRecords sha256 toVec records) n = some name) :
    rootOf (Merkle.hashPair sha256) (leavesOfRecords sha256 toVec records) = badRoot ∨
      Bsv.Collides sha256 (hashedInputs sha256 toVec records n)
        (hashedInputs sha256 toVec records n) := by
  have hlength : (leavesOfRecords sha256 toVec records).length = records.length :=
    List.length_map _
  rw [missedFault] at hmissed
  split at hmissed
  · next htampered =>
    have hpos : 0 < (leavesOfRecords sha256 toVec records).length := by
      rw [hlength]
      exact (Nat.pos_of_ne_zero htampered.1).trans_le hn
    refine .inr ((collides_of_collision
      (collision_of_tamperedAccepted hpos htampered.2)).mono ?_ ?_)
    · exact fun input hin => mem_hashedInputs.2 (.inr (.inr (.inl hin)))
    · exact fun input hin => mem_hashedInputs.2 (.inr (.inl hin))
  · split at hmissed
    · next hmoved =>
      obtain ⟨htwo, haccepted⟩ := hmoved
      have hpos : 0 < records.length := by omega
      have hj : records.length / n < records.length := Nat.div_lt_self hpos (by omega)
      rw [hlength] at haccepted
      rcases collision_of_movedAccepted (by rwa [hlength]) haccepted with hleaf | hc
      · have hne : 0 ≠ records.length / n := (Nat.div_pos hn (by omega)).ne
        have hrecords : records.map toVec ⊆ hashedInputs sha256 toVec records n :=
          fun input hin => mem_hashedInputs.2 (.inl hin)
        exact .inr ((collides_of_leaf_eq htoVec hnodup hpos hj hne hleaf).mono hrecords hrecords)
      · refine .inr ((collides_of_collision hc).mono ?_ ?_)
        · exact fun input hin => mem_hashedInputs.2 (.inr (.inr (.inr hin)))
        · exact fun input hin => mem_hashedInputs.2 (.inr (.inl hin))
    · split at hmissed
      · next hroot => exact .inl hroot.2
      · cases hmissed

end Inputs

/-! ## Generated populations -/

section Generated

variable {overflowChecks : Bool} {m : ℕ} {draws : Draws}

/-- The id of every record is its position. -/
def Numbered (records : List AccountingRecord) : Prop :=
  ∀ ⦃i : ℕ⦄ ⦃r : AccountingRecord⦄, records[i]? = some r → r.id.toNat = i

/-- Numbered records are all different. -/
theorem Numbered.nodup {records : List AccountingRecord} (hnumbered : Numbered records) :
    records.Nodup := by
  rw [List.nodup_iff_getElem?_ne_getElem?]
  intro i j hij hj heq
  have hi := hnumbered (heq.trans (List.getElem?_eq_getElem hj))
  have hj' := hnumbered (List.getElem?_eq_getElem hj)
  exact hij.ne (hi.symm.trans hj')

/-- The records of a generated population are numbered. -/
theorem numbered_recordsOf (draws : Draws) {ts : List (RecordKind × ℕ)}
    (hlen : ts.length < 2 ^ 32) : Numbered (recordsOf draws ts) := by
  intro i r hr
  rw [recordsOf, List.getElem?_map, Option.map_eq_some_iff] at hr
  obtain ⟨⟨t, j⟩, ht, rfl⟩ := hr
  obtain ⟨hi, heq⟩ := List.getElem?_eq_some_iff.1 ht
  rw [List.length_zipIdx] at hi
  rw [List.getElem_zipIdx, Nat.zero_add] at heq
  obtain ⟨-, rfl⟩ := Prod.mk.inj heq
  exact UInt32.toNat_ofNat_of_lt' (hi.trans hlen)

/-- Every value drawn is positive. -/
theorem drawValue_ne_zero (draws : Draws) (kind : RecordKind) (i : ℕ) :
    draws.drawValue kind i ≠ 0 := by
  intro hzero
  have hlow := (drawValue_bounds draws kind i).1
  rw [hzero] at hlow
  cases kind <;> exact absurd hlow (by decide)

theorem value_ne_zero_of_mem {draws : Draws} {ts : List (RecordKind × ℕ)} {r : AccountingRecord}
    (hr : r ∈ recordsOf draws ts) : r.value ≠ 0 := by
  obtain ⟨t, -, rfl⟩ := List.mem_map.1 hr
  exact drawValue_ne_zero draws t.1.1 t.1.2

/-- The names of the faults injected with a sample of `n` records. -/
def faultNames (n : ℕ) : List String :=
  ["altered_record_value", "omitted_record", "duplicated_record"] ++
    ((if n = 0 then [] else ["tampered_merkle_leaf"]) ++
      ((if n < 2 then [] else ["wrong_index"]) ++ (if n = 0 then [] else ["wrong_root"])))

/-- The report of a study that finds a sample of `n` records in order, and every fault. -/
structure Report.Passed (report : Report) (summary : PopulationSummary) (n : ℕ) : Prop where
  population_eq : report.population = summary
  inclusion_eq : report.inclusionSample = n ∧ report.inclusionPassed = n
  disclosure_eq : report.selectiveDisclosureChecks = n ∧ report.selectiveDisclosurePassed = n
  holds : report.rollForwardHolds = true
  faults_eq : report.faults = (faultNames n).map fun name => ⟨name, 1, 1, 0, 0⟩
  origin_eq : report.originFalsehoodInjected = 1 ∧ report.originFalsehoodDetected = 0

/-- A fault in a proof that is not accepted is detected. -/
theorem proofFault_of_rejected {skipped accepted : Prop} [Decidable skipped] [Decidable accepted]
    (name : String) (hrejected : ¬(¬skipped ∧ accepted)) :
    (if skipped then [] else [proofFault name (decide ¬accepted)]) =
      (if skipped then [] else [name]).map fun name => (⟨name, 1, 1, 0, 0⟩ : FaultClass) := by
  by_cases hskipped : skipped
  · rw [if_pos hskipped, if_pos hskipped]
    rfl
  · have hrejected : ¬accepted := fun haccepted => hrejected ⟨hskipped, haccepted⟩
    rw [if_neg hskipped, if_neg hskipped, decide_eq_true hrejected]
    rfl

theorem missedFault_eq_none_iff {n : ℕ} : missedFault sha256 leaves n = none ↔
    ¬(¬n = 0 ∧ TamperedAccepted sha256 leaves) ∧
      ¬(¬n < 2 ∧ MovedAccepted sha256 leaves (leaves.length / n)) ∧
      ¬(¬n = 0 ∧ rootOf (Merkle.hashPair sha256) leaves = badRoot) := by
  rw [missedFault]
  split_ifs <;> simp_all

theorem passed_reportOf {inclusionSample : ℕ} {records : List AccountingRecord}
    {summary : PopulationSummary}
    (hnone : missedFault sha256 (leavesOfRecords sha256 toVec records)
      (min inclusionSample records.length) = none) :
    (reportOf sha256 toVec inclusionSample records summary).Passed summary
      (min inclusionSample records.length) where
  population_eq := rfl
  inclusion_eq := ⟨rfl, rfl⟩
  disclosure_eq := ⟨rfl, rfl⟩
  holds := rfl
  faults_eq := by
    obtain ⟨htampered, hmoved, hroot⟩ := missedFault_eq_none_iff.1 hnone
    simp only [reportOf, proofFaults, faultNames, List.map_append, List.append_assoc,
      proofFault_of_rejected _ htampered, proofFault_of_rejected _ hmoved,
      proofFault_of_rejected _ hroot]
    rfl
  origin_eq := ⟨rfl, rfl⟩

/-- The study of a clean population passes, with the whole sample in order and every
    fault detected, unless two different inputs it hashes collide, or the root of the
    population is the wrong root of the study. Without any record, it panics. -/
theorem study_passes (sha256 : Bytes → Hash) (toVec : AccountingRecord → Bytes)
    (overflowChecks : Bool) (m inclusionSample : ℕ) (draws : Draws) (originDraw : UInt64)
    (htoVec : Function.Injective toVec) (hm : m < 2 ^ 32)
    (hclean : GeneratesClean overflowChecks m draws) :
    (m = 0 → study sha256 overflowChecks toVec m inclusionSample draws originDraw =
      .error .panicked) ∧
    (0 < m → ∃ records summary,
      generatePopulation overflowChecks m draws = .ok (records, summary) ∧
      ((∃ report, study sha256 overflowChecks toVec m inclusionSample draws originDraw =
          .ok report ∧ report.Passed summary (min inclusionSample m)) ∨
        rootOf (Merkle.hashPair sha256) (leavesOfRecords sha256 toVec records) = badRoot ∨
        Bsv.Collides sha256 (hashedInputs sha256 toVec records (min inclusionSample m))
          (hashedInputs sha256 toVec records (min inclusionSample m)))) := by
  obtain ⟨records, summary, hgenerate, hclean⟩ := hclean
  have hstudy : study sha256 overflowChecks toVec m inclusionSample draws originDraw =
      studyPopulation sha256 overflowChecks toVec inclusionSample originDraw records summary := by
    rw [study, hgenerate]
    rfl
  obtain ⟨-, arClose, -, hp⟩ := generatePopulation_eq_ok_iff.1 hgenerate
  obtain ⟨hrecords, -⟩ := Prod.mk.inj hp
  have hrecordsOf : records = recordsOf draws (turns (kinds m)) := hrecords.symm
  have hlength : records.length = m := by rw [hrecordsOf, length_recordsOf, length_turns]
  rw [hstudy]
  constructor
  · rintro rfl
    obtain rfl := List.length_eq_zero_iff.1 hlength
    -- The first fault alters a record that is not there.
    simp only [studyPopulation, hclean.holds, Bool.true_eq_false, if_false, List.length_nil,
      Nat.min_zero]
    rfl
  · intro hpos
    refine ⟨records, summary, hgenerate, ?_⟩
    obtain ⟨first, rest, rfl⟩ := List.exists_cons_of_length_pos (hlength.symm ▸ hpos)
    have hvalue : first.value ≠ 0 :=
      value_ne_zero_of_mem (hrecordsOf ▸ List.mem_cons_self)
    have hnodup : (first :: rest).Nodup :=
      hrecordsOf ▸ (numbered_recordsOf draws (by rwa [length_turns])).nodup
    rw [studyPopulation_eq (hlength.symm ▸ hm) hclean.holds hvalue]
    cases hmissed : missedFault sha256 (leavesOfRecords sha256 toVec (first :: rest))
        (min inclusionSample (first :: rest).length) with
    | none => exact .inl ⟨_, rfl, hlength ▸ passed_reportOf hmissed⟩
    | some name =>
      rw [hlength] at hmissed
      exact .inr (coincidence_of_missedFault htoVec hnodup (hlength ▸ min_le_right _ _) hmissed)

theorem study_passes_eight : ∃ records summary,
    generatePopulation true 8 scarceDraws = .ok (records, summary) ∧
      ((∃ report, study Sha256.digest true AccountingRecord.canonicalBytes 8 256 scarceDraws 0 =
          .ok report ∧ report.Passed summary 8) ∨
        rootOf (Merkle.hashPair Sha256.digest)
          (leavesOfRecords Sha256.digest AccountingRecord.canonicalBytes records) = badRoot ∨
        Bsv.Collides Sha256.digest
          (hashedInputs Sha256.digest AccountingRecord.canonicalBytes records 8)
          (hashedInputs Sha256.digest AccountingRecord.canonicalBytes records 8)) := by
  have hfit : TotalsFit 8 scarceDraws := ⟨by decide, fun kind => by cases kind <;> decide⟩
  have hclean : GeneratesClean true 8 scarceDraws :=
    clean_of_solvent hfit (fun _ => by decide) (by decide)
  exact (study_passes Sha256.digest AccountingRecord.canonicalBytes true 8 256 scarceDraws 0
    canonicalBytes_injective (by decide) hclean).2 (by decide)

end Generated

end Vaa.Simstudy
