import Vaa.Simstore.Storage
import Vaa.Json

/-!
# The report of the study

`study` is the body of `main`: it anchors, queries and measures, verifies every stored
proof in both modes, and reports the figures, which go into a vector (`Report.stable`).

The figures of a report are those of the formulas (`study_eq`), whatever the leaves: they
follow from the numbers of leaves and of queries and from the predetermined level, but
for the bytes with equal upper shards counted once (`Figures.Consistent`).
-/

namespace Vaa.Simstore

open PairTree Merkle ProofStore Cli Json

/-! ## Figures -/

/-- The figures of a vector that the numbers of leaves and of queries and the
    predetermined level determine. -/
structure Figures where
  nLeaves : ℕ
  qQueries : ℕ
  predeterminedLevel : ℕ
  treeDepth : ℕ
  baselineBytesFormula : ℕ
  baselineBytesRealised : ℕ
  storeHeldBytesNoDedup : ℕ
  minimumViableBytes : ℕ
  assistanceBytes : ℕ
  deriving DecidableEq, Repr

/-- The figures are those the study computes. -/
structure Figures.Consistent (f : Figures) : Prop where
  treeDepth_eq : f.treeDepth = ceilLog2 f.nLeaves
  formula_eq : f.baselineBytesFormula = f.qQueries * f.treeDepth * 32
  realised_eq : f.baselineBytesRealised = f.qQueries * f.treeDepth * 32
  assistance_eq :
    f.assistanceBytes = 32 * (f.nLeaves ⌈/⌉ 2 ^ min f.predeterminedLevel f.treeDepth)
  noDedup_eq : f.storeHeldBytesNoDedup = f.qQueries * f.treeDepth * 32 + f.assistanceBytes
  minimumViable_eq : f.minimumViableBytes =
    32 * f.qQueries * min f.predeterminedLevel f.treeDepth + f.assistanceBytes

/-- `Report`, less the durations and what is only printed. -/
structure Report extends Figures where
  storeHeldBytesUpperDedup : ℕ
  retrievalAdversarialBytes : ℕ
  retrievalAssistedBytes : ℕ
  seed : ℕ
  deriving DecidableEq, Repr

/-- `stable`: the vector written. -/
def Report.stable (report : Report) : Value :=
  .object [
    ("n_leaves", .ofNat report.nLeaves),
    ("q_queries", .ofNat report.qQueries),
    ("predetermined_level", .ofNat report.predeterminedLevel),
    ("tree_depth", .ofNat report.treeDepth),
    ("baseline_bytes_formula", .ofNat report.baselineBytesFormula),
    ("baseline_bytes_realised", .ofNat report.baselineBytesRealised),
    ("store_held_bytes_no_dedup", .ofNat report.storeHeldBytesNoDedup),
    ("store_held_bytes_upper_dedup", .ofNat report.storeHeldBytesUpperDedup),
    ("minimum_viable_bytes", .ofNat report.minimumViableBytes),
    ("assistance_bytes", .ofNat report.assistanceBytes),
    ("retrieval_adversarial_bytes", .ofNat report.retrievalAdversarialBytes),
    ("retrieval_assisted_bytes", .ofNat report.retrievalAssistedBytes),
    ("seed", .ofNat report.seed),
    ("note", .string ("Timings are host-dependent (crypto-core/local) and omitted from " ++
      "the committed vector."))]

/-- The fields of a vector are these figures. -/
structure Carries (v : Value) (f : Figures) : Prop where
  nLeaves : v.field "n_leaves" = some f.nLeaves
  qQueries : v.field "q_queries" = some f.qQueries
  predeterminedLevel : v.field "predetermined_level" = some f.predeterminedLevel
  treeDepth : v.field "tree_depth" = some f.treeDepth
  baselineBytesFormula : v.field "baseline_bytes_formula" = some f.baselineBytesFormula
  baselineBytesRealised : v.field "baseline_bytes_realised" = some f.baselineBytesRealised
  storeHeldBytesNoDedup : v.field "store_held_bytes_no_dedup" = some f.storeHeldBytesNoDedup
  minimumViableBytes : v.field "minimum_viable_bytes" = some f.minimumViableBytes
  assistanceBytes : v.field "assistance_bytes" = some f.assistanceBytes

/-- A vector has one list of figures. -/
theorem Carries.unique {v : Value} {f f' : Figures} (hf : Carries v f) (hf' : Carries v f') :
    f = f' := by
  cases f
  cases f'
  congr 1
  · exact Option.some.inj (hf.nLeaves.symm.trans hf'.nLeaves)
  · exact Option.some.inj (hf.qQueries.symm.trans hf'.qQueries)
  · exact Option.some.inj (hf.predeterminedLevel.symm.trans hf'.predeterminedLevel)
  · exact Option.some.inj (hf.treeDepth.symm.trans hf'.treeDepth)
  · exact Option.some.inj (hf.baselineBytesFormula.symm.trans hf'.baselineBytesFormula)
  · exact Option.some.inj (hf.baselineBytesRealised.symm.trans hf'.baselineBytesRealised)
  · exact Option.some.inj (hf.storeHeldBytesNoDedup.symm.trans hf'.storeHeldBytesNoDedup)
  · exact Option.some.inj (hf.minimumViableBytes.symm.trans hf'.minimumViableBytes)
  · exact Option.some.inj (hf.assistanceBytes.symm.trans hf'.assistanceBytes)

/-- The figures are words. -/
structure Figures.Fits (f : Figures) : Prop where
  nLeaves : f.nLeaves < 2 ^ 64
  qQueries : f.qQueries < 2 ^ 64
  predeterminedLevel : f.predeterminedLevel < 2 ^ 64
  treeDepth : f.treeDepth < 2 ^ 64
  baselineBytesFormula : f.baselineBytesFormula < 2 ^ 64
  baselineBytesRealised : f.baselineBytesRealised < 2 ^ 64
  storeHeldBytesNoDedup : f.storeHeldBytesNoDedup < 2 ^ 64
  minimumViableBytes : f.minimumViableBytes < 2 ^ 64
  assistanceBytes : f.assistanceBytes < 2 ^ 64

/-- The vector written has the figures of the report. -/
theorem carries_stable {report : Report} (hfits : report.toFigures.Fits) :
    Carries report.stable report.toFigures where
  nLeaves := Value.toNat_asU64_ofNat hfits.nLeaves
  qQueries := Value.toNat_asU64_ofNat hfits.qQueries
  predeterminedLevel := Value.toNat_asU64_ofNat hfits.predeterminedLevel
  treeDepth := Value.toNat_asU64_ofNat hfits.treeDepth
  baselineBytesFormula := Value.toNat_asU64_ofNat hfits.baselineBytesFormula
  baselineBytesRealised := Value.toNat_asU64_ofNat hfits.baselineBytesRealised
  storeHeldBytesNoDedup := Value.toNat_asU64_ofNat hfits.storeHeldBytesNoDedup
  minimumViableBytes := Value.toNat_asU64_ofNat hfits.minimumViableBytes
  assistanceBytes := Value.toNat_asU64_ofNat hfits.assistanceBytes

/-! ## The study -/

section Hash

variable (sha256 : Bytes → Hash)

/-- One turn of the loop of `main` that verifies the stored proofs. -/
def verifyStored (leaves : List Hash) (indices : List ℕ) (store : ProofStore) :
    StoredProof × ℕ → Result AnyhowError Unit
  | (p, i) => do
    let index ← Result.index indices i
    let leaf ← Result.index leaves index
    ((ProofStore.verify sha256 leaf p .adversarial).mapErr ofProofStore).context
      "adversarial verify"
    ((store.verifyWithAssistance sha256 leaf p).mapErr ofProofStore).context "assisted verify"

/-- `opt.expect(..)`. -/
def expectSome {ε α : Type} (opt : Option α) : Result ε α :=
  match opt with
  | some a => .ok a
  | none => .error .panicked

/-- The body of `main`, for the leaves and the queries drawn. -/
def study (leaves : List Hash) (indices : List ℕ) (predeterminedLevel : Option ℕ) :
    Result AnyhowError Report := do
  let n := leaves.length
  let q := indices.length
  if n = 0 then
    bail "N must be >= 1"
  else
    let depth := ceilLog2 n
    let k := predeterminedLevel.getD (depth / 2)
    let store ← anchorAll sha256 leaves (new k) indices
    let stored ← queryAll leaves store indices
    let rep ← Result.index stored 0
    let root := rep.expectedRoot
    let assistance ← expectSome (store.proofAssistanceFor root)
    let assistanceBytes := assistance.nodeLabels.length * hashBytes
    let baselineFormula := q * depth * hashBytes
    let baselineRealised := (stored.map fun p => proofTotalSiblings p * hashBytes).sum
    let (shardedNo, shardedDedup, shardedMin) := measureStoreBytes stored k assistanceBytes
    let _verified ← stored.zipIdx.mapM (verifyStored sha256 leaves indices store)
    return {
      nLeaves := n
      qQueries := q
      predeterminedLevel := k
      treeDepth := depth
      baselineBytesFormula := baselineFormula
      baselineBytesRealised := baselineRealised
      storeHeldBytesNoDedup := shardedNo
      storeHeldBytesUpperDedup := shardedDedup
      minimumViableBytes := shardedMin
      assistanceBytes := assistanceBytes
      retrievalAdversarialBytes := retrievalAdversarialBytes rep
      retrievalAssistedBytes := retrievalAssistedBytes rep k
      seed := seed
    }

end Hash

variable {sha256 : Bytes → Hash} {leaves : List Hash} {indices : List ℕ} {k : ℕ}
  {store : ProofStore}

/-- The bytes of the lower shards of a proof are those counted for the store. -/
theorem foldl_measureShard_fst (shards : List ProofShard) (k : ℕ) (acc : ℕ × Finset (List Hash)) :
    (shards.foldl (measureShard k) acc).1 =
      acc.1 + ((shards.filter fun s => s.fromLevel < k).map fun s =>
        s.siblings.length * hashBytes).sum := by
  induction shards generalizing acc with
  | nil => rfl
  | cons s shards ih =>
    rw [List.foldl_cons, ih, measureShard]
    by_cases hs : s.fromLevel < k
    · rw [if_pos hs, List.filter_cons, if_pos (decide_eq_true hs), List.map_cons, List.sum_cons,
        Nat.add_assoc]
    · rw [if_neg hs, List.filter_cons, if_neg (by simpa using hs)]

/-- In an assisted retrieval, as many siblings are served as there are levels below the
    labels. -/
theorem retrievalAssistedBytes_storedOf (sha256 : Bytes → Hash) (k : ℕ) (key : IndexKey)
    (leaves : List Hash) (i : ℕ) :
    retrievalAssistedBytes (storedOf sha256 k key leaves i) k =
      min k (height leaves.length) * hashBytes + 8 := by
  have hfold := foldl_measureShard_fst (storedOf sha256 k key leaves i).shards k (0, ∅)
  have hlower := congrArg Prod.fst (foldl_measureShard
    { leafIndex := i, siblings := path (Merkle.hashPair sha256) leaves i } k (0, ∅))
  rw [length_path] at hlower
  exact congrArg (· + 8) (Nat.add_left_cancel (hfold.symm.trans hlower))

/-- The figures of the formulas. -/
def reportOf (sha256 : Bytes → Hash) (k : ℕ) (leaves : List Hash) (indices : List ℕ) :
    Report where
  nLeaves := leaves.length
  qQueries := indices.length
  predeterminedLevel := k
  treeDepth := height leaves.length
  baselineBytesFormula := indices.length * height leaves.length * hashBytes
  baselineBytesRealised := indices.length * height leaves.length * hashBytes
  storeHeldBytesNoDedup := indices.length * height leaves.length * hashBytes +
    width leaves.length (min k (height leaves.length)) * hashBytes
  storeHeldBytesUpperDedup := indices.length * (min k (height leaves.length) * hashBytes) +
    (uppers sha256 k leaves indices).card * ((height leaves.length - k) * hashBytes) +
    width leaves.length (min k (height leaves.length)) * hashBytes
  minimumViableBytes := indices.length * (min k (height leaves.length) * hashBytes) +
    width leaves.length (min k (height leaves.length)) * hashBytes
  assistanceBytes := width leaves.length (min k (height leaves.length)) * hashBytes
  retrievalAdversarialBytes := height leaves.length * hashBytes + 8
  retrievalAssistedBytes := min k (height leaves.length) * hashBytes + 8
  seed := seed

/-- The formulas are consistent. -/
theorem consistent_reportOf (sha256 : Bytes → Hash) (k : ℕ) (leaves : List Hash)
    (indices : List ℕ) : (reportOf sha256 k leaves indices).Consistent where
  treeDepth_eq := (ceilLog2_eq_height leaves.length).symm
  formula_eq := rfl
  realised_eq := rfl
  assistance_eq := by
    simp only [reportOf]
    rw [width_eq_ceilDiv, Nat.mul_comm, hashBytes]
  noDedup_eq := rfl
  minimumViable_eq := by
    simp only [reportOf, hashBytes]
    ring

/-- The stored proofs of the queries are verified, in both modes. -/
theorem exists_verified (hp : Publishes sha256 store k leaves)
    (hlt : ∀ i ∈ indices, i < leaves.length) :
    ∃ verified, (storedOfAll sha256 k leaves indices).zipIdx.mapM
      (verifyStored sha256 leaves indices store) = .ok verified := by
  refine ⟨(storedOfAll sha256 k leaves indices).zipIdx.map fun _ => (), ?_⟩
  rw [Result.mapM_eq_ok_iff, List.forall₂_map_right_iff, List.forall₂_same]
  rintro ⟨p, j⟩ hmem
  rw [List.mem_zipIdx_iff_getElem?, storedOfAll, List.getElem?_map,
    Option.map_eq_some_iff] at hmem
  obtain ⟨i, hindex, rfl⟩ := hmem
  have hi := hlt i (List.mem_of_getElem? hindex)
  simp only [verifyStored, Result.bind_eq_ok_iff, Result.context_eq_ok_iff,
    Result.mapErr_eq_ok_iff]
  refine ⟨i, Result.index_of_getElem? hindex, _, Result.index_of_getElem? (getElem?_eq_leafAt hi),
    (), ?_, (hp.verify_storedOf_iff hi rfl).2 (serves_self sha256 k hi)⟩
  rw [ProofStore.verify_eq_ok_iff, reassemble_storedOf]
  exact walk_path _ hi

/-- The study reports the figures of the formulas. -/
theorem study_eq (sha256 : Bytes → Hash) (predeterminedLevel : Option ℕ) (hne : indices ≠ [])
    (hlt : ∀ i ∈ indices, i < leaves.length) (hfits : ∀ i ∈ indices, i < 2 ^ 32) :
    study sha256 leaves indices predeterminedLevel =
      .ok (reportOf sha256 (predeterminedLevel.getD (ceilLog2 leaves.length / 2)) leaves
        indices) := by
  obtain ⟨i, rest, rfl⟩ := List.exists_cons_of_ne_nil hne
  have hi := hlt i List.mem_cons_self
  generalize hk : predeterminedLevel.getD (ceilLog2 leaves.length / 2) = k
  obtain ⟨store, hanchor, hquery, hassistance⟩ := anchorAll_eq sha256 k hlt hfits
  have hp : Publishes sha256 store k leaves := ⟨ne_nil_of_lt hi, hassistance hne⟩
  obtain ⟨verified, hverified⟩ := exists_verified hp hlt
  have hlabels : (assistanceOf sha256 k leaves).nodeLabels.length =
      width leaves.length (min k (height leaves.length)) := by
    rw [assistanceOf, length_level, labelLevel]
  have hexpect : (expectSome (store.proofAssistanceFor (rootOf (Merkle.hashPair sha256) leaves)) :
      Result AnyhowError ProofAssistance) = .ok (assistanceOf sha256 k leaves) := by
    rw [hassistance hne]
    rfl
  simp only [study, hk, if_neg (Nat.ne_of_gt (Nat.zero_lt_of_lt hi)), Result.bind_eq_ok_iff]
  refine ⟨store, hanchor, _, hquery, storedOf sha256 k (keyFor i (leafAt leaves i)) leaves i, rfl,
    assistanceOf sha256 k leaves, hexpect, ?_⟩
  rw [measureStoreBytes_eq sha256 k _ hlt, sum_proofTotalSiblings, hlabels]
  simp only
  refine ⟨verified, hverified, ?_⟩
  rw [retrievalAdversarialBytes, proofTotalSiblings_storedOf, retrievalAssistedBytes_storedOf,
    ceilLog2_eq_height]
  rfl

end Vaa.Simstore
