import Vaa.Collect
import Vaa.Simstore.Report
import Mathlib.Data.Finset.Sort

/-!
# The queries of the study

`sample_indices` draws words until it has `q` different remainders (`sampleIndices`). It
ends exactly when the words drawn have that many, with the indices in order
(`exists_sampleIndices_iff`), and so does the study that draws its queries (`main`). What
the study ends with is then settled (`storage_study_outcome`): it bails without leaves,
panics without queries, and reports its figures otherwise.

The figures do not depend on what is drawn: two studies of the same numbers of leaves and
of queries report the same ones, but for the bytes with equal upper shards counted once
(`figures_independent_of_draws`).
-/

namespace Vaa.Simstore

open PairTree Merkle ProofStore Cli Collect

/-- `(u64::from_le_bytes(b) as usize) % n`, with `rng` drawing the words `draws`. -/
def remainder (n : ℕ) (draws : ℕ → UInt64) (t : ℕ) : ℕ := (draws t).toNat % n

/-- `sample_indices`, with fuel for its loop. -/
def sampleIndices (n q : ℕ) (draws : ℕ → UInt64) (fuel : ℕ) : Option (List ℕ) :=
  let q := min q n
  (collect (remainder n draws) q fuel ∅ 0).map fun chosen => chosen.sort

/-- `main` up to its report, with fuel for `sample_indices`. Without leaves, where `main`
    bails first, nothing is drawn. -/
def main (sha256 : Bytes → Hash) (leaves : List Hash) (q : ℕ) (predeterminedLevel : Option ℕ)
    (draws : ℕ → UInt64) (fuel : ℕ) : Option (Result AnyhowError Report) :=
  let n := leaves.length
  let q := min q n
  (sampleIndices n q draws fuel).map fun indices =>
    study sha256 leaves indices predeterminedLevel

/-! ## Sampling -/

section Sampling

variable {n q fuel : ℕ} {draws : ℕ → UInt64} {indices : List ℕ}

/-- The indices sampled: as many as asked for, in order, and in range. -/
structure Sampled (n q : ℕ) (indices : List ℕ) : Prop where
  length_eq : indices.length = min q n
  sorted : indices.SortedLT
  lt : ∀ i ∈ indices, i < n

theorem Sampled.eq_nil (hindices : Sampled n 0 indices) : indices = [] := by
  rw [← List.length_eq_zero_iff, hindices.length_eq, Nat.zero_min]

theorem sampled_of_sampleIndices (hindices : sampleIndices n q draws fuel = some indices) :
    Sampled n q indices := by
  rw [sampleIndices, Option.map_eq_some_iff] at hindices
  obtain ⟨chosen, hchosen, rfl⟩ := hindices
  refine ⟨?_, chosen.sortedLT_sort, fun i hi => ?_⟩
  · rw [Finset.length_sort, card_of_collect hchosen]
  · have hmem := (Finset.mem_sort _).1 hi
    obtain ⟨t, rfl⟩ := exists_of_mem_collect hchosen hmem
    have hcard := card_of_collect hchosen
    -- Something has been drawn, so there is a leaf.
    have hpos : 0 < chosen.card := Finset.card_pos.2 ⟨_, hmem⟩
    exact Nat.mod_lt _ (by omega)

theorem exists_sampleIndices_iff : (∃ fuel indices, sampleIndices n q draws fuel = some indices) ↔
    ∃ t, min q n ≤ (drawn (remainder n draws) t).card := by
  rw [← exists_collect_iff]
  simp only [sampleIndices, Option.map_eq_some_iff]
  constructor
  · rintro ⟨fuel, _, chosen, hchosen, -⟩
    exact ⟨fuel, chosen, hchosen⟩
  · rintro ⟨fuel, chosen, hchosen⟩
    exact ⟨fuel, _, chosen, hchosen, rfl⟩

end Sampling

/-! ## What the study ends with -/

section Outcome

variable {sha256 : Bytes → Hash} {leaves : List Hash} {q fuel : ℕ} {indices : List ℕ}
  {predeterminedLevel : Option ℕ} {draws : ℕ → UInt64} {outcome : Result AnyhowError Report}

/-- Without queries, there is no stored proof to take the root of. -/
theorem study_nil (hne : leaves ≠ []) :
    study sha256 leaves [] predeterminedLevel = .error .panicked := by
  have hlen : leaves.length ≠ 0 := fun hzero => hne (List.length_eq_zero_iff.1 hzero)
  simp only [study, if_neg hlen]
  rfl

theorem study_of_sampled (hlen : leaves.length ≤ 2 ^ 32) (hleaves : leaves ≠ []) (hq : q ≠ 0)
    (hindices : Sampled leaves.length q indices) :
    study sha256 leaves indices predeterminedLevel = .ok (reportOf sha256
      (predeterminedLevel.getD (ceilLog2 leaves.length / 2)) leaves indices) := by
  refine study_eq sha256 predeterminedLevel ?_ hindices.lt fun i hi =>
    (hindices.lt i hi).trans_le hlen
  rw [← List.length_pos_iff, hindices.length_eq]
  exact lt_min (Nat.pos_of_ne_zero hq) (List.length_pos_iff.2 hleaves)

theorem exists_sampled_of_main
    (hmain : main sha256 leaves q predeterminedLevel draws fuel = some outcome) :
    ∃ indices, Sampled leaves.length q indices ∧
      study sha256 leaves indices predeterminedLevel = outcome := by
  rw [main, Option.map_eq_some_iff] at hmain
  obtain ⟨indices, hindices, hstudy⟩ := hmain
  obtain ⟨hlength, hsorted, hlt⟩ := sampled_of_sampleIndices hindices
  exact ⟨indices, ⟨by rw [hlength, min_assoc, min_self], hsorted, hlt⟩, hstudy⟩

/-- The study ends exactly when the words drawn have as many remainders as queries. It
    bails without leaves, and panics without queries; otherwise it reports the figures of
    the indices sampled. The fuel plays no part. -/
theorem storage_study_outcome (sha256 : Bytes → Hash) (leaves : List Hash) (q : ℕ)
    (predeterminedLevel : Option ℕ) (draws : ℕ → UInt64) (hlen : leaves.length ≤ 2 ^ 32) :
    ((∃ fuel outcome, main sha256 leaves q predeterminedLevel draws fuel = some outcome) ↔
      ∃ t, min q leaves.length ≤ (drawn (remainder leaves.length draws) t).card) ∧
    (∀ fuel fuel' outcome outcome',
      main sha256 leaves q predeterminedLevel draws fuel = some outcome →
      main sha256 leaves q predeterminedLevel draws fuel' = some outcome' → outcome = outcome') ∧
    ∀ fuel outcome, main sha256 leaves q predeterminedLevel draws fuel = some outcome →
      (leaves = [] → outcome = bail "N must be >= 1") ∧
      (leaves ≠ [] → q = 0 → outcome = .error .panicked) ∧
      (leaves ≠ [] → q ≠ 0 → ∃ indices, Sampled leaves.length q indices ∧
        outcome = .ok (reportOf sha256
          (predeterminedLevel.getD (ceilLog2 leaves.length / 2)) leaves indices)) := by
  refine ⟨?_, ?_, ?_⟩
  · -- `main` takes the least number of queries, and `sample_indices` does once more.
    have hends : (∃ fuel indices,
        sampleIndices leaves.length (min q leaves.length) draws fuel = some indices) ↔ _ :=
      exists_sampleIndices_iff
    rw [min_assoc, min_self] at hends
    rw [← hends]
    simp only [main, Option.map_eq_some_iff]
    constructor
    · rintro ⟨fuel, _, indices, hindices, -⟩
      exact ⟨fuel, indices, hindices⟩
    · rintro ⟨fuel, indices, hindices⟩
      exact ⟨fuel, _, indices, hindices, rfl⟩
  · intro fuel fuel' outcome outcome' hmain hmain'
    simp only [main, sampleIndices, Option.map_eq_some_iff] at hmain hmain'
    obtain ⟨_, ⟨chosen, hchosen, rfl⟩, rfl⟩ := hmain
    obtain ⟨_, ⟨chosen', hchosen', rfl⟩, rfl⟩ := hmain'
    rw [collect_unique hchosen hchosen']
  · intro fuel outcome hmain
    obtain ⟨indices, hindices, rfl⟩ := exists_sampled_of_main hmain
    refine ⟨?_, ?_, ?_⟩
    · rintro rfl
      rfl
    · rintro hne rfl
      rw [hindices.eq_nil, study_nil hne]
    · intro hne hq
      exact ⟨indices, hindices, study_of_sampled hlen hne hq hindices⟩

theorem storage_study_outcome_four :
    (∃ fuel outcome, main Sha256.digest (List.replicate 4 (Vector.replicate 32 0)) 2 none
      UInt64.ofNat fuel = some outcome) ↔
      ∃ t, min 2 4 ≤ (drawn (remainder 4 UInt64.ofNat) t).card :=
  (storage_study_outcome Sha256.digest (List.replicate 4 (Vector.replicate 32 0)) 2 none
    UInt64.ofNat (by decide)).1

/-- A report is the one of the indices sampled. -/
theorem reportOf_of_main {report : Report} (hlen : leaves.length ≤ 2 ^ 32)
    (hmain : main sha256 leaves q predeterminedLevel draws fuel = some (.ok report)) :
    ∃ indices, Sampled leaves.length q indices ∧ report = reportOf sha256
      (predeterminedLevel.getD (ceilLog2 leaves.length / 2)) leaves indices := by
  obtain ⟨indices, hindices, hstudy⟩ := exists_sampled_of_main hmain
  by_cases hleaves : leaves = []
  · rw [hleaves] at hstudy
    cases hstudy
  by_cases hq : q = 0
  · rw [hq] at hindices
    rw [hindices.eq_nil, study_nil hleaves] at hstudy
    cases hstudy
  · rw [study_of_sampled hlen hleaves hq hindices] at hstudy
    exact ⟨indices, hindices, (Except.ok.inj hstudy).symm⟩

/-- Two studies of as many leaves and queries, with one predetermined level, report the
    same figures and the same bytes of a retrieval, whatever the hash, the leaves and the
    words drawn. -/
theorem figures_independent_of_draws (sha256 sha256' : Bytes → Hash) (leaves leaves' : List Hash)
    (q : ℕ) (predeterminedLevel : Option ℕ) (draws draws' : ℕ → UInt64) (fuel fuel' : ℕ)
    (report report' : Report) (hlength : leaves.length = leaves'.length)
    (hlen : leaves.length ≤ 2 ^ 32)
    (hreport : main sha256 leaves q predeterminedLevel draws fuel = some (.ok report))
    (hreport' : main sha256' leaves' q predeterminedLevel draws' fuel' = some (.ok report')) :
    report.toFigures = report'.toFigures ∧
      report.retrievalAdversarialBytes = report'.retrievalAdversarialBytes ∧
      report.retrievalAssistedBytes = report'.retrievalAssistedBytes := by
  obtain ⟨indices, hindices, rfl⟩ := reportOf_of_main hlen hreport
  obtain ⟨indices', hindices', rfl⟩ := reportOf_of_main (hlength ▸ hlen) hreport'
  have hqueries : indices.length = indices'.length := by
    rw [hindices.length_eq, hindices'.length_eq, hlength]
  simp only [reportOf, hlength, hqueries, and_self]

/-- Four leaves, of the bytes from `b` on. -/
def fourLeaves (b : UInt8) : List Hash := [b, b + 1, b + 2, b + 3].map (Vector.replicate 32)

/-- The study of two queries of four leaves, when the first two words drawn are those of
    the indices. -/
theorem main_four (sha256 : Bytes → Hash) (b : UInt8) {draws : ℕ → UInt64} {i j : ℕ}
    (hi : remainder 4 draws 0 = i) (hj : remainder 4 draws 1 = j) (hij : i < j) (hlt : j < 4) :
    main sha256 (fourLeaves b) 2 (some 1) draws 2 =
      some (.ok (reportOf sha256 1 (fourLeaves b) [i, j])) := by
  have hchosen : collect (remainder 4 draws) 2 2 ∅ 0 = some {j, i} := by
    simp [collect, hi, hj, hij.ne']
  have hsort : ({i, j} : Finset ℕ).sort = [i, j] := by
    rw [Finset.sort_insert _ (fun l hl => (Finset.mem_singleton.1 hl).symm ▸ hij.le)
      (fun hmem => hij.ne (Finset.mem_singleton.1 hmem)), Finset.sort_singleton]
  have hindices : sampleIndices 4 2 draws 2 = some [i, j] := by
    rw [sampleIndices, show min 2 4 = 2 from rfl, hchosen, Option.map_some, Finset.pair_comm,
      hsort]
  have hrange : ∀ l ∈ [i, j], l < (fourLeaves b).length := by
    simp only [List.forall_mem_cons, List.not_mem_nil, false_implies, implies_true, and_true]
    exact ⟨hij.trans hlt, hlt⟩
  have hstudy : study sha256 (fourLeaves b) [i, j] (some 1) =
      .ok (reportOf sha256 1 (fourLeaves b) [i, j]) :=
    study_eq sha256 (some 1) (List.cons_ne_nil i [j]) hrange fun l hl =>
      (hrange l hl).trans (show 4 < 2 ^ 32 by decide)
  change (sampleIndices 4 2 draws 2).map
    (fun indices => study sha256 (fourLeaves b) indices (some 1)) =
    some (.ok (reportOf sha256 1 (fourLeaves b) [i, j]))
  rw [hindices, Option.map_some, hstudy]

theorem figures_independent_of_draws_four :
    (reportOf Sha256.digest 1 (fourLeaves 0) [0, 1]).toFigures =
        (reportOf Sha256.digest 1 (fourLeaves 1) [2, 3]).toFigures ∧
      (reportOf Sha256.digest 1 (fourLeaves 0) [0, 1]).retrievalAdversarialBytes =
        (reportOf Sha256.digest 1 (fourLeaves 1) [2, 3]).retrievalAdversarialBytes ∧
      (reportOf Sha256.digest 1 (fourLeaves 0) [0, 1]).retrievalAssistedBytes =
        (reportOf Sha256.digest 1 (fourLeaves 1) [2, 3]).retrievalAssistedBytes :=
  figures_independent_of_draws Sha256.digest Sha256.digest (fourLeaves 0) (fourLeaves 1) 2
    (some 1) UInt64.ofNat (fun t => UInt64.ofNat (t + 6)) 2 2 _ _ rfl (by decide)
    (main_four Sha256.digest 0 rfl rfl (by decide) (by decide))
    (main_four Sha256.digest 1 rfl rfl (by decide) (by decide))

end Outcome

end Vaa.Simstore
