import Vaa.Simstore.Report

/-!
# What the shards save

`measure_store_bytes` splits the shards of the proofs at a level: the lower parts are
counted each time, the upper ones each time, once, or not at all. Whatever the proofs, the
three figures are in order, and they are equal only where no upper part is found twice, or
none has any sibling; in full, the store holds what the verifiers are sent, and at least what
those with the labels are sent (`measured_bytes`).
-/

namespace Vaa.Simstore

open ProofStore

/-! ## Counting once -/

section Distinct

variable {α : Type*} [DecidableEq α]

theorem le_count_smul {l : List α} {v : α} (hv : v ∈ l.toFinset) (n : ℕ) :
    n ≤ l.count v • n := by
  rw [smul_eq_mul]
  exact Nat.le_mul_of_pos_left n (List.count_pos_iff.2 (List.mem_toFinset.1 hv))

/-- Counted once each, the entries of a list weigh at most as much. -/
theorem sum_toFinset_le (l : List α) (f : α → ℕ) : ∑ v ∈ l.toFinset, f v ≤ (l.map f).sum := by
  rw [Finset.sum_list_map_count]
  exact Finset.sum_le_sum fun v hv => le_count_smul hv (f v)

/-- They weigh as much exactly if those of some weight are different. -/
theorem sum_toFinset_eq_iff (l : List α) (f : α → ℕ) :
    ∑ v ∈ l.toFinset, f v = (l.map f).sum ↔ (l.filter fun v => f v ≠ 0).Nodup := by
  rw [Finset.sum_list_map_count, Finset.sum_eq_sum_iff_of_le fun v hv => le_count_smul hv (f v),
    List.nodup_iff_count_eq_one]
  simp only [List.mem_toFinset, List.mem_filter, decide_eq_true_eq, smul_eq_mul, and_imp]
  refine forall₂_congr fun v _ => ?_
  by_cases hf : f v = 0
  · -- An entry without weight may be found any number of times.
    simp [hf]
  · have hcount : (l.filter fun v => f v ≠ 0).count v = l.count v :=
      List.count_filter (decide_eq_true hf)
    rw [eq_comm, mul_eq_right₀ hf, hcount]
    exact ⟨fun hone _ => hone, fun hone => hone hf⟩

end Distinct

/-! ## The parts of the proofs -/

/-- The siblings of the shards that start below the level. -/
def lowerParts (k : ℕ) (shards : List ProofShard) : List (List Hash) :=
  (shards.filter fun s => s.fromLevel < k).map fun s => s.siblings

/-- The siblings of the other shards. -/
def upperParts (k : ℕ) (shards : List ProofShard) : List (List Hash) :=
  (shards.filter fun s => ¬s.fromLevel < k).map fun s => s.siblings

/-- The bytes of some siblings. -/
def partBytes (part : List Hash) : ℕ := part.length * hashBytes

/-- The bytes of some parts. -/
def bytesOf (parts : List (List Hash)) : ℕ := (parts.map partBytes).sum

section Parts

variable {s : ProofShard} {shards : List ProofShard} {k : ℕ}

theorem parts_cons_of_lt (hs : s.fromLevel < k) :
    lowerParts k (s :: shards) = s.siblings :: lowerParts k shards ∧
      upperParts k (s :: shards) = upperParts k shards := by
  constructor
  · rw [lowerParts, List.filter_cons_of_pos (by simpa using hs), List.map_cons, lowerParts]
  · rw [upperParts, List.filter_cons_of_neg (by simpa using hs), upperParts]

theorem parts_cons_of_not_lt (hs : ¬s.fromLevel < k) :
    lowerParts k (s :: shards) = lowerParts k shards ∧
      upperParts k (s :: shards) = s.siblings :: upperParts k shards := by
  constructor
  · rw [lowerParts, List.filter_cons_of_neg (by simpa using hs), lowerParts]
  · rw [upperParts, List.filter_cons_of_pos (by simpa using hs), List.map_cons, upperParts]

theorem bytesOf_cons (part : List Hash) (parts : List (List Hash)) :
    bytesOf (part :: parts) = partBytes part + bytesOf parts := by
  rw [bytesOf, List.map_cons, List.sum_cons, bytesOf]

/-- The bytes of the shards are those of their parts. -/
theorem bytesOf_parts (shards : List ProofShard) (k : ℕ) :
    (shards.map fun s => s.siblings.length * hashBytes).sum =
      bytesOf (lowerParts k shards) + bytesOf (upperParts k shards) := by
  induction shards with
  | nil => rfl
  | cons s shards ih =>
    rw [List.map_cons, List.sum_cons, ih]
    by_cases hs : s.fromLevel < k
    · rw [(parts_cons_of_lt hs).1, (parts_cons_of_lt hs).2, bytesOf_cons, partBytes]
      exact (Nat.add_assoc ..).symm
    · rw [(parts_cons_of_not_lt hs).1, (parts_cons_of_not_lt hs).2, bytesOf_cons, partBytes]
      exact Nat.add_left_comm ..

/-- The loop counts the lower parts and collects the upper ones. -/
theorem foldl_measureShard_parts (shards : List ProofShard) (k : ℕ)
    (acc : ℕ × Finset (List Hash)) : shards.foldl (measureShard k) acc =
      (acc.1 + bytesOf (lowerParts k shards), acc.2 ∪ (upperParts k shards).toFinset) := by
  induction shards generalizing acc with
  | nil => exact Prod.ext rfl (Finset.union_empty _).symm
  | cons s shards ih =>
    rw [List.foldl_cons, ih, measureShard]
    by_cases hs : s.fromLevel < k
    · rw [if_pos hs, (parts_cons_of_lt hs).1, (parts_cons_of_lt hs).2, bytesOf_cons, partBytes,
        Nat.add_assoc]
    · rw [if_neg hs, (parts_cons_of_not_lt hs).1, (parts_cons_of_not_lt hs).2,
        List.toFinset_cons, Finset.insert_union, Finset.union_insert]

/-- The shards of some proofs. -/
def shardsOf (stored : List StoredProof) : List ProofShard := stored.flatMap fun p => p.shards

/-- The figures, from the parts of the proofs. -/
theorem measureStoreBytes_parts (stored : List StoredProof) (k a : ℕ) :
    measureStoreBytes stored k a =
      (bytesOf (lowerParts k (shardsOf stored)) + bytesOf (upperParts k (shardsOf stored)) + a,
        bytesOf (lowerParts k (shardsOf stored)) +
          ∑ v ∈ (upperParts k (shardsOf stored)).toFinset, partBytes v + a,
        bytesOf (lowerParts k (shardsOf stored)) + a) := by
  have hfold : stored.foldl (fun acc p => p.shards.foldl (measureShard k) acc)
      ((0, ∅) : ℕ × Finset (List Hash)) =
      (bytesOf (lowerParts k (shardsOf stored)), (upperParts k (shardsOf stored)).toFinset) := by
    rw [← List.foldl_flatMap, ← shardsOf, foldl_measureShard_parts, Nat.zero_add,
      Finset.empty_union]
  rw [measureStoreBytes, hfold, ← shardsOf, bytesOf_parts]
  rfl

/-- What an assisted retrieval takes is the lower parts, and the index. -/
theorem retrievalAssistedBytes_parts (p : StoredProof) (k : ℕ) :
    retrievalAssistedBytes p k = bytesOf (lowerParts k p.shards) + 8 := by
  rw [retrievalAssistedBytes, bytesOf, lowerParts, List.map_map]
  rfl

end Parts

/-! ## The figures of a store -/

section Figures

variable {stored stored' : List StoredProof} {p : StoredProof} {k a : ℕ}

theorem shardsOf_cons (p : StoredProof) (stored : List StoredProof) :
    shardsOf (p :: stored) = p.shards ++ shardsOf stored := List.flatMap_cons

theorem bytesOf_lowerParts_append (k : ℕ) (shards shards' : List ProofShard) :
    bytesOf (lowerParts k (shards ++ shards')) =
      bytesOf (lowerParts k shards) + bytesOf (lowerParts k shards') := by
  simp only [bytesOf, lowerParts, List.filter_append, List.map_append, List.sum_append]

/-- The lower parts of the store are what the assisted retrievals take. -/
theorem sum_retrievalAssistedBytes (stored : List StoredProof) (k : ℕ) :
    (stored.map fun p => retrievalAssistedBytes p k).sum =
      bytesOf (lowerParts k (shardsOf stored)) + stored.length * 8 := by
  induction stored with
  | nil => rfl
  | cons p stored ih =>
    rw [List.map_cons, List.sum_cons, ih, retrievalAssistedBytes_parts, shardsOf_cons,
      bytesOf_lowerParts_append, List.length_cons]
    omega

/-- So are all of the siblings, for the other ones. -/
theorem sum_retrievalAdversarialBytes (stored : List StoredProof) :
    (stored.map retrievalAdversarialBytes).sum =
      (stored.map fun p => proofTotalSiblings p * hashBytes).sum + stored.length * 8 := by
  induction stored with
  | nil => rfl
  | cons p stored ih =>
    rw [List.map_cons, List.sum_cons, ih, List.map_cons, List.sum_cons, List.length_cons,
      retrievalAdversarialBytes]
    omega

/-- The figures do not depend on the order of the proofs. -/
theorem measureStoreBytes_perm (hperm : stored'.Perm stored) (k a : ℕ) :
    measureStoreBytes stored' k a = measureStoreBytes stored k a := by
  have hshards : (shardsOf stored').Perm (shardsOf stored) := hperm.flatMap_right _
  have hlower : bytesOf (lowerParts k (shardsOf stored')) =
      bytesOf (lowerParts k (shardsOf stored)) :=
    (((hshards.filter _).map _).map _).sum_eq
  have hupper : (upperParts k (shardsOf stored')).Perm (upperParts k (shardsOf stored)) :=
    (hshards.filter _).map _
  have hfull : bytesOf (upperParts k (shardsOf stored')) =
      bytesOf (upperParts k (shardsOf stored)) := (hupper.map _).sum_eq
  rw [measureStoreBytes_parts, measureStoreBytes_parts, hlower, hfull,
    List.toFinset_eq_of_perm _ _ hupper]

theorem partBytes_eq_zero_iff {part : List Hash} : partBytes part = 0 ↔ part = [] := by
  rw [partBytes, hashBytes, mul_eq_zero_iff_right (by decide), List.length_eq_zero_iff]

/-- A proof that is in the store adds no upper part to it. -/
theorem toFinset_upperParts_cons (hp : p ∈ stored) :
    (upperParts k (shardsOf (p :: stored))).toFinset =
      (upperParts k (shardsOf stored)).toFinset := by
  ext v
  simp only [upperParts, List.mem_toFinset, List.mem_map, List.mem_filter, shardsOf,
    List.mem_flatMap, List.exists_mem_cons_iff]
  constructor
  · rintro ⟨s, ⟨hs, hlevel⟩, rfl⟩
    rcases hs with hs | hs
    · exact ⟨s, ⟨⟨p, hp, hs⟩, hlevel⟩, rfl⟩
    · exact ⟨s, ⟨hs, hlevel⟩, rfl⟩
  · rintro ⟨s, ⟨hs, hlevel⟩, rfl⟩
    exact ⟨s, ⟨.inr hs, hlevel⟩, rfl⟩

/-- The figures of any proofs: in order, with equality exactly where no part above the level
    with any sibling is found twice, and where there is none. The store holds in full what
    the adversarial retrievals take, and at least what the assisted ones take, but for the
    indices; the order of the proofs does not matter, and a proof stored twice is charged an
    assisted retrieval only. -/
theorem measured_bytes (stored : List StoredProof) (k a : ℕ) :
    ∃ noDedup upperDedup minimumViable,
      measureStoreBytes stored k a = (noDedup, upperDedup, minimumViable) ∧
      minimumViable ≤ upperDedup ∧ upperDedup ≤ noDedup ∧
      (upperDedup = noDedup ↔
        ((upperParts k (shardsOf stored)).filter fun v => v ≠ []).Nodup) ∧
      (minimumViable = upperDedup ↔ ∀ v ∈ upperParts k (shardsOf stored), v = []) ∧
      noDedup + stored.length * 8 = (stored.map retrievalAdversarialBytes).sum + a ∧
      minimumViable + stored.length * 8 =
        (stored.map fun p => retrievalAssistedBytes p k).sum + a ∧
      (∀ stored', stored'.Perm stored →
        measureStoreBytes stored' k a = (noDedup, upperDedup, minimumViable)) ∧
      ∀ p ∈ stored, (measureStoreBytes (p :: stored) k a).2.1 + 8 =
        upperDedup + retrievalAssistedBytes p k := by
  have hfull := measureStoreBytes_fst stored k a
  have hparts := measureStoreBytes_parts stored k a
  refine ⟨_, _, _, hparts, ?_, ?_, ?_, ?_, ?_, ?_, fun stored' hperm => ?_, fun p hp => ?_⟩
  · omega
  · have hle := sum_toFinset_le (upperParts k (shardsOf stored)) partBytes
    rw [← bytesOf] at hle
    omega
  · have heq := sum_toFinset_eq_iff (upperParts k (shardsOf stored)) partBytes
    rw [← bytesOf] at heq
    simp only [ne_eq, partBytes_eq_zero_iff] at heq
    rw [Nat.add_right_cancel_iff, Nat.add_left_cancel_iff, heq]
  · rw [Nat.add_right_cancel_iff, Nat.left_eq_add, Finset.sum_eq_zero_iff]
    simp only [List.mem_toFinset, partBytes_eq_zero_iff]
  · rw [hparts] at hfull
    rw [sum_retrievalAdversarialBytes]
    omega
  · rw [sum_retrievalAssistedBytes]
    omega
  · rw [measureStoreBytes_perm hperm, hparts]
  · have hlower : bytesOf (lowerParts k (shardsOf (p :: stored))) =
        bytesOf (lowerParts k p.shards) + bytesOf (lowerParts k (shardsOf stored)) := by
      rw [shardsOf_cons, bytesOf_lowerParts_append]
    rw [measureStoreBytes_parts, toFinset_upperParts_cons hp, hlower,
      retrievalAssistedBytes_parts]
    simp only
    omega

end Figures

end Vaa.Simstore
