import Vaa.ProofStore.Basic
import Vaa.Segments

/-!
# Shards

`shard_proof` cuts the siblings of a proof at the predetermined level, and keeps the
parts that are not empty. Whatever the level, its shards cover the levels of the proof,
from the leaf to the root (`covers_shardProof`): they are a partition of its siblings,
from which the proof is reassembled (`shardProof_partition`).
-/

namespace Vaa.ProofStore

open Segments Merkle

/-- The shards of a proof cover its levels. -/
theorem covers_shardProof (proof : MerkleProof) (k : ℕ) :
    Covers ProofShard.fromLevel ProofShard.toLevel ProofShard.siblings proof.siblings 0
      (shardProof proof k) proof.siblings.length := by
  simp only [shardProof]
  by_cases hdepth : proof.siblings.length = 0
  · rw [if_pos hdepth, hdepth]
    exact .nil 0
  · rw [if_neg hdepth]
    have hle : min k proof.siblings.length ≤ proof.siblings.length := min_le_right _ _
    generalize min k proof.siblings.length = m at hle
    -- The part from the cut on, if there is one.
    have hupper : Covers ProofShard.fromLevel ProofShard.toLevel ProofShard.siblings
        proof.siblings m
        (if m < proof.siblings.length then
          [{ fromLevel := m, toLevel := proof.siblings.length, siblings := proof.siblings.drop m }]
        else []) proof.siblings.length := by
      rcases hle.eq_or_lt with rfl | hlt
      · rw [if_neg (Nat.lt_irrefl _)]
        exact .nil _
      · rw [if_pos hlt]
        exact .cons rfl hlt (by rw [List.take_length]) (.nil _)
    rcases Nat.eq_zero_or_pos m with rfl | hpos
    · rw [if_neg (Nat.lt_irrefl 0)]
      exact hupper
    · rw [if_pos hpos]
      exact .cons rfl hpos rfl hupper

/-- The shards of a proof recombine into its siblings. -/
theorem flatMap_shardProof (proof : MerkleProof) (k : ℕ) :
    (shardProof proof k).flatMap (fun shard => shard.siblings) = proof.siblings := by
  rw [(covers_shardProof proof k).flatMap_part, List.take_length, List.drop_zero]

/-- The cut is at the predetermined level, when this level is strictly inside the proof. -/
theorem shardProof_of_inside {proof : MerkleProof} {k : ℕ} (hpos : 0 < min k proof.siblings.length)
    (hlt : min k proof.siblings.length < proof.siblings.length) : shardProof proof k =
      [{ fromLevel := 0, toLevel := min k proof.siblings.length
         siblings := proof.siblings.take (min k proof.siblings.length) },
        { fromLevel := min k proof.siblings.length, toLevel := proof.siblings.length
          siblings := proof.siblings.drop (min k proof.siblings.length) }] := by
  have hdepth : proof.siblings.length ≠ 0 := (hpos.trans hlt).ne'
  rw [shardProof]
  simp only [if_neg hdepth, if_pos hpos, if_pos hlt]
  rfl

/-- Sharding is a partition: the shards are not empty, each has the siblings of its
    levels, the first one starts at the leaf, each goes on where the one before ends, and
    the last one ends at the root; the first one ends at the cut when this is inside the
    proof; and they are reassembled into the proof. -/
theorem shardProof_partition (proof : MerkleProof) (k : ℕ) :
    (∀ shard ∈ shardProof proof k, shard.siblings ≠ [] ∧
      shard.fromLevel + shard.siblings.length = shard.toLevel ∧
      shard.siblings = (proof.siblings.take shard.toLevel).drop shard.fromLevel) ∧
    (∀ shard, (shardProof proof k).head? = some shard → shard.fromLevel = 0) ∧
    (shardProof proof k).IsChain (fun shard next => shard.toLevel = next.fromLevel) ∧
    (∀ shard, (shardProof proof k).getLast? = some shard →
      shard.toLevel = proof.siblings.length) ∧
    (shardProof proof k = [] ↔ proof.siblings = []) ∧
    (0 < min k proof.siblings.length → min k proof.siblings.length < proof.siblings.length →
      ∃ shard, (shardProof proof k).head? = some shard ∧
        shard.toLevel = min k proof.siblings.length) ∧
    ∀ key root, StoredProof.reassemble
      { key := key, leafIndex := proof.leafIndex, shards := shardProof proof k
        expectedRoot := root } = proof := by
  have hcovers := covers_shardProof proof k
  refine ⟨fun shard hshard => ?_, fun shard => hcovers.lo_of_head?, hcovers.isChain,
    fun shard => hcovers.hi_of_getLast?, ?_, fun hpos hlt => ?_, fun key root => ?_⟩
  · obtain ⟨hlt, -, hsiblings⟩ := hcovers.of_mem hshard
    have hlen := hcovers.length_part le_rfl hshard
    refine ⟨?_, hlen, hsiblings⟩
    rintro hnil
    rw [hnil, List.length_nil, Nat.add_zero] at hlen
    exact hlt.ne hlen
  · rw [hcovers.eq_nil_iff, eq_comm, List.length_eq_zero_iff]
  · rw [shardProof_of_inside hpos hlt]
    exact ⟨_, rfl, rfl⟩
  · rw [StoredProof.reassemble, flatMap_shardProof]

end Vaa.ProofStore
