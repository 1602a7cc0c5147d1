import Vaa.Merkle.Basic
import Vaa.PairTree.Binding

/-!
# The tree the loops build

The loops of `vaa-merkle` compute the pair tree over the leaves: `merkleRoot` its
root (`merkleRoot_eq`), `merkleProof` the opening of a leaf (`merkleProof_eq`),
without an index out of range, and the verifier's walk is a walk up the tree
(`reconstructRoot_eq_walk`). Hence completeness: the proof of every leaf verifies
against the root (`merkleProof_verifies`).

A leaf vector is read by `leafAt`; `node`, `height` and `width` of `Vaa.PairTree`
then speak about its tree.
-/

namespace Vaa.Merkle

open PairTree

/-- The leaf at an index. -/
def leafAt (leaves : List Hash) (q : ℕ) : Hash := leaves.getD q (Vector.replicate 32 0)

/-- The node `q` of level `l` of the tree over `leaves`. -/
abbrev node (hashPair : Hash → Hash → Hash) (leaves : List Hash) (l q : ℕ) : Hash :=
  PairTree.node hashPair (leafAt leaves) leaves.length l q

/-- The root of the tree over `leaves`. -/
abbrev rootOf (hashPair : Hash → Hash → Hash) (leaves : List Hash) : Hash :=
  root hashPair (leafAt leaves) leaves.length

/-- The nodes beside the path from the leaf position `i` to the root. -/
abbrev path (hashPair : Hash → Hash → Hash) (leaves : List Hash) (i : ℕ) : List Hash :=
  opening hashPair (leafAt leaves) leaves.length 0 (height leaves.length) i

/-- The pairs hashed by `proof.reconstructRoot leaf`, from the leaf up. -/
def MerkleProof.pairs (hashPair : Hash → Hash → Hash) (proof : MerkleProof) (leaf : Hash) :
    List (Hash × Hash) :=
  walkPairs hashPair leaf proof.leafIndex proof.siblings

theorem leafAt_eq_getElem {leaves : List Hash} {q : ℕ} (hq : q < leaves.length) :
    leafAt leaves q = leaves[q] := by
  rw [leafAt, List.getD_eq_getElem?_getD, List.getElem?_eq_getElem hq, Option.getD_some]

theorem getElem?_eq_leafAt {leaves : List Hash} {q : ℕ} (hq : q < leaves.length) :
    leaves[q]? = some (leafAt leaves q) := by
  rw [leafAt_eq_getElem hq, List.getElem?_eq_getElem hq]

variable {hashPair : Hash → Hash → Hash} {leaf : ℕ → Hash} {n l i : ℕ} {leaves : List Hash}

@[simp] theorem length_path (hashPair : Hash → Hash → Hash) (leaves : List Hash) (i : ℕ) :
    (path hashPair leaves i).length = height leaves.length := length_opening ..

/-- A vector with an index is not empty. -/
theorem ne_nil_of_lt (hi : i < leaves.length) : leaves ≠ [] :=
  List.ne_nil_of_length_pos (Nat.zero_lt_of_lt hi)

/-- The leaves are the level `0` of their tree. -/
theorem level_leafAt (hashPair : Hash → Hash → Hash) (leaves : List Hash) :
    level hashPair (leafAt leaves) leaves.length 0 = leaves := by
  refine List.ext_getElem? fun q => ?_
  by_cases hq : q < leaves.length
  · rw [getElem?_level hashPair _ _ (by simpa using hq), getElem?_eq_leafAt hq,
      PairTree.node_zero]
  · rw [List.getElem?_eq_none (by simpa using hq), List.getElem?_eq_none (Nat.not_lt.1 hq)]

/-! ## The root -/

theorem merkleRootLoop_of_one_lt {level : List Hash} (hlevel : 1 < level.length) :
    merkleRootLoop hashPair level = merkleRootLoop hashPair (pairUp hashPair level) := by
  rw [merkleRootLoop, if_pos hlevel]
  rfl

theorem merkleRootLoop_level (hn : 0 < n) (hl : l ≤ height n) :
    merkleRootLoop hashPair (level hashPair leaf n l) = .ok (root hashPair leaf n) := by
  induction hl using Nat.decreasingInduction with
  | self =>
    rw [merkleRootLoop, length_level, width_height hn]
    exact Result.index_of_getElem? (getElem?_level hashPair leaf n (width_pos hn _))
  | of_succ l hl ih =>
    have hmore : 1 < width n l := (one_lt_width_iff hn).2 hl
    rw [merkleRootLoop_of_one_lt (by simpa using hmore), pairUp_level]
    exact ih

/-- `merkle_root` computes the root of the tree. -/
theorem merkleRoot_eq (hashPair : Hash → Hash → Hash) (hne : leaves ≠ []) :
    merkleRoot hashPair leaves = .ok (rootOf hashPair leaves) := by
  have hpos : 0 < leaves.length := List.length_pos_iff.2 hne
  have hloop : merkleRootLoop hashPair (level hashPair (leafAt leaves) leaves.length 0) =
      .ok (rootOf hashPair leaves) :=
    merkleRootLoop_level hpos (Nat.zero_le _)
  rw [merkleRoot, if_neg hne]
  rwa [level_leafAt] at hloop

theorem merkleRoot_nil (hashPair : Hash → Hash → Hash) :
    merkleRoot hashPair [] = .error (.err .emptyTree) := rfl

/-- `merkle_root` succeeds on the non-empty leaf vectors, with the root of the tree. -/
theorem merkleRoot_eq_ok_iff {r : Hash} : merkleRoot hashPair leaves = .ok r ↔
    leaves ≠ [] ∧ r = rootOf hashPair leaves := by
  by_cases hne : leaves = []
  · subst hne
    simp [merkleRoot_nil]
  · rw [merkleRoot_eq hashPair hne, Except.ok.injEq]
    exact ⟨fun hr => ⟨hne, hr.symm⟩, fun hr => hr.2.symm⟩

theorem levelsPairs_of_one_lt {level : List Hash} (hlevel : 1 < level.length) :
    levelsPairs hashPair level =
      levelPairs level ++ levelsPairs hashPair (pairUp hashPair level) := by
  rw [levelsPairs, if_pos hlevel]
  rfl

theorem levelsPairs_level (hashPair : Hash → Hash → Hash) (leaf : ℕ → Hash) (hn : 0 < n)
    (hl : l ≤ height n) :
    levelsPairs hashPair (level hashPair leaf n l) =
      (List.range' l (height n - l)).flatMap fun l => levelPairs (level hashPair leaf n l) := by
  induction hl using Nat.decreasingInduction with
  | self =>
    rw [levelsPairs, length_level, width_height hn, Nat.sub_self]
    rfl
  | of_succ l hl ih =>
    have hmore : 1 < width n l := (one_lt_width_iff hn).2 hl
    have hlevels : height n - l = height n - (l + 1) + 1 := by omega
    rw [levelsPairs_of_one_lt (by simpa using hmore), pairUp_level, ih, hlevels,
      List.range'_succ, List.flatMap_cons]

/-- The pairs `merkle_root` hashes are those combined in building the tree. -/
theorem rootPairs_eq (hashPair : Hash → Hash → Hash) (hne : leaves ≠ []) :
    rootPairs hashPair leaves = treePairs hashPair (leafAt leaves) leaves.length := by
  have hpairs := levelsPairs_level hashPair (leafAt leaves) (List.length_pos_iff.2 hne)
    (Nat.zero_le _)
  rw [level_leafAt] at hpairs
  rw [rootPairs, hpairs, treePairs, List.range_eq_range', Nat.sub_zero]

/-! ## Proofs -/

theorem merkleProofLoop_of_one_lt {level siblings : List Hash} {idx : ℕ} {sibling : Hash}
    (hlevel : 1 < level.length) (hsibling : (padOdd level)[idx ^^^ 1]? = some sibling) :
    merkleProofLoop hashPair level idx siblings =
      merkleProofLoop hashPair (pairUp hashPair level) (idx / 2) (siblings ++ [sibling]) := by
  rw [padOdd] at hsibling
  rw [merkleProofLoop, if_pos hlevel]
  simp only [hsibling, Nat.shiftRight_one]
  rfl

theorem merkleProofLoop_level (hashPair : Hash → Hash → Hash) (leaf : ℕ → Hash)
    (hi : i < width n l) (hl : l ≤ height n) (siblings : List Hash) :
    merkleProofLoop hashPair (level hashPair leaf n l) i siblings =
      .ok (siblings ++ opening hashPair leaf n l (height n - l) i) := by
  have hn : 0 < n := Nat.zero_lt_of_lt (lt_width_iff.1 hi)
  induction hl using Nat.decreasingInduction generalizing i siblings with
  | self =>
    rw [merkleProofLoop, length_level, width_height hn, Nat.sub_self, opening, List.append_nil]
    rfl
  | of_succ l hl ih =>
    -- The sibling pushed is the next entry of the opening.
    have hmore : 1 < width n l := (one_lt_width_iff hn).2 hl
    have hlevels : height n - l = height n - (l + 1) + 1 := by omega
    rw [merkleProofLoop_of_one_lt (by simpa using hmore) (getElem?_padOdd_level hi), pairUp_level,
      ih (half_lt_width hi), hlevels, opening_succ_of_lt hi, List.append_assoc,
      List.singleton_append]

/-- `merkle_proof` computes the opening of the leaf. -/
theorem merkleProof_eq (hashPair : Hash → Hash → Hash) (hi : i < leaves.length) :
    merkleProof hashPair leaves i =
      .ok { leafIndex := i, siblings := path hashPair leaves i } := by
  have hloop := merkleProofLoop_level hashPair (leafAt leaves) (n := leaves.length) (l := 0)
    (by simpa using hi) (Nat.zero_le _) []
  rw [level_leafAt, List.nil_append, Nat.sub_zero] at hloop
  rw [merkleProof, if_neg (ne_nil_of_lt hi), if_neg (Nat.not_le.2 hi), hloop]
  rfl

/-- `merkle_proof` succeeds on the indices of the leaves, with the opening of the leaf. -/
theorem merkleProof_eq_ok_iff {proof : MerkleProof} : merkleProof hashPair leaves i = .ok proof ↔
    i < leaves.length ∧ proof = { leafIndex := i, siblings := path hashPair leaves i } := by
  by_cases hi : i < leaves.length
  · rw [merkleProof_eq hashPair hi, Except.ok.injEq]
    exact ⟨fun hp => ⟨hi, hp.symm⟩, fun hp => hp.2.symm⟩
  · have herr : ∃ e, merkleProof hashPair leaves i = .error e := by
      rw [merkleProof]
      split
      · exact ⟨_, rfl⟩
      · exact ⟨_, if_pos (Nat.not_lt.1 hi)⟩
    obtain ⟨e, he⟩ := herr
    simp [he, hi]

/-! ## The verifier -/

/-- A turn of the verifier's loop is a step up the tree. -/
theorem step_eq (hashPair : Hash → Hash → Hash) :
    (fun (p : Hash × ℕ) (sibling : Hash) =>
      (if p.2 &&& 1 = 0 then hashPair p.1 sibling else hashPair sibling p.1, p.2 >>> 1)) =
      step hashPair := by
  funext p sibling
  rw [step, stepPair, Nat.and_one_is_mod, Nat.shiftRight_one]
  split <;> rfl

/-- The verifier's loop is a walk up the tree. -/
theorem reconstructRoot_eq_walk (hashPair : Hash → Hash → Hash) (proof : MerkleProof)
    (leaf : Hash) : proof.reconstructRoot hashPair leaf =
      walk hashPair leaf proof.leafIndex proof.siblings := by
  rw [walk, ← step_eq]
  rfl

theorem verify_eq_ok_iff {proof : MerkleProof} {x r : Hash} :
    proof.verify hashPair x r = .ok () ↔ walk hashPair x proof.leafIndex proof.siblings = r := by
  rw [MerkleProof.verify, reconstructRoot_eq_walk]
  split <;> simp_all

/-- The verifier has no other outcome than acceptance and a root mismatch. -/
theorem verify_eq_rootMismatch_iff {proof : MerkleProof} {x r : Hash} :
    proof.verify hashPair x r = .error (.err .rootMismatch) ↔
      walk hashPair x proof.leafIndex proof.siblings ≠ r := by
  rw [MerkleProof.verify, reconstructRoot_eq_walk]
  split <;> simp_all

/-- So it is an error exactly when the walk does not lead to the root. -/
theorem isErr_verify {ε : Type} {proof : MerkleProof} {x r : Hash} :
    (Result.isErr (proof.verify hashPair x r) : Result ε Bool) =
      .ok (decide (walk hashPair x proof.leafIndex proof.siblings ≠ r)) := by
  by_cases hwalk : walk hashPair x proof.leafIndex proof.siblings = r
  · rw [verify_eq_ok_iff.2 hwalk, Result.isErr, decide_eq_false (not_not.2 hwalk)]
  · rw [verify_eq_rootMismatch_iff.2 hwalk, Result.isErr, decide_eq_true hwalk]

/-- The opening of a leaf, `m` levels up, leads to its ancestor there. -/
theorem walk_opening_leaf (hashPair : Hash → Hash → Hash) (hi : i < leaves.length) (m : ℕ) :
    walk hashPair (leafAt leaves i) i (opening hashPair (leafAt leaves) leaves.length 0 m i) =
      node hashPair leaves m (i / 2 ^ m) := by
  have hwalk : walk hashPair (node hashPair leaves 0 (origin leaves.length 0 m i)) i
      (opening hashPair (leafAt leaves) leaves.length 0 m i) =
      node hashPair leaves (0 + m) (i / 2 ^ m) :=
    walk_opening (Nat.zero_lt_of_lt hi) (div_lt_width hi m)
  rw [origin_of_lt (by simpa using hi), Nat.zero_add] at hwalk
  exact hwalk

/-- The opening of a leaf leads to the root. -/
theorem walk_path (hashPair : Hash → Hash → Hash) (hi : i < leaves.length) :
    walk hashPair (leafAt leaves i) i (path hashPair leaves i) =
      rootOf hashPair leaves := by
  have hwalk := walk_opening_leaf hashPair hi (height leaves.length)
  rw [Nat.div_eq_of_lt (lt_two_pow_height hi)] at hwalk
  exact hwalk

/-! ## Three leaves -/

/-- Three leaves: the last one is padded. -/
def threeLeaves : List Hash :=
  [Vector.replicate 32 1, Vector.replicate 32 2, Vector.replicate 32 3]

/-- The root over three leaves. -/
def rootOfThree (hashPair : Hash → Hash → Hash) : Hash :=
  hashPair (hashPair (Vector.replicate 32 1) (Vector.replicate 32 2))
    (hashPair (Vector.replicate 32 3) (Vector.replicate 32 3))

/-- The proof of the last of three leaves. -/
def lastOfThree (hashPair : Hash → Hash → Hash) : MerkleProof where
  leafIndex := 2
  siblings :=
    [Vector.replicate 32 3, hashPair (Vector.replicate 32 1) (Vector.replicate 32 2)]

theorem height_three : height threeLeaves.length = 2 := by decide +kernel

theorem merkleRoot_three (hashPair : Hash → Hash → Hash) :
    merkleRoot hashPair threeLeaves = .ok (rootOfThree hashPair) := by
  rw [merkleRoot_eq hashPair (by decide), rootOf, root, height_three]
  rfl

theorem merkleProof_three (hashPair : Hash → Hash → Hash) :
    merkleProof hashPair threeLeaves 2 = .ok (lastOfThree hashPair) := by
  rw [merkleProof_eq hashPair (by decide), path, height_three]
  rfl

/-! ## Completeness -/

/-- Completeness: the construction of the proof of a leaf and of the root both
    succeed, and the proof verifies. -/
theorem merkleProof_verifies (hashPair : Hash → Hash → Hash) (leaves : List Hash) (i : ℕ)
    (hi : i < leaves.length) :
    ∃ proof r, merkleProof hashPair leaves i = .ok proof ∧ merkleRoot hashPair leaves = .ok r ∧
      proof.leafIndex = i ∧ proof.verify hashPair leaves[i] r = .ok () := by
  refine ⟨_, _, merkleProof_eq hashPair hi,
    merkleRoot_eq hashPair (ne_nil_of_lt hi), rfl, ?_⟩
  rw [verify_eq_ok_iff, ← leafAt_eq_getElem hi]
  exact walk_path hashPair hi

theorem merkleProof_verifies_three :
    ∃ proof r, merkleProof (Merkle.hashPair Sha256.digest) threeLeaves 2 = .ok proof ∧
      merkleRoot (Merkle.hashPair Sha256.digest) threeLeaves = .ok r ∧ proof.leafIndex = 2 ∧
      proof.verify (Merkle.hashPair Sha256.digest) threeLeaves[2] r = .ok () :=
  merkleProof_verifies (Merkle.hashPair Sha256.digest) threeLeaves 2 (by decide)

end Vaa.Merkle
