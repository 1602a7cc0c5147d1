import Vaa.ProofStore.Assistance

/-!
# The two verifiers

Right after a leaf is anchored, both verifiers may check its stored proof: the plain
one walks all of it, the assisted one only its part below the labels. They accept the
same leaves, up to a collision of the plain walk with the tree (`verifiers_agree`);
and the assisted one reads nothing of the shards from the level of the labels on,
which may be anything (`upper_shards_ignored`).
-/

namespace Vaa.ProofStore

open PairTree Merkle

variable {sha256 : Bytes → Hash} {store : ProofStore} {key : IndexKey} {leaves : List Hash}
  {i k : ℕ} {r x : Hash} {s : StoredProof}

/-- The proof a query finds right after its leaf is anchored. -/
theorem query_anchor (sha256 : Bytes → Hash) (store : ProofStore) (key : IndexKey)
    (hi : i < leaves.length) : (store.anchor sha256 key leaves i).1.query key =
      .ok (storedOf sha256 store.predeterminedLevel key leaves i) := by
  rw [anchor_eq _ _ _ hi, query_eq_ok_iff]
  exact Function.update_self ..

/-- The siblings of a stored proof below the labels of its tree are the opening of its
    leaf up to them. -/
theorem usedSiblings_own (sha256 : Bytes → Hash) (k : ℕ) (key : IndexKey)
    (hi : i < leaves.length) :
    usedSiblings (labelLevel k leaves) (storedOf sha256 k key leaves i) =
      opening (Merkle.hashPair sha256) (leafAt leaves) leaves.length 0 (labelLevel k leaves) i := by
  rw [usedSiblings_storedOf hi labelLevel_le, min_eq_left labelLevel_le_height]

/-- The assisted verifier accepts a leaf against the labels of the tree exactly when its
    walk along the opening of the stored leaf meets the node above this leaf. -/
theorem Publishes.verify_own_iff (hp : Publishes sha256 store k leaves) (hi : i < leaves.length) :
    store.verifyWithAssistance sha256 x (storedOf sha256 k key leaves i) = .ok () ↔
      walk (Merkle.hashPair sha256) x i
        (opening (Merkle.hashPair sha256) (leafAt leaves) leaves.length 0
          (labelLevel k leaves) i) =
      node (Merkle.hashPair sha256) leaves (labelLevel k leaves) (i / 2 ^ labelLevel k leaves) := by
  have hindex : (storedOf sha256 k key leaves i).leafIndex = i := rfl
  have hin := div_lt_width (l := 0) hi (labelLevel k leaves)
  rw [Nat.zero_add] at hin
  rw [hp.verify_iff rfl, usedSiblings_own sha256 k key hi, length_opening, hindex]
  exact and_iff_right hin

/-- A walk meeting the node above a leaf goes on as the walk from the leaf does. -/
theorem walk_path_of_meets {m : ℕ} (hi : i < leaves.length) (hm : m ≤ height leaves.length)
    (hmeets : walk (Merkle.hashPair sha256) x i
      (opening (Merkle.hashPair sha256) (leafAt leaves) leaves.length 0 m i) =
        node (Merkle.hashPair sha256) leaves m (i / 2 ^ m)) :
    walk (Merkle.hashPair sha256) x i (path (Merkle.hashPair sha256) leaves i) =
      rootOf (Merkle.hashPair sha256) leaves := by
  have htake : (path (Merkle.hashPair sha256) leaves i).take m =
      opening (Merkle.hashPair sha256) (leafAt leaves) leaves.length 0 m i :=
    take_opening (by simpa using hi) hm
  have hleaf := walk_path (Merkle.hashPair sha256) hi
  rw [← List.take_append_drop m (path (Merkle.hashPair sha256) leaves i), htake, walk_append,
    walk_opening_leaf _ hi] at hleaf
  rw [← List.take_append_drop m (path (Merkle.hashPair sha256) leaves i), htake, walk_append,
    hmeets]
  exact hleaf

/-- Right after a leaf is anchored, what the assisted verifier accepts of its stored
    proof the plain one accepts; the converse holds up to a collision of the plain walk
    with the tree; and both accept the leaf. -/
theorem verifiers_agree (sha256 : Bytes → Hash) (store : ProofStore) (key : IndexKey)
    (leaves : List Hash) (i : ℕ) (r x : Hash) (s : StoredProof)
    (hanchor : (store.anchor sha256 key leaves i).2 = .ok r)
    (hquery : (store.anchor sha256 key leaves i).1.query key = .ok s) :
    ((store.anchor sha256 key leaves i).1.verifyWithAssistance sha256 x s = .ok () →
      verify sha256 x s .adversarial = .ok ()) ∧
    (verify sha256 x s .adversarial = .ok () →
      (store.anchor sha256 key leaves i).1.verifyWithAssistance sha256 x s = .ok () ∨
        Collision (Merkle.hashPair sha256) (s.reassemble.pairs (Merkle.hashPair sha256) x)
          (rootPairs (Merkle.hashPair sha256) leaves)) ∧
    (leaves[i]? = some x →
      (store.anchor sha256 key leaves i).1.verifyWithAssistance sha256 x s = .ok () ∧
        verify sha256 x s .adversarial = .ok ()) := by
  have hp := publishes_anchor hanchor
  obtain ⟨hi, -⟩ := anchor_eq_ok_iff.1 hanchor
  rw [query_anchor _ _ _ hi, Except.ok.injEq] at hquery
  subst hquery
  have hplain : verify sha256 x (storedOf sha256 store.predeterminedLevel key leaves i)
      .adversarial = .ok () ↔ walk (Merkle.hashPair sha256) x i
        (path (Merkle.hashPair sha256) leaves i) = rootOf (Merkle.hashPair sha256) leaves := by
    rw [verify_eq_ok_iff, reassemble_storedOf]
    rfl
  rw [hplain, hp.verify_own_iff hi, reassemble_storedOf, MerkleProof.pairs]
  refine ⟨walk_path_of_meets hi (min_le_right _ _), fun hwalk => ?_, fun hx => ?_⟩
  · rcases walk_eq_root hp.ne_nil (length_path ..) hwalk with ⟨hx, -⟩ | hc
    · rw [Nat.mod_eq_of_lt (lt_two_pow_height hi), origin_of_lt (by simpa using hi)] at hx
      rw [hx]
      exact .inl (walk_opening_leaf _ hi _)
    · exact .inr hc
  · rw [getElem?_eq_leafAt hi, Option.some.injEq] at hx
    rw [← hx]
    exact ⟨walk_opening_leaf _ hi _, walk_path _ hi⟩

theorem verifiers_agree_three :
    (((new 1).anchor Sha256.digest keyOfThree threeLeaves 2).1.verifyWithAssistance Sha256.digest
        (Vector.replicate 32 3) (storedOf Sha256.digest 1 keyOfThree threeLeaves 2) = .ok () →
      verify Sha256.digest (Vector.replicate 32 3)
        (storedOf Sha256.digest 1 keyOfThree threeLeaves 2) .adversarial = .ok ()) ∧
    (verify Sha256.digest (Vector.replicate 32 3)
        (storedOf Sha256.digest 1 keyOfThree threeLeaves 2) .adversarial = .ok () →
      ((new 1).anchor Sha256.digest keyOfThree threeLeaves 2).1.verifyWithAssistance Sha256.digest
          (Vector.replicate 32 3) (storedOf Sha256.digest 1 keyOfThree threeLeaves 2) = .ok () ∨
        Collision (Merkle.hashPair Sha256.digest)
          ((storedOf Sha256.digest 1 keyOfThree threeLeaves 2).reassemble.pairs
            (Merkle.hashPair Sha256.digest) (Vector.replicate 32 3))
          (rootPairs (Merkle.hashPair Sha256.digest) threeLeaves)) ∧
    (threeLeaves[2]? = some (Vector.replicate 32 3) →
      ((new 1).anchor Sha256.digest keyOfThree threeLeaves 2).1.verifyWithAssistance Sha256.digest
          (Vector.replicate 32 3) (storedOf Sha256.digest 1 keyOfThree threeLeaves 2) = .ok () ∧
        verify Sha256.digest (Vector.replicate 32 3)
          (storedOf Sha256.digest 1 keyOfThree threeLeaves 2) .adversarial = .ok ()) :=
  verifiers_agree Sha256.digest (new 1) keyOfThree threeLeaves 2
    (rootOf (Merkle.hashPair Sha256.digest) threeLeaves) (Vector.replicate 32 3)
    (storedOf Sha256.digest 1 keyOfThree threeLeaves 2)
    (anchor_eq_ok_iff.2 ⟨by decide, rfl⟩) (query_anchor _ _ _ (by decide))

/-! ## The shards from the labels on -/

/-- The shards below the labels, cut out of those of a stored proof. -/
theorem filter_shardProof (proof : MerkleProof) (k : ℕ) :
    (shardProof proof k).filter (fun shard => shard.fromLevel < min k proof.siblings.length) =
      if 0 < min k proof.siblings.length then
        [{ fromLevel := 0, toLevel := min k proof.siblings.length
           siblings := proof.siblings.take (min k proof.siblings.length) }]
      else [] := by
  rw [shardProof]
  by_cases hdepth : proof.siblings.length = 0
  · simp [hdepth]
  · simp only [if_neg hdepth, List.filter_append]
    generalize min k proof.siblings.length = m
    split_ifs with hlow hup hup
    · simp [hlow]
    · simp [hlow]
    · simp
    · rfl

/-- What replaces the shards from the labels on is not used. -/
theorem usedSiblings_append (hi : i < leaves.length) (upper : List ProofShard) :
    usedSiblings (labelLevel k leaves)
        { storedOf sha256 k key leaves i with
          shards := (storedOf sha256 k key leaves i).shards.filter
            (fun shard => shard.fromLevel < labelLevel k leaves) ++ upper } =
      usedSiblings (labelLevel k leaves) (storedOf sha256 k key leaves i) := by
  by_cases hzero : labelLevel k leaves = 0
  · -- No sibling is walked, whichever shard starts at the level `0`.
    simp only [usedSiblings, hzero, List.take_zero]
  · have hcut := filter_shardProof
      { leafIndex := i, siblings := path (Merkle.hashPair sha256) leaves i } k
    simp only [length_path, ← labelLevel_eq, if_pos (Nat.pos_of_ne_zero hzero)] at hcut
    rw [usedSiblings_own sha256 k key hi, usedSiblings, lowerSiblings]
    simp only [storedOf, hcut, List.cons_append, List.find?_cons, decide_true, List.take_take,
      min_self]
    exact take_opening (by simpa using hi) labelLevel_le_height

/-- Right after a leaf is anchored, assisted verification of its stored proof does not
    depend on the shards from the level of the labels on: they may be left out, or
    replaced by any others. -/
theorem upper_shards_ignored (sha256 : Bytes → Hash) (store : ProofStore) (key : IndexKey)
    (leaves : List Hash) (i : ℕ) (r x : Hash) (s : StoredProof) (upper : List ProofShard)
    (hanchor : (store.anchor sha256 key leaves i).2 = .ok r)
    (hquery : (store.anchor sha256 key leaves i).1.query key = .ok s) :
    let level := min store.predeterminedLevel s.reassemble.siblings.length
    (∃ a, (store.anchor sha256 key leaves i).1.proofAssistanceFor s.expectedRoot = some a ∧
      a.predeterminedLevel = level) ∧
    (store.anchor sha256 key leaves i).1.verifyWithAssistance sha256 x
        { s with shards := s.shards.filter (fun shard => shard.fromLevel < level) ++ upper } =
      (store.anchor sha256 key leaves i).1.verifyWithAssistance sha256 x s := by
  have hp := publishes_anchor hanchor
  obtain ⟨hi, -⟩ := anchor_eq_ok_iff.1 hanchor
  rw [query_anchor _ _ _ hi, Except.ok.injEq] at hquery
  subst hquery
  have hexpected : (storedOf sha256 store.predeterminedLevel key leaves i).expectedRoot =
      rootOf (Merkle.hashPair sha256) leaves := rfl
  simp only [reassemble_storedOf, length_path]
  refine ⟨⟨_, hp.labels, rfl⟩, ?_⟩
  refine verifyWithAssistance_congr rfl rfl ?_
  intro a ha
  rw [hexpected, hp.labels, Option.some.injEq] at ha
  subst ha
  exact usedSiblings_append hi upper

/-- A shard that belongs to no proof, from the level `1` to the level `9`. -/
def strayShard : ProofShard where
  fromLevel := 1
  toLevel := 9
  siblings := [Vector.replicate 32 7]

theorem upper_shards_ignored_three :
    let s := storedOf Sha256.digest 1 keyOfThree threeLeaves 2
    let level := min 1 s.reassemble.siblings.length
    (∃ a, ((new 1).anchor Sha256.digest keyOfThree threeLeaves 2).1.proofAssistanceFor
        s.expectedRoot = some a ∧ a.predeterminedLevel = level) ∧
    ((new 1).anchor Sha256.digest keyOfThree threeLeaves 2).1.verifyWithAssistance Sha256.digest
        (Vector.replicate 32 3)
        { s with shards :=
            s.shards.filter (fun shard => shard.fromLevel < level) ++ [strayShard] } =
      ((new 1).anchor Sha256.digest keyOfThree threeLeaves 2).1.verifyWithAssistance
        Sha256.digest (Vector.replicate 32 3) s :=
  upper_shards_ignored Sha256.digest (new 1) keyOfThree threeLeaves 2
    (rootOf (Merkle.hashPair Sha256.digest) threeLeaves) (Vector.replicate 32 3)
    (storedOf Sha256.digest 1 keyOfThree threeLeaves 2) [strayShard]
    (anchor_eq_ok_iff.2 ⟨by decide, rfl⟩) (query_anchor _ _ _ (by decide))

end Vaa.ProofStore
