import Vaa.ProofStore.Spec
import Vaa.Merkle.Binding

/-!
# What assisted verification shows

Whatever the stored proof presented to it:

* an accepted leaf has a full proof to the expected root: the siblings the walk
  consumed, completed by the proof of the label it met (`assisted_chain`);
* against the labels of a tree, the accepted presentations are exactly those
  opening a node of the tree (`OpensNode`), up to a collision. This node is a
  leaf when the lower shard has a sibling for each level below the labels, which
  the verifier does not check: it is the leaf at the index presented exactly when
  the presentation is not `Misplaced` (`assisted_pins_iff`).
-/

namespace Vaa.ProofStore

open PairTree Merkle

variable {sha256 : Bytes → Hash} {store : ProofStore} {leaves : List Hash} {k i : ℕ} {x : Hash}
  {s : StoredProof}

/-! ## A full chain to the root -/

/-- An accepted leaf has a proof to the expected root, from the siblings walked
    and the proof of the label reached. -/
theorem assisted_chain (sha256 : Bytes → Hash) (store : ProofStore) (x : Hash) (s : StoredProof)
    (hok : store.verifyWithAssistance sha256 x s = .ok ()) :
    ∃ assistance proof, store.proofAssistanceFor s.expectedRoot = some assistance ∧
      merkleProof (Merkle.hashPair sha256) assistance.nodeLabels
        (s.leafIndex >>> (usedSiblings assistance.predeterminedLevel s).length) = .ok proof ∧
      MerkleProof.verify (Merkle.hashPair sha256)
        { leafIndex := s.leafIndex
          siblings := usedSiblings assistance.predeterminedLevel s ++ proof.siblings }
        x s.expectedRoot = .ok () := by
  obtain ⟨assistance, hstored, hlabel, hroot⟩ := verifyWithAssistance_eq_ok_iff.1 hok
  obtain ⟨hin, hlabel⟩ := List.getElem?_eq_some_iff.1 hlabel
  obtain ⟨_, hroot⟩ := merkleRoot_eq_ok_iff.1 hroot
  have hproof := merkleProof_eq (Merkle.hashPair sha256) hin
  rw [← Nat.shiftRight_eq_div_pow] at hproof
  refine ⟨assistance, _, hstored, hproof, ?_⟩
  -- The walk is at the label when the consumed siblings end.
  rw [Merkle.verify_eq_ok_iff, walk_append, hroot, ← hlabel, ← leafAt_eq_getElem hin,
    Nat.shiftRight_eq_div_pow]
  exact walk_path _ hin

/-- A key for the three leaves. -/
def keyOfThree : IndexKey where
  txid := Vector.replicate 32 0
  direction := .output
  position := 0
  blockPosition := 0
  lockingScript := none
  unlockingScript := none
  amount := none

/-- The last of three leaves, with its lower shard up to the level `1`. -/
def lowerOfThree (sha256 : Bytes → Hash) : StoredProof where
  key := keyOfThree
  leafIndex := 2
  shards := [{ fromLevel := 0, toLevel := 1, siblings := [Vector.replicate 32 3] }]
  expectedRoot := rootOf (Merkle.hashPair sha256) threeLeaves

theorem verify_lowerOfThree (sha256 : Bytes → Hash) :
    ((new 1).anchor sha256 keyOfThree threeLeaves 2).1.verifyWithAssistance sha256
      (Vector.replicate 32 3) (lowerOfThree sha256) = .ok () := by
  have hlevel : labelLevel 1 threeLeaves = 1 := by
    rw [labelLevel, height_three]
    rfl
  rw [anchor_eq _ _ _ (by decide), verifyWithAssistance_eq_ok_iff]
  refine ⟨assistanceOf sha256 1 threeLeaves, Function.update_self .., ?_,
    merkleRoot_nodeLabels sha256 1 (by decide)⟩
  have hused : usedSiblings 1 (lowerOfThree sha256) =
      opening (Merkle.hashPair sha256) (leafAt threeLeaves) threeLeaves.length 0 1 2 := rfl
  have hlt : 2 < threeLeaves.length := by decide
  have hwalk := walk_opening_leaf (Merkle.hashPair sha256) hlt 1
  simp only [assistanceOf, hlevel, hused, length_opening]
  rw [getElem?_level _ _ _ (div_lt_width hlt 1)]
  exact congrArg some hwalk.symm

theorem assisted_chain_three :
    ∃ assistance proof,
      ((new 1).anchor Sha256.digest keyOfThree threeLeaves 2).1.proofAssistanceFor
        (rootOf (Merkle.hashPair Sha256.digest) threeLeaves) = some assistance ∧
      merkleProof (Merkle.hashPair Sha256.digest) assistance.nodeLabels
        (2 >>> (usedSiblings assistance.predeterminedLevel
          (lowerOfThree Sha256.digest)).length) = .ok proof ∧
      MerkleProof.verify (Merkle.hashPair Sha256.digest)
        { leafIndex := 2
          siblings := usedSiblings assistance.predeterminedLevel (lowerOfThree Sha256.digest) ++
            proof.siblings }
        (Vector.replicate 32 3) (rootOf (Merkle.hashPair Sha256.digest) threeLeaves) = .ok () :=
  assisted_chain Sha256.digest ((new 1).anchor Sha256.digest keyOfThree threeLeaves 2).1
    (Vector.replicate 32 3) (lowerOfThree Sha256.digest) (verify_lowerOfThree Sha256.digest)

/-! ## Against the labels of a tree -/

/-- The labels published for the root are those of the tree over `leaves`. -/
structure Publishes (sha256 : Bytes → Hash) (store : ProofStore) (k : ℕ) (leaves : List Hash) :
    Prop where
  ne_nil : leaves ≠ []
  labels : store.assistanceByRoot (rootOf (Merkle.hashPair sha256) leaves) =
    some (assistanceOf sha256 k leaves)

theorem publishes_anchor {key : IndexKey} {r : Hash}
    (hanchor : (store.anchor sha256 key leaves i).2 = .ok r) :
    Publishes sha256 (store.anchor sha256 key leaves i).1 store.predeterminedLevel leaves := by
  obtain ⟨hi, _⟩ := anchor_eq_ok_iff.1 hanchor
  refine ⟨ne_nil_of_lt hi, ?_⟩
  rw [anchor_eq _ _ _ hi]
  exact Function.update_self ..

/-- Against the labels of a tree, a presentation is accepted exactly when its
    walk reaches the node of the labels above its index. -/
theorem Publishes.verify_iff (hp : Publishes sha256 store k leaves)
    (hs : s.expectedRoot = rootOf (Merkle.hashPair sha256) leaves) :
    store.verifyWithAssistance sha256 x s = .ok () ↔
      s.leafIndex / 2 ^ (usedSiblings (labelLevel k leaves) s).length <
        width leaves.length (labelLevel k leaves) ∧
      walk (Merkle.hashPair sha256) x s.leafIndex (usedSiblings (labelLevel k leaves) s) =
        node (Merkle.hashPair sha256) leaves (labelLevel k leaves)
          (s.leafIndex / 2 ^ (usedSiblings (labelLevel k leaves) s).length) := by
  have hlevel : (assistanceOf sha256 k leaves).predeterminedLevel = labelLevel k leaves := rfl
  have hlabels : (assistanceOf sha256 k leaves).nodeLabels =
      level (Merkle.hashPair sha256) (leafAt leaves) leaves.length (labelLevel k leaves) := rfl
  rw [verifyWithAssistance_eq_ok_iff, hs, hp.labels]
  simp only [Option.some.injEq, exists_eq_left', merkleRoot_nodeLabels sha256 k hp.ne_nil, and_true,
    hlevel]
  rw [hlabels]
  generalize s.leafIndex / 2 ^ (usedSiblings (labelLevel k leaves) s).length = q
  by_cases hq : q < width leaves.length (labelLevel k leaves)
  · rw [getElem?_level _ _ _ hq, Option.some.injEq, eq_comm]
    exact (and_iff_right hq).symm
  · rw [List.getElem?_eq_none (by simpa using hq)]
    simp [hq]

/-- The pairs `verifyWithAssistance` hashes in its walk. -/
def assistedPairs (sha256 : Bytes → Hash) (store : ProofStore) (x : Hash) (s : StoredProof) :
    List (Hash × Hash) :=
  match store.proofAssistanceFor s.expectedRoot with
  | none => []
  | some assistance => walkPairs (Merkle.hashPair sha256) x s.leafIndex
      (usedSiblings assistance.predeterminedLevel s)

theorem Publishes.assistedPairs_eq (hp : Publishes sha256 store k leaves)
    (hs : s.expectedRoot = rootOf (Merkle.hashPair sha256) leaves) :
    assistedPairs sha256 store x s = walkPairs (Merkle.hashPair sha256) x s.leafIndex
      (usedSiblings (labelLevel k leaves) s) := by
  rw [assistedPairs, proofAssistanceFor, hs, hp.labels]
  rfl

/-- The leaf presented is the node of the tree shown at its index, as many levels
    below the labels as siblings are walked, and these are its opening. -/
def OpensNode (sha256 : Bytes → Hash) (k : ℕ) (leaves : List Hash) (x : Hash) (s : StoredProof) :
    Prop :=
  let used := usedSiblings (labelLevel k leaves) s
  let low := labelLevel k leaves - used.length
  s.leafIndex / 2 ^ used.length < width leaves.length (labelLevel k leaves) ∧
    x = node (Merkle.hashPair sha256) leaves low
      (origin leaves.length low used.length s.leafIndex) ∧
    used = opening (Merkle.hashPair sha256) (leafAt leaves) leaves.length low used.length
      s.leafIndex

instance (sha256 : Bytes → Hash) (k : ℕ) (leaves : List Hash) (x : Hash) (s : StoredProof) :
    Decidable (OpensNode sha256 k leaves x s) :=
  inferInstanceAs (Decidable (_ ∧ _ ∧ _))

theorem length_usedSiblings (m : ℕ) (s : StoredProof) :
    (usedSiblings m s).length = min m (lowerSiblings s).length := List.length_take ..

theorem exists_low (k : ℕ) (leaves : List Hash) (s : StoredProof) :
    ∃ low, labelLevel k leaves = low + (usedSiblings (labelLevel k leaves) s).length := by
  refine ⟨labelLevel k leaves - (usedSiblings (labelLevel k leaves) s).length, ?_⟩
  rw [length_usedSiblings]
  omega

/-- The presentations opening a node are accepted. -/
theorem Publishes.ok_of_opensNode (hp : Publishes sha256 store k leaves)
    (hs : s.expectedRoot = rootOf (Merkle.hashPair sha256) leaves)
    (hopens : OpensNode sha256 k leaves x s) :
    store.verifyWithAssistance sha256 x s = .ok () := by
  -- The walk follows the opening of the node, from its level up to the labels.
  obtain ⟨hin, hx, hused⟩ := hopens
  obtain ⟨low, hlow⟩ := exists_low k leaves s
  rw [hp.verify_iff hs]
  refine ⟨hin, ?_⟩
  generalize usedSiblings (labelLevel k leaves) s = used at *
  rw [hlow] at hin hx hused ⊢
  rw [Nat.add_sub_cancel] at hx hused
  rw [hx, hused]
  simpa using walk_opening (List.length_pos_iff.2 hp.ne_nil) hin

/-- An accepted presentation opens a node, or collides with the tree. -/
theorem Publishes.opensNode_of_ok (hp : Publishes sha256 store k leaves)
    (hs : s.expectedRoot = rootOf (Merkle.hashPair sha256) leaves)
    (hok : store.verifyWithAssistance sha256 x s = .ok ()) :
    OpensNode sha256 k leaves x s ∨
      Collision (Merkle.hashPair sha256) (assistedPairs sha256 store x s)
        (rootPairs (Merkle.hashPair sha256) leaves) := by
  obtain ⟨hin, hwalk⟩ := (hp.verify_iff hs).1 hok
  obtain ⟨low, hlow⟩ := exists_low k leaves s
  have hheight : labelLevel k leaves ≤ height leaves.length := min_le_right _ _
  rw [hp.assistedPairs_eq hs, rootPairs_eq _ hp.ne_nil, OpensNode]
  generalize usedSiblings (labelLevel k leaves) s = used at *
  rw [hlow] at hin hwalk hheight ⊢
  rw [Nat.add_sub_cancel]
  rcases walk_eq_node (List.length_pos_iff.2 hp.ne_nil) hheight hin hwalk with ⟨hx, hused⟩ | hc
  · exact .inl ⟨hin, hx, hused⟩
  · exact .inr hc

/-! ## The leaf at the index -/

/-- The presentation opens a node which is not the leaf at its index: its index is
    past the leaves, or its lower shard has no sibling for some level below the
    labels and the node is an inner one. -/
def Misplaced (sha256 : Bytes → Hash) (k : ℕ) (leaves : List Hash) (x : Hash) (s : StoredProof) :
    Prop :=
  OpensNode sha256 k leaves x s ∧
    (leaves.length ≤ s.leafIndex ∨
      (lowerSiblings s).length < labelLevel k leaves ∧ leaves[s.leafIndex]? ≠ some x)

instance (sha256 : Bytes → Hash) (k : ℕ) (leaves : List Hash) (x : Hash) (s : StoredProof) :
    Decidable (Misplaced sha256 k leaves x s) :=
  inferInstanceAs (Decidable (_ ∧ _))

/-- A node opened in place is the leaf at its index. -/
theorem OpensNode.getElem?_eq (hopens : OpensNode sha256 k leaves x s)
    (hplace : ¬Misplaced sha256 k leaves x s) : leaves[s.leafIndex]? = some x := by
  by_contra hne
  refine hplace ⟨hopens, ?_⟩
  by_cases hin : s.leafIndex < leaves.length
  · refine .inr ⟨?_, hne⟩
    by_contra hlong
    -- With a sibling for each level the walk starts at the leaves.
    obtain ⟨_, hx, _⟩ := hopens
    have hused : (usedSiblings (labelLevel k leaves) s).length = labelLevel k leaves := by
      rw [length_usedSiblings]
      exact min_eq_left (Nat.not_lt.1 hlong)
    rw [hused, Nat.sub_self, origin_of_lt (by simpa using hin)] at hx
    refine hne ?_
    rw [hx, getElem?_eq_leafAt hin]
    rfl
  · exact .inl (Nat.not_lt.1 hin)

/-- Against the labels of the tree just anchored, acceptance pins the leaf at the
    index exactly for the presentations that are not misplaced. -/
theorem assisted_pins_iff (sha256 : Bytes → Hash) (store : ProofStore) (key : IndexKey)
    (leaves : List Hash) (i : ℕ) (r x : Hash) (s : StoredProof)
    (hanchor : (store.anchor sha256 key leaves i).2 = .ok r) (hs : s.expectedRoot = r) :
    (((store.anchor sha256 key leaves i).1.verifyWithAssistance sha256 x s = .ok () →
        leaves[s.leafIndex]? = some x) ∨
      Collision (Merkle.hashPair sha256)
        (assistedPairs sha256 (store.anchor sha256 key leaves i).1 x s)
        (rootPairs (Merkle.hashPair sha256) leaves)) ↔
    (¬Misplaced sha256 store.predeterminedLevel leaves x s ∨
      Collision (Merkle.hashPair sha256)
        (assistedPairs sha256 (store.anchor sha256 key leaves i).1 x s)
        (rootPairs (Merkle.hashPair sha256) leaves)) := by
  have hp := publishes_anchor hanchor
  have hroot : s.expectedRoot = rootOf (Merkle.hashPair sha256) leaves := by
    rw [hs]
    exact (anchor_eq_ok_iff.1 hanchor).2
  constructor
  · rintro (hpins | hc)
    · refine .inl fun ⟨hopens, hwrong⟩ => ?_
      have hx := hpins (hp.ok_of_opensNode hroot hopens)
      obtain ⟨hin, _⟩ := List.getElem?_eq_some_iff.1 hx
      rcases hwrong with hout | ⟨_, hne⟩
      · exact absurd hin (Nat.not_lt.2 hout)
      · exact hne hx
    · exact .inr hc
  · rintro (hplace | hc)
    · by_cases hok : (store.anchor sha256 key leaves i).1.verifyWithAssistance sha256 x s = .ok ()
      · rcases hp.opensNode_of_ok hroot hok with hopens | hc
        · exact .inl fun _ => hopens.getElem?_eq hplace
        · exact .inr hc
      · exact .inl fun h => absurd h hok
    · exact .inr hc

theorem assisted_pins_iff_three :
    ((((new 1).anchor Sha256.digest keyOfThree threeLeaves 0).1.verifyWithAssistance Sha256.digest
        (Vector.replicate 32 3) (lowerOfThree Sha256.digest) = .ok () →
        threeLeaves[2]? = some (Vector.replicate 32 3)) ∨
      Collision (Merkle.hashPair Sha256.digest)
        (assistedPairs Sha256.digest ((new 1).anchor Sha256.digest keyOfThree threeLeaves 0).1
          (Vector.replicate 32 3) (lowerOfThree Sha256.digest))
        (rootPairs (Merkle.hashPair Sha256.digest) threeLeaves)) ↔
    (¬Misplaced Sha256.digest 1 threeLeaves (Vector.replicate 32 3)
        (lowerOfThree Sha256.digest) ∨
      Collision (Merkle.hashPair Sha256.digest)
        (assistedPairs Sha256.digest ((new 1).anchor Sha256.digest keyOfThree threeLeaves 0).1
          (Vector.replicate 32 3) (lowerOfThree Sha256.digest))
        (rootPairs (Merkle.hashPair Sha256.digest) threeLeaves)) :=
  assisted_pins_iff Sha256.digest (new 1) keyOfThree threeLeaves 0
    (rootOf (Merkle.hashPair Sha256.digest) threeLeaves) (Vector.replicate 32 3)
    (lowerOfThree Sha256.digest) (anchor_eq_ok_iff.2 ⟨by decide, rfl⟩) rfl

/-- The copy padding three leaves, at the index `3`. -/
example : Misplaced Sha256.digest 1 threeLeaves (Vector.replicate 32 3)
    { lowerOfThree Sha256.digest with leafIndex := 3 } := by
  decide +kernel

/-- Over two leaves and at the level `1`, the root is accepted as the leaf `0`
    when no shard is presented. -/
theorem inner_node_accepted :
    ¬∀ (store : ProofStore) (key : IndexKey) (leaves : List Hash) (i : ℕ) (r x : Hash)
      (s : StoredProof), (store.anchor Sha256.digest key leaves i).2 = .ok r → s.expectedRoot = r →
      (((store.anchor Sha256.digest key leaves i).1.verifyWithAssistance Sha256.digest x s =
          .ok () → leaves[s.leafIndex]? = some x) ∨
        Collision (Merkle.hashPair Sha256.digest)
          (assistedPairs Sha256.digest (store.anchor Sha256.digest key leaves i).1 x s)
          (rootPairs (Merkle.hashPair Sha256.digest) leaves)) := by
  intro hall
  have hanchor : ((new 1).anchor Sha256.digest keyOfThree (threeLeaves.take 2) 0).2 =
      .ok (rootOf (Merkle.hashPair Sha256.digest) (threeLeaves.take 2)) :=
    anchor_eq_ok_iff.2 ⟨by decide, rfl⟩
  have hp := publishes_anchor hanchor
  rcases hall (new 1) keyOfThree (threeLeaves.take 2) 0 _
    (rootOf (Merkle.hashPair Sha256.digest) (threeLeaves.take 2))
    { key := keyOfThree
      leafIndex := 0
      shards := []
      expectedRoot := rootOf (Merkle.hashPair Sha256.digest) (threeLeaves.take 2) }
    hanchor rfl with hpins | ⟨_, hmem, _⟩
  · have hleaf := hpins ((hp.verify_iff rfl).2 ⟨by decide, rfl⟩)
    revert hleaf
    decide +kernel
  · -- Nothing is hashed on the way, so nothing collides.
    rw [hp.assistedPairs_eq rfl] at hmem
    exact absurd hmem List.not_mem_nil

end Vaa.ProofStore
