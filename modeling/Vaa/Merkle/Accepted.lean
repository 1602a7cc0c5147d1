import Vaa.Merkle.Binding

/-!
# What the verifier accepts

The verifier does not know how high the tree is: a proof may have any number of siblings.
The ones it has are read from the root down, as far as the tree goes, and must be those of
the node shown at the index (`Opens`): a leaf, for a proof of the height of the tree, a node
above for a shorter one; in a longer one, the siblings left over lead to the leaf.

These are all the proofs the verifier accepts, up to a collision, and it accepts them all
(`accepted_iff`).
-/

namespace Vaa.Merkle

open PairTree

variable {hashPair : Hash → Hash → Hash} {leaves : List Hash} {p : MerkleProof} {x : Hash}

/-- The siblings of a proof that are left over below the tree. -/
def belowLength (leaves : List Hash) (p : MerkleProof) : ℕ :=
  p.siblings.length - height leaves.length

/-- The level of the node a proof is one of. -/
def nodeLevel (leaves : List Hash) (p : MerkleProof) : ℕ :=
  height leaves.length - p.siblings.length

/-- The position of this node, in the padded tree. -/
def nodePosition (leaves : List Hash) (p : MerkleProof) : ℕ :=
  p.leafIndex / 2 ^ belowLength leaves p % 2 ^ (height leaves.length - nodeLevel leaves p)

/-- The value leads to the node shown at the position, and the other siblings are its
    opening. -/
structure Opens (hashPair : Hash → Hash → Hash) (leaves : List Hash) (p : MerkleProof)
    (x : Hash) : Prop where
  walk_eq : walk hashPair x p.leafIndex (p.siblings.take (belowLength leaves p)) =
    node hashPair leaves (nodeLevel leaves p) (origin leaves.length (nodeLevel leaves p)
      (height leaves.length - nodeLevel leaves p) (nodePosition leaves p))
  drop_eq : p.siblings.drop (belowLength leaves p) =
    opening hashPair (leafAt leaves) leaves.length (nodeLevel leaves p)
      (height leaves.length - nodeLevel leaves p) (nodePosition leaves p)

/-- The siblings that are not left over reach from the level of the node to the root. -/
theorem nodeLevel_add_length (leaves : List Hash) (p : MerkleProof) :
    nodeLevel leaves p + (p.siblings.drop (belowLength leaves p)).length =
      height leaves.length := by
  rw [List.length_drop, belowLength, nodeLevel]
  omega

theorem length_drop_below (leaves : List Hash) (p : MerkleProof) :
    (p.siblings.drop (belowLength leaves p)).length =
      height leaves.length - nodeLevel leaves p :=
  (Nat.sub_eq_of_eq_add' (nodeLevel_add_length leaves p).symm).symm

theorem length_take_below (leaves : List Hash) (p : MerkleProof) :
    (p.siblings.take (belowLength leaves p)).length = belowLength leaves p := by
  rw [List.length_take, belowLength]
  exact min_eq_left (Nat.sub_le _ _)

/-- A walk along a proof is one along the siblings left over, then along the others. -/
theorem walk_below (hashPair : Hash → Hash → Hash) (leaves : List Hash) (p : MerkleProof)
    (x : Hash) : walk hashPair x p.leafIndex p.siblings =
      walk hashPair (walk hashPair x p.leafIndex (p.siblings.take (belowLength leaves p)))
        (p.leafIndex / 2 ^ belowLength leaves p) (p.siblings.drop (belowLength leaves p)) := by
  have happend := walk_append hashPair x p.leafIndex (p.siblings.take (belowLength leaves p))
    (p.siblings.drop (belowLength leaves p))
  rwa [List.take_append_drop, length_take_below] at happend

/-- The pairs of the second walk are among those of the proof. -/
theorem walkPairs_below_subset (hashPair : Hash → Hash → Hash) (leaves : List Hash)
    (p : MerkleProof) (x : Hash) :
    walkPairs hashPair (walk hashPair x p.leafIndex (p.siblings.take (belowLength leaves p)))
      (p.leafIndex / 2 ^ belowLength leaves p) (p.siblings.drop (belowLength leaves p)) ⊆
      p.pairs hashPair x := by
  have happend := walkPairs_append hashPair x p.leafIndex
    (p.siblings.take (belowLength leaves p)) (p.siblings.drop (belowLength leaves p))
  rw [List.take_append_drop, length_take_below] at happend
  rw [MerkleProof.pairs, happend]
  exact List.subset_append_right _ _

/-- Against the root of a tree, the verifier accepts the proofs that open a node of it,
    whatever their number of siblings and their index, and no other ones but for a collision
    of a pair hashed along the proof with one of the tree. -/
theorem accepted_iff (hashPair : Hash → Hash → Hash) (leaves : List Hash) (p : MerkleProof)
    (x r : Hash) (hroot : merkleRoot hashPair leaves = .ok r) :
    (Opens hashPair leaves p x → p.verify hashPair x r = .ok ()) ∧
    (p.verify hashPair x r = .ok () → Opens hashPair leaves p x ∨
      Collision hashPair (p.pairs hashPair x) (rootPairs hashPair leaves)) := by
  obtain ⟨hne, rfl⟩ := merkleRoot_eq_ok_iff.1 hroot
  rw [verify_eq_ok_iff, walk_below hashPair leaves p x]
  have hadd := nodeLevel_add_length leaves p
  constructor
  · rintro ⟨hwalk, hdrop⟩
    rw [hwalk, hdrop]
    refine walk_opening_root hashPair hne ?_ _
    rwa [length_drop_below] at hadd
  · intro hwalk
    rcases walk_eq_root_of_add hne hadd hwalk with ⟨hx, hsiblings⟩ | hc
    · rw [length_drop_below] at hx hsiblings
      exact .inl ⟨hx, hsiblings⟩
    · exact .inr (hc.mono (walkPairs_below_subset hashPair leaves p x) (List.Subset.refl _))

/-- A proof of the last node of the level above three leaves. -/
theorem accepted_iff_three :
    let h := Merkle.hashPair Sha256.digest
    let node := h (Vector.replicate 32 3) (Vector.replicate 32 3)
    let sibling := h (Vector.replicate 32 1) (Vector.replicate 32 2)
    Opens h threeLeaves { leafIndex := 1, siblings := [sibling] } node ∨
      Collision h (MerkleProof.pairs h { leafIndex := 1, siblings := [sibling] } node)
        (rootPairs h threeLeaves) :=
  (accepted_iff (Merkle.hashPair Sha256.digest) threeLeaves _ _
    (rootOfThree (Merkle.hashPair Sha256.digest)) (merkleRoot_three _)).2
    (verify_eq_ok_iff.2 rfl)

end Vaa.Merkle
