import Vaa.Merkle.Binding

/-!
# Roots of trees of different heights

The tree hashes a leaf like a node: the nodes of a level, taken for leaves, have the
root of the tree (`merkleRoot_levelOf`). So a root binds neither the number of leaves
nor the height; two leaf vectors share a root exactly when the lower tree has the
leaves of the higher one's level of its height, up to the padding and to a collision
(`roots_shared_iff`).
-/

namespace Vaa.Merkle

open PairTree

variable {hashPair : Hash → Hash → Hash} {leaves : List Hash} {d : ℕ}

/-- The nodes of a level of the tree over `leaves`. -/
def levelOf (hashPair : Hash → Hash → Hash) (leaves : List Hash) (d : ℕ) : List Hash :=
  level hashPair (leafAt leaves) leaves.length d

@[simp] theorem length_levelOf (hashPair : Hash → Hash → Hash) (leaves : List Hash) (d : ℕ) :
    (levelOf hashPair leaves d).length = width leaves.length d := length_level ..

theorem levelOf_ne_nil (hashPair : Hash → Hash → Hash) (hne : leaves ≠ []) (d : ℕ) :
    levelOf hashPair leaves d ≠ [] := by
  rw [← List.length_pos_iff, length_levelOf]
  exact width_pos (List.length_pos_iff.2 hne) d

/-- A level has the root of the tree. -/
theorem merkleRoot_levelOf (hne : leaves ≠ []) (hd : d ≤ height leaves.length) :
    merkleRoot hashPair (levelOf hashPair leaves d) = merkleRoot hashPair leaves := by
  rw [merkleRoot, if_neg (levelOf_ne_nil hashPair hne d), merkleRoot_eq hashPair hne, levelOf,
    merkleRootLoop_level (List.length_pos_iff.2 hne) hd]

/-- The tree over a level hashes the pairs of the tree from there on. -/
theorem rootPairs_levelOf (hne : leaves ≠ []) (hd : d ≤ height leaves.length) :
    rootPairs hashPair (levelOf hashPair leaves d) ⊆ rootPairs hashPair leaves := by
  have hpos : 0 < leaves.length := List.length_pos_iff.2 hne
  rw [rootPairs, levelOf, levelsPairs_level hashPair _ hpos hd, rootPairs_eq hashPair hne,
    treePairs]
  intro pair hpair
  obtain ⟨l, hl, hmem⟩ := List.mem_flatMap.1 hpair
  have hrange := List.mem_range'_1.1 hl
  exact List.mem_flatMap.2 ⟨l, List.mem_range.2 (by omega), hmem⟩

/-- The tree over a level has the levels that are left. -/
theorem height_levelOf (hashPair : Hash → Hash → Hash) (hne : leaves ≠ []) (d : ℕ) :
    height (levelOf hashPair leaves d).length = height leaves.length - d := by
  rw [length_levelOf, height_width (List.length_pos_iff.2 hne)]

/-- Two leaf vectors share a root exactly when the lower tree has the expansion of the
    level of its height in the higher one. -/
theorem roots_shared_iff (hashPair : Hash → Hash → Hash) (a b : List Hash) (ha : a ≠ [])
    (hb : b ≠ []) (hheight : height a.length ≤ height b.length) :
    let top := levelOf hashPair b (height b.length - height a.length)
    (expansion a = expansion top → merkleRoot hashPair a = merkleRoot hashPair b) ∧
    (merkleRoot hashPair a = merkleRoot hashPair b → expansion a = expansion top ∨
      Collision hashPair (rootPairs hashPair a) (rootPairs hashPair b)) := by
  intro top
  have hdrop : height b.length - height a.length ≤ height b.length := Nat.sub_le ..
  have htop : top ≠ [] := levelOf_ne_nil hashPair hb _
  have hroot : merkleRoot hashPair top = merkleRoot hashPair b := merkleRoot_levelOf hb hdrop
  have htopHeight : height a.length = height top.length := by
    rw [height_levelOf hashPair hb, Nat.sub_sub_self hheight]
  rw [← hroot, merkleRoot_eq hashPair ha, merkleRoot_eq hashPair htop]
  constructor
  · intro hexp
    rw [expansion, expansion, ← htopHeight] at hexp
    rw [rootOf, rootOf, root, root, ← htopHeight, node_eq_of_expand_eq hexp]
  · intro hroots
    refine (expansion_eq_of_rootOf_eq ha htop htopHeight (Except.ok.inj hroots)).imp_right ?_
    exact fun hc => hc.mono (List.Subset.refl _) (rootPairs_levelOf hb hdrop)

/-- The tree over three leaves has the root of the tree over its two inner nodes. -/
theorem roots_shared_three :
    merkleRoot (Merkle.hashPair Sha256.digest)
        (levelOf (Merkle.hashPair Sha256.digest) threeLeaves 1) =
      merkleRoot (Merkle.hashPair Sha256.digest) threeLeaves :=
  (roots_shared_iff (Merkle.hashPair Sha256.digest)
    (levelOf (Merkle.hashPair Sha256.digest) threeLeaves 1) threeLeaves (by decide +kernel)
    (by decide) (by decide +kernel)).1 (by decide +kernel)

end Vaa.Merkle
