import Vaa.Merkle.Tree
import Mathlib.Data.List.Nodup

/-!
# What a root and a proof bind

Up to a collision of the pair hash between the pairs of the verifier's walk and
the pairs hashed in building the tree:

* a proof of the length of the tree's proofs that verifies at the index of a leaf
  is the proof of that leaf (`verify_binds`);
* the proof of a leaf, moved to another index, is rejected exactly when the new
  position of the padded tree does not show the leaf (`moved_rejected_iff`). The
  bits of the index above the height of the tree are never read, and a missing
  right neighbour shows its left one, so other indices are accepted;
* two leaf vectors of one height share a root exactly when they share their
  expansion, the leaves of the padded tree (`roots_eq_iff_expansions_eq`).
-/

namespace Vaa.Merkle

open PairTree

variable {hashPair : Hash → Hash → Hash} {leaves : List Hash} {i j : ℕ}

/-! ## Hash inputs -/

/-- The 64 bytes `hash_pair` hashes for a pair. -/
def pairInput (p : Hash × Hash) : Bytes := p.1.toList ++ p.2.toList

@[simp] theorem length_pairInput (p : Hash × Hash) : (pairInput p).length = 64 := by
  simp [pairInput]

theorem pairInput_injective : Function.Injective pairInput := by
  intro p q hpq
  obtain ⟨hleft, hright⟩ := List.append_inj hpq (by simp)
  exact Prod.ext (Vector.toList_inj.1 hleft) (Vector.toList_inj.1 hright)

theorem hashPair_eq_doubleSha256 (sha256 : Bytes → Hash) (p : Hash × Hash) :
    Merkle.hashPair sha256 p.1 p.2 = Bsv.doubleSha256 sha256 (pairInput p) := rfl

/-- A collision of the pair hash is one of double SHA-256 on the inputs. -/
theorem collides_of_collision {sha256 : Bytes → Hash} {as bs : List (Hash × Hash)}
    (hc : Collision (Merkle.hashPair sha256) as bs) :
    Bsv.Collides sha256 (as.map pairInput) (bs.map pairInput) := by
  obtain ⟨a, ha, b, hb, hne, hab⟩ := hc
  exact ⟨_, List.mem_map_of_mem ha, _, List.mem_map_of_mem hb, pairInput_injective.ne hne, hab⟩

/-! ## Proofs -/

/-- A walk from the level `low` to the root is the one from the node shown at its
    position, along its opening, or it collides with the tree. -/
theorem walk_eq_root_of_add (hne : leaves ≠ []) {x : Hash} {siblings : List Hash} {low : ℕ}
    (hlow : low + siblings.length = height leaves.length)
    (hwalk : walk hashPair x j siblings = rootOf hashPair leaves) :
    (x = node hashPair leaves low
        (origin leaves.length low siblings.length (j % 2 ^ siblings.length)) ∧
      siblings = opening hashPair (leafAt leaves) leaves.length low siblings.length
        (j % 2 ^ siblings.length)) ∨
      Collision hashPair (walkPairs hashPair x j siblings) (rootPairs hashPair leaves) := by
  have hn : 0 < leaves.length := List.length_pos_iff.2 hne
  -- Only the bits of `j` the siblings use are read.
  rw [← walk_mod] at hwalk
  rw [← walkPairs_mod, rootPairs_eq hashPair hne]
  refine walk_eq_node hn hlow.le ?_ ?_
  · rw [mod_two_pow_div]
    exact width_pos hn _
  · rw [hwalk, mod_two_pow_div, hlow]
    rfl

/-- The opening of the node shown at a position of the level `low`, up to the height
    of the tree, leads to the root. -/
theorem walk_opening_root (hashPair : Hash → Hash → Hash) (hne : leaves ≠ []) {low d : ℕ}
    (hlow : low + d = height leaves.length) (j : ℕ) :
    walk hashPair (node hashPair leaves low (origin leaves.length low d (j % 2 ^ d))) j
      (opening hashPair (leafAt leaves) leaves.length low d (j % 2 ^ d)) =
      rootOf hashPair leaves := by
  have hn : 0 < leaves.length := List.length_pos_iff.2 hne
  have hlen : (opening hashPair (leafAt leaves) leaves.length low d (j % 2 ^ d)).length = d :=
    length_opening ..
  have hwalk : walk hashPair (node hashPair leaves low
      (origin leaves.length low d (j % 2 ^ d))) (j % 2 ^ d)
      (opening hashPair (leafAt leaves) leaves.length low d (j % 2 ^ d)) =
      node hashPair leaves (low + d) (j % 2 ^ d / 2 ^ d) :=
    walk_opening hn (by rw [mod_two_pow_div]; exact width_pos hn _)
  rw [← walk_mod, hlen, hwalk, mod_two_pow_div, hlow]
  rfl

/-- A walk of the height of the tree to its root is the one from the leaf shown
    at its position, along its path, or it collides with the tree. -/
theorem walk_eq_root (hne : leaves ≠ []) {x : Hash} {siblings : List Hash}
    (hlen : siblings.length = height leaves.length)
    (hwalk : walk hashPair x j siblings = rootOf hashPair leaves) :
    (x = leafAt leaves
        (origin leaves.length 0 (height leaves.length) (j % 2 ^ height leaves.length)) ∧
      siblings = path hashPair leaves (j % 2 ^ height leaves.length)) ∨
      Collision hashPair (walkPairs hashPair x j siblings) (rootPairs hashPair leaves) := by
  have hbinds := walk_eq_root_of_add hne (by rw [Nat.zero_add, hlen]) hwalk
  rwa [hlen] at hbinds

/-- Along the path of a leaf, another leaf leads to the root only by a collision. -/
theorem collision_of_walk_path (hi : i < leaves.length) {x : Hash} (hx : x ≠ leafAt leaves i)
    (hwalk : walk hashPair x i (path hashPair leaves i) = rootOf hashPair leaves) :
    Collision hashPair (walkPairs hashPair x i (path hashPair leaves i))
      (rootPairs hashPair leaves) := by
  rcases walk_eq_root (ne_nil_of_lt hi) (length_path ..) hwalk with ⟨hleaf, -⟩ | hc
  · rw [Nat.mod_eq_of_lt (lt_two_pow_height hi), origin_of_lt (by simpa using hi)] at hleaf
    exact absurd hleaf hx
  · exact hc

/-- Binding: a proof of the right length that verifies at the index of a leaf is
    the proof of that leaf. -/
theorem verify_binds (hashPair : Hash → Hash → Hash) (leaves : List Hash) (p proof : MerkleProof)
    (x r : Hash) (hi : p.leafIndex < leaves.length) (hroot : merkleRoot hashPair leaves = .ok r)
    (hproof : merkleProof hashPair leaves p.leafIndex = .ok proof)
    (hlen : p.siblings.length = proof.siblings.length)
    (hok : p.verify hashPair x r = .ok ()) :
    (x = leaves[p.leafIndex] ∧ p.siblings = proof.siblings) ∨
      Collision hashPair (p.pairs hashPair x) (rootPairs hashPair leaves) := by
  obtain ⟨hne, rfl⟩ := merkleRoot_eq_ok_iff.1 hroot
  obtain ⟨_, rfl⟩ := merkleProof_eq_ok_iff.1 hproof
  rw [length_opening] at hlen
  rcases walk_eq_root hne hlen (verify_eq_ok_iff.1 hok) with ⟨hx, hsiblings⟩ | hc
  · -- The index is one of a leaf, so its position shows this leaf.
    rw [Nat.mod_eq_of_lt (lt_two_pow_height hi), origin_of_lt (by simpa using hi),
      leafAt_eq_getElem hi] at hx
    rw [Nat.mod_eq_of_lt (lt_two_pow_height hi)] at hsiblings
    exact .inl ⟨hx, hsiblings⟩
  · exact .inr hc

theorem verify_binds_three :
    ((Vector.replicate 32 3 : Hash) = threeLeaves[2] ∧
        (lastOfThree (Merkle.hashPair Sha256.digest)).siblings =
          (lastOfThree (Merkle.hashPair Sha256.digest)).siblings) ∨
      Collision (Merkle.hashPair Sha256.digest)
        ((lastOfThree (Merkle.hashPair Sha256.digest)).pairs (Merkle.hashPair Sha256.digest)
          (Vector.replicate 32 3))
        (rootPairs (Merkle.hashPair Sha256.digest) threeLeaves) :=
  verify_binds (Merkle.hashPair Sha256.digest) threeLeaves
    (lastOfThree (Merkle.hashPair Sha256.digest)) (lastOfThree (Merkle.hashPair Sha256.digest))
    (Vector.replicate 32 3) (rootOfThree (Merkle.hashPair Sha256.digest)) (by decide)
    (merkleRoot_three _) (merkleProof_three _) rfl (verify_eq_ok_iff.2 rfl)

/-! ## Positions -/

/-- The proof of a leaf moved to the index `j` leads to the root exactly when the
    position shows the leaf, or it collides with the tree. -/
theorem walk_moved (hashPair : Hash → Hash → Hash) (hnodup : leaves.Nodup)
    (hi : i < leaves.length) :
    (origin leaves.length 0 (height leaves.length) (j % 2 ^ height leaves.length) = i →
      walk hashPair (leafAt leaves i) j (path hashPair leaves i) =
        rootOf hashPair leaves) ∧
    (walk hashPair (leafAt leaves i) j (path hashPair leaves i) =
        rootOf hashPair leaves →
      origin leaves.length 0 (height leaves.length) (j % 2 ^ height leaves.length) = i ∨
        Collision hashPair (walkPairs hashPair (leafAt leaves i) j (path hashPair leaves i))
          (rootPairs hashPair leaves)) := by
  have hne : leaves ≠ [] := ne_nil_of_lt hi
  have hn : 0 < leaves.length := Nat.zero_lt_of_lt hi
  constructor
  · intro hshown
    have hpath : path hashPair leaves i =
        path hashPair leaves (j % 2 ^ height leaves.length) := by
      refine opening_congr hn (div_lt_width hi _) ?_ ?_
      · rw [mod_two_pow_div]
        exact width_pos hn _
      · rw [hshown, origin_of_lt (by simpa using hi)]
    have hwalk := walk_opening_root hashPair hne (Nat.zero_add _) j
    rw [hshown] at hwalk
    rw [hpath]
    exact hwalk
  · intro hwalk
    rcases walk_eq_root hne (length_path ..) hwalk with ⟨hx, _⟩ | hc
    · have hshown : origin leaves.length 0 (height leaves.length)
          (j % 2 ^ height leaves.length) < leaves.length := origin_mod_lt hn ..
      rw [leafAt_eq_getElem hi, leafAt_eq_getElem hshown] at hx
      exact .inl ((List.Nodup.getElem_inj_iff hnodup).1 hx).symm
    · exact .inr hc

/-- The proof with its leaf index replaced. -/
def MerkleProof.withIndex (proof : MerkleProof) (j : ℕ) : MerkleProof :=
  { proof with leafIndex := j }

/-- The proof of a leaf moved to another index is rejected exactly when the new
    position does not show the leaf. -/
theorem moved_rejected_iff (hashPair : Hash → Hash → Hash) (leaves : List Hash) (i j : ℕ)
    (proof : MerkleProof) (r : Hash) (hnodup : leaves.Nodup) (hi : i < leaves.length)
    (hroot : merkleRoot hashPair leaves = .ok r)
    (hproof : merkleProof hashPair leaves i = .ok proof) :
    ((proof.withIndex j).verify hashPair leaves[i] r = .error (.err .rootMismatch) ∨
      Collision hashPair ((proof.withIndex j).pairs hashPair leaves[i])
        (rootPairs hashPair leaves)) ↔
    (origin leaves.length 0 (height leaves.length) (j % 2 ^ height leaves.length) ≠ i ∨
      Collision hashPair ((proof.withIndex j).pairs hashPair leaves[i])
        (rootPairs hashPair leaves)) := by
  obtain ⟨_, rfl⟩ := merkleRoot_eq_ok_iff.1 hroot
  obtain ⟨_, rfl⟩ := merkleProof_eq_ok_iff.1 hproof
  obtain ⟨hshown, hwalk⟩ := walk_moved hashPair (j := j) hnodup hi
  rw [verify_eq_rootMismatch_iff, MerkleProof.pairs, MerkleProof.withIndex, ← leafAt_eq_getElem hi]
  constructor
  · rintro (hmismatch | hc)
    · exact .inl fun horigin => hmismatch (hshown horigin)
    · exact .inr hc
  · rintro (horigin | hc)
    · by_cases heq : walk hashPair (leafAt leaves i) j (path hashPair leaves i) =
          rootOf hashPair leaves
      · exact .inr ((hwalk heq).resolve_left horigin)
      · exact .inl heq
    · exact .inr hc

theorem moved_rejected_iff_three :
    (((lastOfThree (Merkle.hashPair Sha256.digest)).withIndex 1).verify
        (Merkle.hashPair Sha256.digest) threeLeaves[2]
        (rootOfThree (Merkle.hashPair Sha256.digest)) = .error (.err .rootMismatch) ∨
      Collision (Merkle.hashPair Sha256.digest)
        (((lastOfThree (Merkle.hashPair Sha256.digest)).withIndex 1).pairs
          (Merkle.hashPair Sha256.digest) threeLeaves[2])
        (rootPairs (Merkle.hashPair Sha256.digest) threeLeaves)) ↔
    (origin 3 0 (height 3) (1 % 2 ^ height 3) ≠ 2 ∨
      Collision (Merkle.hashPair Sha256.digest)
        (((lastOfThree (Merkle.hashPair Sha256.digest)).withIndex 1).pairs
          (Merkle.hashPair Sha256.digest) threeLeaves[2])
        (rootPairs (Merkle.hashPair Sha256.digest) threeLeaves)) :=
  moved_rejected_iff (Merkle.hashPair Sha256.digest) threeLeaves 2 1
    (lastOfThree (Merkle.hashPair Sha256.digest)) (rootOfThree (Merkle.hashPair Sha256.digest))
    (by decide) (by decide) (merkleRoot_three _) (merkleProof_three _)

/-- Over two leaves, the proof of the first is accepted at the index `2`, whose
    bit above the height of the tree is not read. -/
theorem moved_accepted :
    ¬∀ (leaves : List Hash) (i j : ℕ) (proof : MerkleProof) (r : Hash), leaves.Nodup →
      ∀ _hi : i < leaves.length, j < 2 ^ 64 → j ≠ i →
      merkleRoot (Merkle.hashPair Sha256.digest) leaves = .ok r →
      merkleProof (Merkle.hashPair Sha256.digest) leaves i = .ok proof →
      (proof.withIndex j).verify (Merkle.hashPair Sha256.digest) leaves[i] r =
          .error (.err .rootMismatch) ∨
        Collision (Merkle.hashPair Sha256.digest)
          ((proof.withIndex j).pairs (Merkle.hashPair Sha256.digest) leaves[i])
          (rootPairs (Merkle.hashPair Sha256.digest) leaves) := by
  intro hall
  have hclaim := hall (threeLeaves.take 2) 0 2
    { leafIndex := 0, siblings := [Vector.replicate 32 2] }
    (Merkle.hashPair Sha256.digest (Vector.replicate 32 1) (Vector.replicate 32 2))
    (by decide) (by decide) (by decide) (by decide) (by decide +kernel) (by decide +kernel)
  revert hclaim
  decide +kernel

/-! ## Roots -/

/-- The leaves of the padded tree over `leaves`: at each level of odd width, the
    subtree of the last node is copied as its right neighbour. -/
def expansion (leaves : List Hash) : List Hash :=
  expand (leafAt leaves) leaves.length (height leaves.length) 0

theorem getElem?_expansion (hne : leaves ≠ []) (hj : j < 2 ^ height leaves.length) :
    (expansion leaves)[j]? =
      some (leafAt leaves (origin leaves.length 0 (height leaves.length) j)) := by
  rw [expansion, getElem?_expand (width_pos (List.length_pos_iff.2 hne) _) hj, Nat.zero_mul,
    Nat.zero_add]

/-- Vectors of one length with one expansion are equal. -/
theorem eq_of_expansion_eq {a b : List Hash} (hlen : a.length = b.length)
    (hexp : expansion a = expansion b) : a = b := by
  refine List.ext_getElem hlen fun q ha hb => ?_
  rw [expansion, expansion, ← hlen] at hexp
  rw [← leafAt_eq_getElem ha, ← leafAt_eq_getElem hb]
  exact leaf_eq_of_expand_eq hexp ha

/-- Vectors of one height with one root have one expansion, or their trees collide. -/
theorem expansion_eq_of_rootOf_eq {hashPair : Hash → Hash → Hash} {a b : List Hash}
    (ha : a ≠ []) (hb : b ≠ []) (hheight : height a.length = height b.length)
    (hroots : rootOf hashPair a = rootOf hashPair b) : expansion a = expansion b ∨
      Collision hashPair (rootPairs hashPair a) (rootPairs hashPair b) := by
  have hpos : 0 < a.length := List.length_pos_iff.2 ha
  have hpos' : 0 < b.length := List.length_pos_iff.2 hb
  rw [rootOf, rootOf, root, root, ← hheight] at hroots
  rw [rootPairs_eq hashPair ha, rootPairs_eq hashPair hb, expansion, expansion, ← hheight]
  exact expand_eq_of_node_eq le_rfl hheight.le (width_pos hpos _) (width_pos hpos' _) hroots

/-- Vectors of one height share a root exactly when they share their expansion. -/
theorem roots_eq_iff_expansions_eq (hashPair : Hash → Hash → Hash) (a b : List Hash)
    (ha : a ≠ []) (hb : b ≠ []) (hheight : height a.length = height b.length) :
    (expansion a = expansion b → merkleRoot hashPair a = merkleRoot hashPair b) ∧
    (merkleRoot hashPair a = merkleRoot hashPair b → expansion a = expansion b ∨
      Collision hashPair (rootPairs hashPair a) (rootPairs hashPair b)) ∧
    (a.length = b.length → a ≠ b → merkleRoot hashPair a ≠ merkleRoot hashPair b ∨
      Collision hashPair (rootPairs hashPair a) (rootPairs hashPair b)) := by
  have hbinds : merkleRoot hashPair a = merkleRoot hashPair b → expansion a = expansion b ∨
      Collision hashPair (rootPairs hashPair a) (rootPairs hashPair b) := by
    intro hroots
    rw [merkleRoot_eq hashPair ha, merkleRoot_eq hashPair hb, Except.ok.injEq] at hroots
    exact expansion_eq_of_rootOf_eq ha hb hheight hroots
  refine ⟨fun hexp => ?_, hbinds, fun hlen hab => ?_⟩
  · rw [expansion, expansion, ← hheight] at hexp
    rw [merkleRoot_eq hashPair ha, merkleRoot_eq hashPair hb, rootOf, rootOf, root, root,
      ← hheight, node_eq_of_expand_eq hexp]
  · by_cases hroots : merkleRoot hashPair a = merkleRoot hashPair b
    · exact .inr ((hbinds hroots).resolve_left fun hexp => hab (eq_of_expansion_eq hlen hexp))
    · exact .inl hroots

/-- Writing out the copy of a padded last leaf does not change the root. -/
theorem roots_eq_three :
    merkleRoot (Merkle.hashPair Sha256.digest) threeLeaves =
      merkleRoot (Merkle.hashPair Sha256.digest) (threeLeaves ++ [Vector.replicate 32 3]) :=
  (roots_eq_iff_expansions_eq (Merkle.hashPair Sha256.digest) threeLeaves
    (threeLeaves ++ [Vector.replicate 32 3]) (by decide) (by decide) (by decide +kernel)).1
    (by decide +kernel)

end Vaa.Merkle
