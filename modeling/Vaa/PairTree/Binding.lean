import Vaa.PairTree.Path

/-!
# Binding

What a value of a pair tree says about what it was computed from, up to
*collisions* of the operation: two different pairs combined to the same value,
one in each of two computations (`Collision`). Collisions are exhibited, never
assumed away: a result is a disjunction with the collision found.

* `walk_eq_node`: a walk reaching a node of the tree started from the node shown
  at its position, along its opening, descending from the top of both;
* `expand leaf n l q`: the leaves below the node `q` of level `l`, a missing
  right neighbour repeating the leaves of its left one;
* `node_eq_of_expand_eq` and `expand_eq_of_node_eq`: nodes of two trees are equal
  when their expansions are, and only then, up to a collision between the trees.
-/

namespace Vaa.PairTree

variable {α : Type*}

/-! ## Collisions -/

/-- Two different pairs, one in each list, are combined to the same value. -/
def Collision (h : α → α → α) (as bs : List (α × α)) : Prop :=
  ∃ a ∈ as, ∃ b ∈ bs, a ≠ b ∧ h a.1 a.2 = h b.1 b.2

instance [DecidableEq α] (h : α → α → α) (as bs : List (α × α)) :
    Decidable (Collision h as bs) :=
  inferInstanceAs (Decidable (∃ a ∈ as, ∃ b ∈ bs, a ≠ b ∧ h a.1 a.2 = h b.1 b.2))

section Collision

variable {h : α → α → α} {as bs as' bs' : List (α × α)} {a b : α × α}

theorem Collision.mono (hc : Collision h as bs) (ha : as ⊆ as') (hb : bs ⊆ bs') :
    Collision h as' bs' := by
  obtain ⟨a, hmem, b, hmem', hab⟩ := hc
  exact ⟨a, ha hmem, b, hb hmem', hab⟩

theorem eq_or_collision (ha : a ∈ as) (hb : b ∈ bs) (hab : h a.1 a.2 = h b.1 b.2) :
    a = b ∨ Collision h as bs := by
  by_cases hne : a = b
  · exact .inl hne
  · exact .inr ⟨a, ha, b, hb, hne, hab⟩

end Collision

/-- The pairs combined in building the tree, level by level. -/
def treePairs (h : α → α → α) (leaf : ℕ → α) (n : ℕ) : List (α × α) :=
  (List.range (height n)).flatMap fun l => levelPairs (level h leaf n l)

theorem children_mem_treePairs {h : α → α → α} {leaf : ℕ → α} {n l q : ℕ} (hl : l < height n)
    (hq : q < width n (l + 1)) : children h leaf n l q ∈ treePairs h leaf n := by
  rw [treePairs, List.mem_flatMap]
  refine ⟨l, List.mem_range.2 hl, ?_⟩
  rw [levelPairs_level]
  exact List.mem_map_of_mem (List.mem_range.2 hq)

/-! ## Walks into the tree -/

section Walk

variable {h : α → α → α} {leaf : ℕ → α} {n l i : ℕ}

/-- A walk reaching a node of the tree is the one from the node shown at its
    position along its opening, or it combines a pair colliding with the tree. -/
theorem walk_eq_node (hn : 0 < n) {x : α} {siblings : List α}
    (hl : l + siblings.length ≤ height n)
    (hi : i / 2 ^ siblings.length < width n (l + siblings.length))
    (hwalk : walk h x i siblings =
      node h leaf n (l + siblings.length) (i / 2 ^ siblings.length)) :
    (x = node h leaf n l (origin n l siblings.length i) ∧
      siblings = opening h leaf n l siblings.length i) ∨
      Collision h (walkPairs h x i siblings) (treePairs h leaf n) := by
  induction siblings generalizing l x i with
  | nil => exact .inl ⟨by simpa [origin] using hwalk, rfl⟩
  | cons sibling siblings ih =>
    rw [List.length_cons] at hl hi hwalk
    have hadd : l + (siblings.length + 1) = l + 1 + siblings.length := by omega
    rw [hadd] at hl hi hwalk
    rw [← div_two_pow_succ] at hi hwalk
    rw [walk_cons] at hwalk
    have hup : origin n (l + 1) siblings.length (i / 2) < width n (l + 1) := origin_lt hn hi
    -- The rest of the walk is settled by induction, so the first step reaches
    -- the parent, whose children it must have combined.
    rcases ih hl hi hwalk with ⟨hparent, hrest⟩ | hc
    · rw [node_succ, step] at hparent
      have hmem : stepPair x i sibling ∈ walkPairs h x i (sibling :: siblings) :=
        List.mem_cons_self
      rcases eq_or_collision hmem (children_mem_treePairs (by omega) hup) hparent with heq | hc
      · obtain ⟨hx, hsibling⟩ := (stepPair_eq_children_iff hup).1 heq
        refine .inl ⟨hx, ?_⟩
        rw [List.length_cons, opening, ← hrest, hsibling]
      · exact .inr hc
    · exact .inr (hc.mono (List.subset_cons_self _ _) (List.Subset.refl _))

end Walk

/-! ## Expansions -/

/-- The `2 ^ l` leaves below the node `q` of level `l`, a missing right neighbour
    standing for a copy of the subtree of its left one. -/
def expand (leaf : ℕ → α) (n l q : ℕ) : List α := node (· ++ ·) (fun i => [leaf i]) n l q

section Expand

variable {h : α → α → α} {leaf leaf' : ℕ → α} {n n' l q q' : ℕ}

theorem expand_succ (leaf : ℕ → α) (n l q : ℕ) : expand leaf n (l + 1) q =
    expand leaf n l (2 * q) ++ expand leaf n l (min (2 * q + 1) (width n l - 1)) := rfl

@[simp] theorem length_expand (leaf : ℕ → α) (n l q : ℕ) :
    (expand leaf n l q).length = 2 ^ l := by
  induction l generalizing q with
  | zero => rfl
  | succ l ih => rw [expand_succ, List.length_append, ih, ih, Nat.two_pow_succ]

theorem expand_succ_inj : expand leaf n (l + 1) q = expand leaf' n' (l + 1) q' ↔
    expand leaf n l (2 * q) = expand leaf' n' l (2 * q') ∧
      expand leaf n l (min (2 * q + 1) (width n l - 1)) =
        expand leaf' n' l (min (2 * q' + 1) (width n' l - 1)) := by
  rw [expand_succ, expand_succ]
  refine ⟨fun happ => List.append_inj happ (by simp), fun ⟨hleft, hright⟩ => ?_⟩
  rw [hleft, hright]

/-- A node only depends on its expansion. -/
theorem node_eq_of_expand_eq (hexp : expand leaf n l q = expand leaf' n' l q') :
    node h leaf n l q = node h leaf' n' l q' := by
  induction l generalizing q q' with
  | zero => exact (List.cons.inj hexp).1
  | succ l ih =>
    obtain ⟨hleft, hright⟩ := expand_succ_inj.1 hexp
    rw [node, node, ih hleft, ih hright]

/-- Equal nodes have equal expansions, or their trees collide. -/
theorem expand_eq_of_node_eq (hl : l ≤ height n) (hl' : l ≤ height n') (hq : q < width n l)
    (hq' : q' < width n' l) (hnode : node h leaf n l q = node h leaf' n' l q') :
    expand leaf n l q = expand leaf' n' l q' ∨
      Collision h (treePairs h leaf n) (treePairs h leaf' n') := by
  induction l generalizing q q' with
  | zero => exact .inl (congrArg (fun x => [x]) hnode)
  | succ l ih =>
    -- The children are equal pairs, so each of them has one expansion in both trees.
    rw [node_succ, node_succ] at hnode
    rcases eq_or_collision (children_mem_treePairs hl hq) (children_mem_treePairs hl' hq')
      hnode with hpair | hc
    · obtain ⟨hleft, hright⟩ := Prod.mk.inj hpair
      have hbelow : l ≤ height n := Nat.le_of_succ_le hl
      have hbelow' : l ≤ height n' := Nat.le_of_succ_le hl'
      rcases ih hbelow hbelow' (left_lt_width hq) (left_lt_width hq') hleft with hleft | hc
      · rcases ih hbelow hbelow' (right_lt_width hq) (right_lt_width hq') hright with hright | hc
        · exact .inl (expand_succ_inj.2 ⟨hleft, hright⟩)
        · exact .inr hc
      · exact .inr hc
    · exact .inr hc

/-- Descending in two stages. -/
theorem origin_add (n l d e i : ℕ) : origin n l (d + e) i =
    origin n l d (origin n (l + d) e (i / 2 ^ d) * 2 ^ d + i % 2 ^ d) := by
  induction d generalizing l i with
  | zero => simp [origin, Nat.mod_one]
  | succ d ih =>
    -- The lowest bit of the position is read last, below both stages.
    have hmod : i % 2 ^ (d + 1) = i % 2 + 2 * (i / 2 % 2 ^ d) := by rw [pow_succ', Nat.mod_mul]
    have hpow : origin n (l + 1 + d) e (i / 2 / 2 ^ d) * 2 ^ (d + 1) =
        2 * (origin n (l + 1 + d) e (i / 2 / 2 ^ d) * 2 ^ d) := by rw [pow_succ']; ring
    rw [Nat.add_right_comm, origin, ih, origin, show l + (d + 1) = l + 1 + d by omega,
      ← div_two_pow_succ, hmod, hpow]
    congr 2
    · congr 1
      congr 1
      omega
    · omega

theorem div_mod_two_pow {a l : ℕ} (c : ℕ) (ha : a < 2 ^ l) :
    (c * 2 ^ l + a) / 2 ^ l = c ∧ (c * 2 ^ l + a) % 2 ^ l = a := by
  constructor
  · rw [Nat.mul_comm, Nat.mul_add_div (Nat.two_pow_pos l), Nat.div_eq_of_lt ha, Nat.add_zero]
  · rw [Nat.mul_add_mod_self_right, Nat.mod_eq_of_lt ha]

/-- The expansion reads the leaves shown at the positions below the node. -/
theorem getElem?_expand {j : ℕ} (hq : q < width n l) (hj : j < 2 ^ l) :
    (expand leaf n l q)[j]? = some (leaf (origin n 0 l (q * 2 ^ l + j))) := by
  induction l generalizing q j with
  | zero =>
    obtain rfl : j = 0 := by simpa using hj
    simp [expand, origin]
  | succ l ih =>
    -- The lower half of the positions lies below the left child, the upper half
    -- below the right one.
    rw [expand_succ, origin_add, Nat.zero_add]
    by_cases hlow : j < 2 ^ l
    · have hposition : q * 2 ^ (l + 1) + j = 2 * q * 2 ^ l + j := by ring
      obtain ⟨hdiv, hmod⟩ := div_mod_two_pow (2 * q) hlow
      have hleft : origin n l 1 (2 * q) = 2 * q := origin_of_lt (left_lt_width hq)
      rw [List.getElem?_append_left (by simpa using hlow), ih (left_lt_width hq) hlow, hposition,
        hdiv, hmod, hleft]
    · obtain ⟨k, rfl⟩ := Nat.exists_eq_add_of_le (Nat.not_lt.1 hlow)
      have hk : k < 2 ^ l := by
        rw [Nat.two_pow_succ] at hj
        exact Nat.lt_of_add_lt_add_left hj
      have hposition : q * 2 ^ (l + 1) + (2 ^ l + k) = (2 * q + 1) * 2 ^ l + k := by ring
      obtain ⟨hdiv, hmod⟩ := div_mod_two_pow (2 * q + 1) hk
      have hright : origin n l 1 (2 * q + 1) = min (2 * q + 1) (width n l - 1) := by
        rw [origin, origin]
        omega
      rw [List.getElem?_append_right (by simp), length_expand, Nat.add_sub_cancel_left,
        ih (right_lt_width hq) hk, hposition, hdiv, hmod, hright]

/-- Over the same number of leaves, the expansion of the root tells every leaf. -/
theorem leaf_eq_of_expand_eq (hexp : expand leaf n (height n) 0 = expand leaf' n (height n) 0)
    (hq : q < n) : leaf q = leaf' q := by
  have hroot : 0 < width n (height n) := width_pos (by omega) _
  have hget : (expand leaf n (height n) 0)[q]? = some (leaf (origin n 0 (height n)
      (0 * 2 ^ height n + q))) := getElem?_expand hroot (lt_two_pow_height hq)
  rw [hexp, getElem?_expand hroot (lt_two_pow_height hq)] at hget
  rw [Nat.zero_mul, Nat.zero_add, origin_of_lt (by simpa using hq)] at hget
  exact (Option.some.inj hget).symm

end Expand

end Vaa.PairTree
