import Vaa.PairTree.Level
import Mathlib.Data.Nat.Bitwise

/-!
# Walks up a pair tree

A *walk* starts from a value at a position and combines it with a list of
siblings in turn, on the side given by the lowest bit of the position, which it
then drops (`walk`).

The *positions* of a level are those of the tree in which every missing right
neighbour is a copy of the whole subtree of the last node: `d` levels below an
actual node, any `d` bits lead somewhere. The position `i` of level `l` shows
the actual node `origin n l d i`, which is `i` itself when `i` is in the tree
(`origin_of_lt`). Its *opening* lists the nodes beside its path, `d` levels up.

* `walk_opening`: walking from the node shown at a position along its opening
  reaches the node above it;
* `opening_congr`: positions showing the same node have the same opening.
-/

namespace Vaa.PairTree

variable {α : Type*}

/-! ## Walks -/

section Walk

variable (h : α → α → α)

/-- The pair a step of a walk combines: the value goes to the left of its
    sibling at an even position, and to the right at an odd one. -/
def stepPair (x : α) (i : ℕ) (sibling : α) : α × α :=
  if i % 2 = 0 then (x, sibling) else (sibling, x)

/-- One step of a walk, from a value and its position. -/
def step (p : α × ℕ) (sibling : α) : α × ℕ :=
  (h (stepPair p.1 p.2 sibling).1 (stepPair p.1 p.2 sibling).2, p.2 / 2)

/-- The value a walk from `x` at the position `i` ends with. -/
def walk (x : α) (i : ℕ) (siblings : List α) : α := (siblings.foldl (step h) (x, i)).1

/-- The pairs a walk combines, in order. -/
def walkPairs : α → ℕ → List α → List (α × α)
  | _, _, [] => []
  | x, i, sibling :: siblings =>
    stepPair x i sibling :: walkPairs (step h (x, i) sibling).1 (i / 2) siblings

@[simp] theorem walk_nil (x : α) (i : ℕ) : walk h x i [] = x := rfl

theorem walk_cons (x : α) (i : ℕ) (sibling : α) (siblings : List α) :
    walk h x i (sibling :: siblings) = walk h (step h (x, i) sibling).1 (i / 2) siblings := rfl

/-- A walk drops one bit of the position for each sibling. -/
theorem foldl_step_snd (p : α × ℕ) (siblings : List α) :
    (siblings.foldl (step h) p).2 = p.2 / 2 ^ siblings.length := by
  induction siblings generalizing p with
  | nil => simp
  | cons sibling siblings ih =>
    rw [List.foldl_cons, ih, List.length_cons, pow_succ', ← Nat.div_div_eq_div_mul]
    rfl

theorem foldl_step (x : α) (i : ℕ) (siblings : List α) :
    siblings.foldl (step h) (x, i) = (walk h x i siblings, i / 2 ^ siblings.length) :=
  Prod.ext rfl (foldl_step_snd h (x, i) siblings)

theorem walk_append (x : α) (i : ℕ) (siblings siblings' : List α) :
    walk h x i (siblings ++ siblings') =
      walk h (walk h x i siblings) (i / 2 ^ siblings.length) siblings' := by
  rw [walk, List.foldl_append, ← foldl_step_snd h (x, i)]
  rfl

theorem walkPairs_append (x : α) (i : ℕ) (siblings siblings' : List α) :
    walkPairs h x i (siblings ++ siblings') = walkPairs h x i siblings ++
      walkPairs h (walk h x i siblings) (i / 2 ^ siblings.length) siblings' := by
  induction siblings generalizing x i with
  | nil => simp [walkPairs]
  | cons sibling siblings ih =>
    rw [List.cons_append, walkPairs, walkPairs, ih, List.length_cons, pow_succ',
      ← Nat.div_div_eq_div_mul, walk_cons, List.cons_append]

/-- The pair combined at a sibling in the middle of a walk. -/
def midPair (x : α) (i : ℕ) (below : List α) (sibling : α) : α × α :=
  stepPair (walk h x i below) (i / 2 ^ below.length) sibling

/-- A walk goes on from the value of the pair combined in the middle. -/
theorem walk_append_cons (x : α) (i : ℕ) (below : List α) (sibling : α) (above : List α) :
    walk h x i (below ++ sibling :: above) =
      walk h (h (midPair h x i below sibling).1 (midPair h x i below sibling).2)
        (i / 2 ^ (below.length + 1)) above := by
  rw [walk_append, walk_cons, Nat.div_div_eq_div_mul, ← pow_succ]
  rfl

theorem walkPairs_append_cons (x : α) (i : ℕ) (below : List α) (sibling : α) (above : List α) :
    walkPairs h x i (below ++ sibling :: above) =
      walkPairs h x i below ++ midPair h x i below sibling ::
        walkPairs h (h (midPair h x i below sibling).1 (midPair h x i below sibling).2)
          (i / 2 ^ (below.length + 1)) above := by
  rw [walkPairs_append, walkPairs, Nat.div_div_eq_div_mul, ← pow_succ]
  rfl

/-- A walk only reads as many bits of the position as it has siblings. -/
theorem foldl_step_mod (x : α) (i : ℕ) (siblings : List α) :
    walk h x (i % 2 ^ siblings.length) siblings = walk h x i siblings ∧
      walkPairs h x (i % 2 ^ siblings.length) siblings = walkPairs h x i siblings := by
  induction siblings generalizing x i with
  | nil => exact ⟨rfl, rfl⟩
  | cons sibling siblings ih =>
    -- The step reads the lowest bit, the rest of the walk the bits above it.
    have hmod : i % 2 ^ (sibling :: siblings).length =
        i % 2 + 2 * (i / 2 % 2 ^ siblings.length) := by
      rw [List.length_cons, pow_succ', Nat.mod_mul]
    have hbit : (i % 2 ^ (sibling :: siblings).length) % 2 = i % 2 := by omega
    have hrest : (i % 2 ^ (sibling :: siblings).length) / 2 = i / 2 % 2 ^ siblings.length := by
      omega
    have hpair : stepPair x (i % 2 ^ (sibling :: siblings).length) sibling =
        stepPair x i sibling := by
      rw [stepPair, stepPair, hbit]
    simp only [walk_cons, walkPairs, step, hpair, hrest, ih, and_self]

theorem walk_mod (x : α) (i : ℕ) (siblings : List α) :
    walk h x (i % 2 ^ siblings.length) siblings = walk h x i siblings :=
  (foldl_step_mod h x i siblings).1

theorem walkPairs_mod (x : α) (i : ℕ) (siblings : List α) :
    walkPairs h x (i % 2 ^ siblings.length) siblings = walkPairs h x i siblings :=
  (foldl_step_mod h x i siblings).2

end Walk

/-! ## Positions -/

/-- The node of level `l` shown at the position `i`, below an actual node `d`
    levels above: a right child that is missing shows its left neighbour. -/
def origin (n : ℕ) : ℕ → ℕ → ℕ → ℕ
  | _, 0, i => i
  | l, d + 1, i => min (2 * origin n (l + 1) d (i / 2) + i % 2) (width n l - 1)

section Origin

variable {n l d i j : ℕ}

theorem div_two_pow_succ (i d : ℕ) : i / 2 / 2 ^ d = i / 2 ^ (d + 1) := by
  rw [Nat.div_div_eq_div_mul, ← pow_succ']

theorem origin_lt (hn : 0 < n) (hi : i / 2 ^ d < width n (l + d)) : origin n l d i < width n l := by
  cases d with
  | zero => simpa [origin] using hi
  | succ d =>
    have hpos := width_pos hn l
    rw [origin]
    omega

theorem mod_two_pow_div (j d : ℕ) : j % 2 ^ d / 2 ^ d = 0 :=
  Nat.div_eq_of_lt (Nat.mod_lt _ (Nat.two_pow_pos d))

/-- Every position of `d` bits shows a node `d` levels below the first of a level. -/
theorem origin_mod_lt (hn : 0 < n) (l d j : ℕ) : origin n l d (j % 2 ^ d) < width n l := by
  refine origin_lt hn ?_
  rw [mod_two_pow_div]
  exact width_pos hn _

/-- A position in the tree shows its own node. -/
theorem origin_of_lt (hi : i < width n l) : origin n l d i = i := by
  induction d generalizing l i with
  | zero => rfl
  | succ d ih =>
    rw [origin, ih (half_lt_width hi)]
    omega

/-- The parent of the node shown at a position is shown at the parent position. -/
theorem origin_succ_div_two (hn : 0 < n) (hi : i / 2 ^ (d + 1) < width n (l + (d + 1))) :
    origin n l (d + 1) i / 2 = origin n (l + 1) d (i / 2) := by
  have hup : origin n (l + 1) d (i / 2) < width n (l + 1) := by
    refine origin_lt hn ?_
    rw [div_two_pow_succ, Nat.add_assoc, Nat.add_comm 1 d]
    exact hi
  -- The last node of an odd level shows for both children of its parent.
  rw [width_succ] at hup
  rw [origin]
  omega

end Origin

/-! ## Openings -/

/-- Flipping the lowest bit of an index of a level stays in the padded level,
    and finds the neighbour of the node. -/
theorem getElem?_padOdd_level {h : α → α → α} {leaf : ℕ → α} {n l i : ℕ} (hi : i < width n l) :
    (padOdd (level h leaf n l))[i ^^^ 1]? =
      some (node h leaf n l (min (i ^^^ 1) (width n l - 1))) := by
  have hflip : i ^^^ 1 < 2 * ((width n l + 1) / 2) := by
    rcases Nat.even_or_odd i with heven | hodd
    · rw [Nat.xor_one_of_even heven]
      rw [Nat.even_iff] at heven
      omega
    · rw [Nat.xor_one_of_odd hodd]
      omega
  rw [level, padOdd_map_range, List.getElem?_map, List.getElem?_range hflip, Option.map_some]

section Opening

variable (h : α → α → α) (leaf : ℕ → α) (n : ℕ)

/-- The nodes beside the path from the position `i` of level `l`, `d` levels up. -/
def opening : ℕ → ℕ → ℕ → List α
  | _, 0, _ => []
  | l, d + 1, i =>
    let pair := children h leaf n l (origin n (l + 1) d (i / 2))
    (if i % 2 = 0 then pair.2 else pair.1) :: opening (l + 1) d (i / 2)

@[simp] theorem length_opening (l d i : ℕ) : (opening h leaf n l d i).length = d := by
  induction d generalizing l i with
  | zero => rfl
  | succ d ih => rw [opening, List.length_cons, ih]

variable {h leaf n} {l d i j : ℕ}

/-- The next entry of the opening of a node of the tree is its neighbour, the
    last node of an odd level being its own. -/
theorem opening_succ_of_lt (hi : i < width n l) : opening h leaf n l (d + 1) i =
    node h leaf n l (min (i ^^^ 1) (width n l - 1)) :: opening h leaf n (l + 1) d (i / 2) := by
  rw [opening, origin_of_lt (half_lt_width hi)]
  congr 1
  split
  · next heven =>
    rw [children, Nat.xor_one_of_even (Nat.even_iff.2 heven), show 2 * (i / 2) = i by omega]
  · next hodd =>
    have hleft : min (i ^^^ 1) (width n l - 1) = 2 * (i / 2) := by
      rw [Nat.xor_one_of_odd (Nat.odd_iff.2 (by omega))]
      omega
    rw [hleft]
    rfl

/-- The entries of the opening of a node of the tree are the neighbours of the
    nodes above it. -/
theorem getElem?_opening (hi : i < width n l) (hj : j < d) : (opening h leaf n l d i)[j]? =
    some (node h leaf n (l + j) (min ((i / 2 ^ j) ^^^ 1) (width n (l + j) - 1))) := by
  induction d generalizing l i j with
  | zero => omega
  | succ d ih =>
    rw [opening_succ_of_lt hi]
    cases j with
    | zero => simp
    | succ j =>
      rw [List.getElem?_cons_succ, ih (half_lt_width hi) (Nat.lt_of_succ_lt_succ hj),
        div_two_pow_succ, Nat.add_right_comm, Nat.add_assoc]

/-- The opening of a node of the tree, cut short, is an opening. -/
theorem take_opening {m : ℕ} (hi : i < width n l) (hm : m ≤ d) :
    (opening h leaf n l d i).take m = opening h leaf n l m i := by
  induction m generalizing l i d with
  | zero => rfl
  | succ m ih =>
    obtain ⟨d, rfl⟩ : ∃ d', d = d' + 1 := Nat.exists_eq_add_one.2 (Nat.zero_lt_of_lt hm)
    rw [opening_succ_of_lt hi, opening_succ_of_lt hi, List.take_succ_cons,
      ih (half_lt_width hi) (Nat.le_of_succ_le_succ hm)]

/-- The opening of a node of the tree, from higher up on, is the opening of its ancestor
    there. -/
theorem drop_opening {m : ℕ} (hi : i < width n l) (hm : m ≤ d) :
    (opening h leaf n l d i).drop m = opening h leaf n (l + m) (d - m) (i / 2 ^ m) := by
  induction m generalizing l i d with
  | zero => simp
  | succ m ih =>
    obtain ⟨d, rfl⟩ : ∃ d', d = d' + 1 := Nat.exists_eq_add_one.2 (Nat.zero_lt_of_lt hm)
    rw [opening_succ_of_lt hi, List.drop_succ_cons,
      ih (half_lt_width hi) (Nat.le_of_succ_le_succ hm), div_two_pow_succ, Nat.add_sub_add_right,
      Nat.add_right_comm, Nat.add_assoc]

/-- A step combines the children of the node shown at the parent position
    exactly when it is from the node shown at the position, with the sibling of
    its opening. -/
theorem stepPair_eq_children_iff (hup : origin n (l + 1) d (i / 2) < width n (l + 1))
    {x sibling : α} :
    stepPair x i sibling = children h leaf n l (origin n (l + 1) d (i / 2)) ↔
      x = node h leaf n l (origin n l (d + 1) i) ∧
        sibling = if i % 2 = 0 then (children h leaf n l (origin n (l + 1) d (i / 2))).2
          else (children h leaf n l (origin n (l + 1) d (i / 2))).1 := by
  rw [width_succ] at hup
  rw [stepPair, origin]
  split
  · next heven =>
    rw [heven, min_eq_left (by omega), children, Prod.mk.injEq]
    rfl
  · next hodd =>
    rw [show i % 2 = 1 by omega, children, Prod.mk.injEq, and_comm]

/-- Walking along its opening from the node shown at a position reaches the
    node above it. -/
theorem walk_opening (hn : 0 < n) (hi : i / 2 ^ d < width n (l + d)) :
    walk h (node h leaf n l (origin n l d i)) i (opening h leaf n l d i) =
      node h leaf n (l + d) (i / 2 ^ d) := by
  induction d generalizing l i with
  | zero => simp [opening, origin]
  | succ d ih =>
    have hdiv : i / 2 / 2 ^ d < width n (l + 1 + d) := by
      rw [div_two_pow_succ, Nat.add_right_comm]
      exact hi
    rw [opening, walk_cons, step, (stepPair_eq_children_iff (origin_lt hn hdiv)).2 ⟨rfl, rfl⟩,
      ← node_succ h leaf n l, ih hdiv, div_two_pow_succ, Nat.add_right_comm, Nat.add_assoc]

/-- Positions showing the same node have the same opening. -/
theorem opening_congr (hn : 0 < n) (hi : i / 2 ^ d < width n (l + d))
    (hj : j / 2 ^ d < width n (l + d)) (hij : origin n l d i = origin n l d j) :
    opening h leaf n l d i = opening h leaf n l d j := by
  induction d generalizing l i j with
  | zero => rfl
  | succ d ih =>
    have hi' : i / 2 / 2 ^ d < width n (l + 1 + d) := by
      rw [div_two_pow_succ, Nat.add_right_comm]
      exact hi
    have hj' : j / 2 / 2 ^ d < width n (l + 1 + d) := by
      rw [div_two_pow_succ, Nat.add_right_comm]
      exact hj
    have hup : origin n (l + 1) d (i / 2) = origin n (l + 1) d (j / 2) := by
      rw [← origin_succ_div_two hn hi, ← origin_succ_div_two hn hj, hij]
    rw [opening, opening, ih hi' hj' hup, hup]
    congr 1
    by_cases hbit : i % 2 = j % 2
    · rw [hbit]
    · -- The bits differ, so the node has no right neighbour: both children are it.
      have hlt := origin_lt hn hj'
      rw [width_succ] at hlt
      rw [origin, origin, hup] at hij
      have hlast : min (2 * origin n (l + 1) d (j / 2) + 1) (width n l - 1) =
          2 * origin n (l + 1) d (j / 2) := by
        omega
      simp [children, hlast]

end Opening

end Vaa.PairTree
