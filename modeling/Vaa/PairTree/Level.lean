import Mathlib.Algebra.Order.Floor.Div
import Mathlib.Data.Nat.Log
import Mathlib.Tactic.Ring

/-!
# Pair trees, level by level

A *pair tree* combines a vector of leaves into one value: adjacent nodes of a
level are combined by an operation `h` into the nodes of the level above, until
a single node is left. When the width of a level is odd, its last node has no
neighbour and is combined with itself.

* `width n l` is the number of nodes of level `l` over `n` leaves, and
  `height n` the first level with a single node (`width_eq_one_iff`);
* `node h leaf n l q` is the node `q` of level `l`: the last index of a level
  is its own right neighbour (`min (2 * q + 1) (width n l - 1)`);
* `pairUp` is one turn of the usual loop on lists, padding an odd list with its
  last entry and combining the entries two by two: it takes the list of the
  nodes of a level to that of the next (`pairUp_level`).
-/

namespace Vaa.PairTree

variable {α : Type*}

/-! ## Widths -/

/-- The number of nodes of level `l` of the tree over `n` leaves. -/
def width (n : ℕ) : ℕ → ℕ
  | 0 => n
  | l + 1 => (width n l + 1) / 2

/-- The height of the tree over `n` leaves: the level of its root. -/
def height (n : ℕ) : ℕ := Nat.clog 2 n

@[simp] theorem width_zero (n : ℕ) : width n 0 = n := rfl

theorem width_succ (n l : ℕ) : width n (l + 1) = (width n l + 1) / 2 := rfl

/-- The width is a rounded-up quotient: `width n l = ⌈n / 2 ^ l⌉`. -/
theorem width_le_iff {n l m : ℕ} : width n l ≤ m ↔ n ≤ m * 2 ^ l := by
  induction l generalizing m with
  | zero => simp
  | succ l ih =>
    -- Each level rounds up, so `m` nodes above are enough for `2 * m` nodes.
    have hhalf : (width n l + 1) / 2 ≤ m ↔ width n l ≤ 2 * m := by omega
    rw [width_succ, hhalf, ih, pow_succ]
    ring_nf

theorem width_eq_ceilDiv (n l : ℕ) : width n l = n ⌈/⌉ 2 ^ l := by
  refine eq_of_forall_ge_iff fun m => ?_
  rw [width_le_iff, ceilDiv_le_iff_le_mul (Nat.two_pow_pos l), Nat.mul_comm]

theorem lt_width_iff {n l m : ℕ} : m < width n l ↔ m * 2 ^ l < n := by
  rw [← not_le, width_le_iff, not_le]

theorem width_pos {n : ℕ} (hn : 0 < n) (l : ℕ) : 0 < width n l := by
  rw [lt_width_iff, Nat.zero_mul]
  exact hn

/-- A level has a single node exactly from the height of the tree on. -/
theorem width_eq_one_iff {n : ℕ} (hn : 0 < n) {l : ℕ} : width n l = 1 ↔ height n ≤ l := by
  have hpos := width_pos hn l
  have hle : width n l = 1 ↔ width n l ≤ 1 := by omega
  rw [hle, width_le_iff, Nat.one_mul, height, Nat.clog_le_iff_le_pow Nat.one_lt_two]

theorem width_height {n : ℕ} (hn : 0 < n) : width n (height n) = 1 :=
  (width_eq_one_iff hn).2 le_rfl

theorem one_lt_width_iff {n : ℕ} (hn : 0 < n) {l : ℕ} : 1 < width n l ↔ l < height n := by
  have hpos := width_pos hn l
  have hone : width n l = 1 ↔ height n ≤ l := width_eq_one_iff hn
  omega

/-- The tree over a level is the part of the tree from that level on. -/
theorem width_width (n d l : ℕ) : width (width n d) l = width n (d + l) := by
  induction l with
  | zero => rfl
  | succ l ih => rw [width_succ, ih, ← Nat.add_assoc, width_succ]

theorem height_width {n : ℕ} (hn : 0 < n) (d : ℕ) : height (width n d) = height n - d := by
  refine eq_of_forall_ge_iff fun l => ?_
  rw [← width_eq_one_iff (width_pos hn d), width_width, width_eq_one_iff hn, Nat.add_comm,
    Nat.sub_le_iff_le_add]

/-- The ancestor of a node in the tree is in the tree. -/
theorem div_lt_width {n l q : ℕ} (hq : q < width n l) (d : ℕ) :
    q / 2 ^ d < width n (l + d) := by
  rw [lt_width_iff, pow_add, ← Nat.mul_assoc, Nat.mul_right_comm]
  rw [lt_width_iff] at hq
  exact (Nat.mul_le_mul_right _ (Nat.div_mul_le_self q (2 ^ d))).trans_lt hq

theorem half_lt_width {n l q : ℕ} (hq : q < width n l) : q / 2 < width n (l + 1) :=
  div_lt_width hq 1

theorem left_lt_width {n l q : ℕ} (hq : q < width n (l + 1)) : 2 * q < width n l := by
  rw [width_succ] at hq
  omega

theorem right_lt_width {n l q : ℕ} (hq : q < width n (l + 1)) :
    min (2 * q + 1) (width n l - 1) < width n l := by
  have hleft := left_lt_width hq
  omega

/-- Below the height, an index of a level fits the bits above it. -/
theorem lt_two_pow_height {n q : ℕ} (hq : q < n) : q < 2 ^ height n :=
  hq.trans_le (Nat.le_pow_clog Nat.one_lt_two n)

/-! ## Nodes -/

section Node

variable (h : α → α → α) (leaf : ℕ → α) (n : ℕ)

/-- The node `q` of level `l` of the tree over the leaves `leaf 0, …, leaf (n - 1)`. -/
def node : ℕ → ℕ → α
  | 0, q => leaf q
  | l + 1, q => h (node l (2 * q)) (node l (min (2 * q + 1) (width n l - 1)))

/-- The two nodes combined into the node `q` of level `l + 1`. -/
def children (l q : ℕ) : α × α :=
  (node h leaf n l (2 * q), node h leaf n l (min (2 * q + 1) (width n l - 1)))

/-- The nodes of level `l`, from left to right. -/
def level (l : ℕ) : List α := (List.range (width n l)).map (node h leaf n l)

/-- The root of the tree. -/
def root : α := node h leaf n (height n) 0

@[simp] theorem node_zero (q : ℕ) : node h leaf n 0 q = leaf q := rfl

theorem node_succ (l q : ℕ) : node h leaf n (l + 1) q =
    h (children h leaf n l q).1 (children h leaf n l q).2 := rfl

@[simp] theorem length_level (l : ℕ) : (level h leaf n l).length = width n l := by
  simp [level]

theorem getElem?_level {l q : ℕ} (hq : q < width n l) :
    (level h leaf n l)[q]? = some (node h leaf n l q) := by
  simp [level, hq]

end Node

/-! ## One turn of the loop -/

/-- The entries of a list two by two, a last odd one left out. -/
def chunkPairs : List α → List (α × α)
  | a :: b :: rest => (a, b) :: chunkPairs rest
  | _ => []

/-- A list of odd length with its last entry repeated. -/
def padOdd (xs : List α) : List α :=
  if xs.length % 2 = 1 then xs ++ xs.getLast?.toList else xs

/-- The pairs one turn of the loop combines. -/
def levelPairs (xs : List α) : List (α × α) := chunkPairs (padOdd xs)

/-- One turn of the loop: the level above the level `xs`. -/
def pairUp (h : α → α → α) (xs : List α) : List α :=
  (levelPairs xs).map fun pair => h pair.1 pair.2

theorem length_chunkPairs : ∀ xs : List α, (chunkPairs xs).length = xs.length / 2
  | [] => by simp [chunkPairs]
  | [_] => by simp [chunkPairs]
  | a :: b :: rest => by
    rw [chunkPairs, List.length_cons, length_chunkPairs rest, List.length_cons, List.length_cons]
    omega

theorem length_padOdd (xs : List α) : (padOdd xs).length = 2 * ((xs.length + 1) / 2) := by
  rw [padOdd]
  split
  · next hodd =>
    have hne : xs ≠ [] := by
      rintro rfl
      simp at hodd
    rw [List.getLast?_eq_some_getLast hne]
    simp only [Option.toList_some, List.length_append, List.length_singleton]
    omega
  · omega

/-- A turn halves the length, rounding up. -/
theorem length_pairUp (h : α → α → α) (xs : List α) :
    (pairUp h xs).length = (xs.length + 1) / 2 := by
  rw [pairUp, List.length_map, levelPairs, length_chunkPairs, length_padOdd]
  omega

theorem length_pairUp_lt (h : α → α → α) {xs : List α} (hxs : 1 < xs.length) :
    (pairUp h xs).length < xs.length := by
  rw [length_pairUp]
  omega

theorem chunkPairs_map_range (f : ℕ → α) (m : ℕ) :
    chunkPairs ((List.range (2 * m)).map f) =
      (List.range m).map fun q => (f (2 * q), f (2 * q + 1)) := by
  induction m generalizing f with
  | zero => rfl
  | succ m ih =>
    have htail := ih fun i => f (i + 2)
    rw [show 2 * (m + 1) = 2 * m + 1 + 1 by ring, List.range_succ_eq_map, List.range_succ_eq_map,
      @List.range_succ_eq_map m]
    simp only [List.map_cons, List.map_map, chunkPairs]
    simp only [Function.comp_def] at htail ⊢
    rw [htail]
    rfl

theorem padOdd_map_range (f : ℕ → α) (w : ℕ) :
    padOdd ((List.range w).map f) =
      (List.range (2 * ((w + 1) / 2))).map fun i => f (min i (w - 1)) := by
  have hbelow : (List.range w).map f = (List.range w).map fun i => f (min i (w - 1)) :=
    List.map_congr_left fun i hi => by
      rw [List.mem_range] at hi
      rw [min_eq_left (by omega)]
  rw [padOdd]
  split
  · next hodd =>
    -- The entry repeated is the one at the index `w`, cut to the last one.
    rw [List.length_map, List.length_range] at hodd
    obtain ⟨v, rfl⟩ : ∃ v, w = v + 1 := ⟨w - 1, by omega⟩
    rw [show 2 * ((v + 1 + 1) / 2) = v + 1 + 1 by omega, @List.range_succ (v + 1),
      List.map_append, ← hbelow]
    simp [List.range_succ]
  · next heven =>
    rw [List.length_map, List.length_range] at heven
    rw [show 2 * ((w + 1) / 2) = w by omega, hbelow]

theorem levelPairs_level (h : α → α → α) (leaf : ℕ → α) (n l : ℕ) :
    levelPairs (level h leaf n l) = (List.range (width n (l + 1))).map (children h leaf n l) := by
  rw [levelPairs, level, padOdd_map_range, chunkPairs_map_range, ← width_succ]
  refine List.map_congr_left fun q hq => ?_
  rw [List.mem_range, width_succ] at hq
  rw [children, min_eq_left (by omega)]

/-- One turn of the loop takes a level of the tree to the next. -/
theorem pairUp_level (h : α → α → α) (leaf : ℕ → α) (n l : ℕ) :
    pairUp h (level h leaf n l) = level h leaf n (l + 1) := by
  rw [pairUp, levelPairs_level, List.map_map]
  rfl

end Vaa.PairTree
