import Mathlib.Algebra.BigOperators.Group.List.Lemmas
import Mathlib.Algebra.Order.Monoid.Canonical.Defs
import Mathlib.Data.Nat.Notation
import Mathlib.Data.List.Perm.Basic

/-!
# Bounded sums

A running total that must not exceed a bound is given up at the first addition
that takes it beyond (`addAll`). In an ordered monoid without negative elements
the totals only grow, so it is given up exactly when the whole sum exceeds the
bound (`addAll_eq`), whatever the order of the summands (`addAll_perm`).
-/

namespace Vaa.BoundedSum

variable {M : Type*} [AddCommMonoid M] [Preorder M] [DecidableLE M]

/-- The sum, unless it exceeds the bound. -/
def add (bound a b : M) : Option M := if a + b ≤ bound then some (a + b) else none

/-- The running total over a list of summands. -/
def addAll (bound start : M) (xs : List M) : Option M := xs.foldlM (add bound) start

variable [CanonicallyOrderedAdd M] {bound start : M} {xs ys : List M}

/-- A running total is given up exactly when the whole sum exceeds the bound. -/
theorem addAll_eq (hstart : start ≤ bound) (xs : List M) :
    addAll bound start xs = if start + xs.sum ≤ bound then some (start + xs.sum) else none := by
  induction xs generalizing start with
  | nil => simp [addAll, hstart]
  | cons x xs ih =>
    rw [addAll, List.foldlM_cons, add, List.sum_cons, ← add_assoc]
    by_cases hx : start + x ≤ bound
    · rw [if_pos hx]
      exact ih hx
    · -- The sum is at least its first partial sum, already beyond the bound.
      have hsum : ¬start + x + xs.sum ≤ bound := by
        intro hle
        exact hx (le_self_add.trans hle)
      rw [if_neg hx, if_neg hsum]
      rfl

theorem addAll_perm (hstart : start ≤ bound) (hperm : xs.Perm ys) :
    addAll bound start xs = addAll bound start ys := by
  rw [addAll_eq hstart, addAll_eq hstart, hperm.sum_eq]

end Vaa.BoundedSum
