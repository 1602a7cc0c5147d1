import Mathlib.Data.List.Chain
import Mathlib.Data.Nat.Notation

/-!
# Segments of a list

A list is cut into *segments*, each knowing the positions it goes from and to and the
entries between them. Segments *cover* the list from one position to another when they
follow each other without a gap, none of them empty (`Covers`); then nothing is missing,
repeated or moved: their entries, one after the other, are those of the list
(`Covers.flatMap_part`).
-/

namespace Vaa.Segments

variable {α γ : Type*} (lo hi : γ → ℕ) (part : γ → List α)

/-- The segments cover `xs` from one position to another: the first one starts at the
    former, each goes on where the one before ends, and the last one ends at the latter. -/
inductive Covers (xs : List α) : ℕ → List γ → ℕ → Prop
  | nil (i : ℕ) : Covers xs i [] i
  | cons {s : γ} {ss : List γ} {i j : ℕ} (hlo : lo s = i) (hlt : lo s < hi s)
      (hpart : part s = (xs.take (hi s)).drop (lo s)) (hrest : Covers xs (hi s) ss j) :
      Covers xs i (s :: ss) j

variable {lo hi part} {xs : List α} {ss : List γ} {s : γ} {i j : ℕ}

/-- Two adjacent parts of a list make up one. -/
theorem drop_take_append_drop_take (xs : List α) {a b c : ℕ} (hab : a ≤ b) (hbc : b ≤ c) :
    (xs.take b).drop a ++ (xs.take c).drop b = (xs.take c).drop a := by
  have hlow : (xs.take b).drop a = ((xs.take c).drop a).take (b - a) := by
    rw [← List.drop_take, List.take_take, min_eq_left hbc]
  have hhigh : (xs.take c).drop b = ((xs.take c).drop a).drop (b - a) := by
    rw [List.drop_drop, Nat.add_sub_cancel' hab]
  rw [hlow, hhigh, List.take_append_drop]

namespace Covers

theorem le (hc : Covers lo hi part xs i ss j) : i ≤ j := by
  induction hc with
  | nil i => exact le_rfl
  | cons hlo hlt _ _ ih => exact hlo ▸ hlt.le.trans ih

/-- The entries of the segments are those of the list, in order. -/
theorem flatMap_part (hc : Covers lo hi part xs i ss j) :
    ss.flatMap part = (xs.take j).drop i := by
  induction hc with
  | nil i => exact (List.drop_eq_nil_of_le (List.length_take_le _ _)).symm
  | cons hlo hlt hpart hrest ih =>
    rw [List.flatMap_cons, ih, hpart, ← hlo, drop_take_append_drop_take xs hlt.le hrest.le]

/-- Each segment lies in the range covered, and has the entries of its own. -/
theorem of_mem (hc : Covers lo hi part xs i ss j) (hs : s ∈ ss) :
    lo s < hi s ∧ hi s ≤ j ∧ part s = (xs.take (hi s)).drop (lo s) := by
  induction hc with
  | nil i => exact absurd hs List.not_mem_nil
  | cons _ hlt hpart hrest ih =>
    rcases List.mem_cons.1 hs with rfl | hs
    · exact ⟨hlt, hrest.le, hpart⟩
    · exact ih hs

/-- A segment has as many entries as positions. -/
theorem length_part (hc : Covers lo hi part xs i ss j) (hj : j ≤ xs.length) (hs : s ∈ ss) :
    lo s + (part s).length = hi s := by
  obtain ⟨hlt, hle, hpart⟩ := hc.of_mem hs
  rw [hpart, List.length_drop, List.length_take, min_eq_left (hle.trans hj),
    Nat.add_sub_cancel' hlt.le]

theorem lo_of_head? (hc : Covers lo hi part xs i ss j) (hs : ss.head? = some s) : lo s = i := by
  cases hc with
  | nil i => cases hs
  | cons hlo _ _ _ =>
    cases hs
    exact hlo

theorem hi_of_getLast? (hc : Covers lo hi part xs i ss j) (hs : ss.getLast? = some s) :
    hi s = j := by
  induction hc with
  | nil i => cases hs
  | @cons t ts i j _ _ _ hrest ih =>
    cases ts with
    | nil =>
      cases hrest
      rw [List.getLast?_singleton, Option.some.injEq] at hs
      rw [hs]
    | cons u us => exact ih (by rwa [List.getLast?_cons_cons] at hs)

/-- Each segment starts where the one before ends. -/
theorem isChain (hc : Covers lo hi part xs i ss j) : ss.IsChain fun s t => hi s = lo t := by
  induction hc with
  | nil i => exact .nil
  | cons _ _ _ hrest ih =>
    rw [List.isChain_cons]
    exact ⟨fun t ht => (hrest.lo_of_head? ht).symm, ih⟩

/-- There is no segment exactly when there is nothing to cover. -/
theorem eq_nil_iff (hc : Covers lo hi part xs i ss j) : ss = [] ↔ i = j := by
  cases hc with
  | nil i => simp
  | cons hlo hlt _ hrest => simpa [← hlo] using (hlt.trans_le hrest.le).ne

end Covers

end Vaa.Segments
