import Mathlib.Data.Finset.Card
import Mathlib.Data.Finset.Image
import Mathlib.Data.Nat.Find
import Mathlib.Data.Nat.Notation

/-!
# Collecting draws

A loop draws values from a stream into a set until there are `q` of them, skipping those
it has already (`collect`, for as many turns as there is fuel). It ends exactly when the
stream has `q` different values (`exists_collect_iff`), with the values up to the first
draw that completes them (`collect_eq_some_iff`), which are `q` (`card_of_collect`): the
draws after it, and the fuel left, play no part.
-/

namespace Vaa.Collect

variable {α : Type*} [DecidableEq α] (f : ℕ → α) {q t : ℕ} {s : Finset α}

/-- The values of the first `t` draws. -/
def drawn (t : ℕ) : Finset α := (Finset.range t).image f

/-- The loop, from the set `s` and the draw `t` on. -/
def collect (q : ℕ) : (fuel : ℕ) → (s : Finset α) → (t : ℕ) → Option (Finset α)
  | 0, s, _ => if s.card < q then none else some s
  | fuel + 1, s, t => if s.card < q then collect q fuel (insert (f t) s) (t + 1) else some s

theorem drawn_zero : drawn f 0 = ∅ := rfl

theorem drawn_succ (t : ℕ) : drawn f (t + 1) = insert (f t) (drawn f t) := by
  rw [drawn, Finset.range_add_one, Finset.image_insert]
  rfl

theorem card_drawn_succ_le (t : ℕ) : (drawn f (t + 1)).card ≤ (drawn f t).card + 1 := by
  rw [drawn_succ]
  exact Finset.card_insert_le _ _

variable {f}

/-- The loop ends with the values up to the first draw that completes them. -/
theorem collect_eq_some_iff {fuel : ℕ} : collect f q fuel (drawn f t) t = some s ↔
    ∃ d ≤ fuel, s = drawn f (t + d) ∧ q ≤ s.card ∧ ∀ e < d, (drawn f (t + e)).card < q := by
  -- One turn adds a draw to those made so far; the loop is at the draw after them.
  induction fuel generalizing t with
  | zero =>
    rw [collect]
    split
    · next hfew =>
      refine iff_of_false nofun ?_
      rintro ⟨d, hd, rfl, hq, -⟩
      obtain rfl := Nat.le_zero.1 hd
      exact absurd hfew (not_lt.2 hq)
    · next henough =>
      rw [Option.some.injEq]
      constructor
      · rintro rfl
        exact ⟨0, le_rfl, rfl, not_lt.1 henough, nofun⟩
      · rintro ⟨d, hd, rfl, -, -⟩
        obtain rfl := Nat.le_zero.1 hd
        rfl
  | succ fuel ih =>
    rw [collect]
    split
    · next hfew =>
      rw [← drawn_succ, ih]
      constructor
      · rintro ⟨d, hd, rfl, hq, hleast⟩
        refine ⟨d + 1, Nat.succ_le_succ hd, by rw [Nat.add_right_comm, Nat.add_assoc], hq,
          fun e he => ?_⟩
        cases e with
        | zero => exact hfew
        | succ e =>
          have hlt := hleast e (Nat.lt_of_succ_lt_succ he)
          rwa [Nat.add_right_comm, Nat.add_assoc] at hlt
      · rintro ⟨d, hd, rfl, hq, hleast⟩
        cases d with
        | zero => exact absurd hfew (not_lt.2 hq)
        | succ d =>
          refine ⟨d, Nat.le_of_succ_le_succ hd, by rw [Nat.add_right_comm, Nat.add_assoc], hq,
            fun e he => ?_⟩
          have hlt := hleast (e + 1) (Nat.succ_lt_succ he)
          rwa [← Nat.add_assoc, Nat.add_right_comm] at hlt
    · next henough =>
      rw [Option.some.injEq]
      constructor
      · rintro rfl
        exact ⟨0, Nat.zero_le _, rfl, not_lt.1 henough, nofun⟩
      · rintro ⟨d, -, rfl, -, hleast⟩
        cases d with
        | zero => rfl
        | succ d => exact absurd (hleast 0 (Nat.succ_pos d)) henough

/-- So it does from nothing. -/
theorem collect_empty_eq_some_iff {fuel : ℕ} : collect f q fuel ∅ 0 = some s ↔
    ∃ d ≤ fuel, s = drawn f d ∧ q ≤ s.card ∧ ∀ e < d, (drawn f e).card < q := by
  rw [← drawn_zero f, collect_eq_some_iff]
  simp only [Nat.zero_add]

/-- It collects `q` values of the stream. -/
theorem card_of_collect {fuel : ℕ} (hs : collect f q fuel ∅ 0 = some s) : s.card = q := by
  obtain ⟨d, -, rfl, hq, hleast⟩ := collect_empty_eq_some_iff.1 hs
  cases d with
  | zero => exact le_antisymm (Nat.zero_le q) hq
  | succ d => exact le_antisymm ((card_drawn_succ_le f d).trans (hleast d (Nat.lt_succ_self d))) hq

theorem exists_of_mem_collect {fuel : ℕ} (hs : collect f q fuel ∅ 0 = some s) {x : α}
    (hx : x ∈ s) : ∃ t, f t = x := by
  obtain ⟨d, -, rfl, -, -⟩ := collect_empty_eq_some_iff.1 hs
  obtain ⟨t, -, ht⟩ := Finset.mem_image.1 hx
  exact ⟨t, ht⟩

/-- It ends exactly when the stream has that many different values. -/
theorem exists_collect_iff :
    (∃ fuel s, collect f q fuel ∅ 0 = some s) ↔ ∃ t, q ≤ (drawn f t).card := by
  constructor
  · rintro ⟨fuel, s, hs⟩
    obtain ⟨d, -, rfl, hq, -⟩ := collect_empty_eq_some_iff.1 hs
    exact ⟨d, hq⟩
  · intro hex
    exact ⟨Nat.find hex, drawn f (Nat.find hex), collect_empty_eq_some_iff.2 ⟨Nat.find hex, le_rfl,
      rfl, Nat.find_spec hex, fun e he => not_le.1 (Nat.find_min hex he)⟩⟩

/-- The fuel left plays no part. -/
theorem collect_unique {fuel fuel' : ℕ} {s' : Finset α} (hs : collect f q fuel ∅ 0 = some s)
    (hs' : collect f q fuel' ∅ 0 = some s') : s = s' := by
  obtain ⟨d, -, rfl, hq, hleast⟩ := collect_empty_eq_some_iff.1 hs
  obtain ⟨d', -, rfl, hq', hleast'⟩ := collect_empty_eq_some_iff.1 hs'
  rcases lt_trichotomy d d' with hlt | rfl | hlt
  · exact absurd hq (not_le.2 (hleast' d hlt))
  · rfl
  · exact absurd hq' (not_le.2 (hleast d' hlt))

end Vaa.Collect
